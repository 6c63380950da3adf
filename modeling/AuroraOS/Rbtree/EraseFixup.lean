import AuroraOS.Rbtree.Insert

/-!
# The deletion fixup

`rb_erase_fixup` starts at a subtree that lacks one black node on each of its paths
and moves the deficit up until a rotation or a red node absorbs it.  A subtree with
a deficit has a sibling of positive black height, so the sibling is never missing.
-/

namespace AuroraOS.Rbtree

open Lib Lib.RedBlack RbTree List

variable {s : RbHeap} {ctx : ItemCtx} {t : ItemTree} {d : Side} {n : Nat}

variable {cw cp : Color} {w p : Item}

lemma Focus.setColor_far {e : Side} {c : Color} {near a b : ItemTree} {x : Item}
    (focus : Focus s ctx (join d c near x (join e cw a w b))) (c' : Color) :
    Focus (s.setColor w.addr c') ctx (join d c near x (join e c' a w b)) := by
  rw [← join_opp] at focus ⊢
  exact focus_join.mpr ((focus_join.mp focus).setColor c')

/-! ## Cases 2 to 4 -/

section Sibling

variable {wn wf : ItemTree}

lemma eraseFixupLast_focus (focus : Focus s ctx (join d cp t p (join d cw wn w wf))) :
    Focus (eraseFixupLast d s p.addr w.addr) ctx
      (join d cp (join d .black t p wn) w wf.blacken) := by
  have color : (s.node p.addr).rbColor = cp := by rw [focus.here, cell_color]
  have first := (focus.setColor_far cp).setColor .black
  have sibling := (rep_join.mp (rep_join.mp first.tree).2.2).1
  have child : (((s.setColor w.addr cp).setColor p.addr .black).node w.addr).child d.opp =
      ptr wf := by rw [sibling, cell_child_opp]
  have second : Focus (rbSetBlack ((s.setColor w.addr cp).setColor p.addr .black) (ptr wf)) ctx
      (join d .black t p (join d cp wn w wf.blacken)) := by
    rw [← join_opp] at first ⊢
    have inSibling := focus_join.mp first
    exact focus_join.mpr inSibling.setBlack_far
  have last := second.rotate
  simp only [eraseFixupLast, color]
  rw [show rbSetBlack (s.setColor w.addr cp) (some p.addr) =
    (s.setColor w.addr cp).setColor p.addr .black from rfl, child]
  exact last

/-- Case 3: a rotation of the sibling makes its far child red. -/
lemma eraseFixup_inner {a b : ItemTree} {y : Item} {cy : Color}
    (focus : Focus s ctx (join d cp t p (join d cw (join d cy a y b) w wf))) :
    Focus (rotate d.opp (rbSetRed (rbSetBlack s (some y.addr)) (some w.addr)) w.addr) ctx
      (join d cp t p (join d .black a y (join d .red b w wf))) := by
  rw [← join_opp] at focus ⊢
  exact focus_join.mpr (insertFixup_outer (focus_join.mp focus))

/-- The outcome of cases 2 to 4: either the sibling turned red and the deficit moves
up, or the subtree of the parent is in order again. -/
inductive SiblingOutcome (ctx : ItemCtx) (d : Side) (t : ItemTree) (cp : Color) (p : Item)
    (sibling : ItemTree) (n : Nat) : EraseTurn → Prop
  | up {s' : RbHeap} {sibling' : ItemTree}
      (focus : Focus s' ctx (join d cp t p sibling')) (red : sibling'.Balanced .red n)
      (items : sibling'.toList = sibling.toList) :
      SiblingOutcome ctx d t cp p sibling n (.up s')
  | finished {s' : RbHeap} {whole : ItemTree} (focus : Focus s' ctx whole)
      (balanced : whole.Balanced cp (cp.raise (n + 1)))
      (items : whole.toList = (join d cp t p sibling).toList) :
      SiblingOutcome ctx d t cp p sibling n (.finished s')

lemma eraseFixupSibling_spec {c₁ c₂ : Color}
    (focus : Focus s ctx (join d cp t p (join d .black wn w wf)))
    (bal : t.Balanced .black n) (balNear : wn.Balanced c₁ n) (balFar : wf.Balanced c₂ n) :
    SiblingOutcome ctx d t cp p (join d .black wn w wf) n
      (eraseFixupSibling d s p.addr w.addr) := by
  obtain ⟨here, repNear, repFar⟩ := rep_join.mp (rep_join.mp focus.tree).2.2
  have near : (s.node w.addr).child d = ptr wn := by rw [here, cell_child]
  have far : (s.node w.addr).child d.opp = ptr wf := by rw [here, cell_child_opp]
  have nearBlack := rbIsBlack_ptr repNear
  have farBlack := rbIsBlack_ptr repFar
  have children : (rbIsBlack s (s.node w.addr).left && rbIsBlack s (s.node w.addr).right) = true ↔
      wn.color = .black ∧ wf.color = .black := by
    rw [Bool.and_eq_true, ← nearBlack, ← farBlack, ← near, ← far]
    cases d
    · rfl
    · exact and_comm
  rw [eraseFixupSibling]
  by_cases both : wn.color = .black ∧ wf.color = .black
  · -- case 2
    rw [if_pos (children.mpr both)]
    have near₁ : c₁ = .black := balNear.color_eq.symm.trans both.1
    have far₂ : c₂ = .black := balFar.color_eq.symm.trans both.2
    subst near₁ far₂
    exact .up (focus.setColor_far .red) (balNear.joinRed balFar) (toList_recolor ..)
  rw [if_neg fun h => both (children.mp h), eraseFixupRotate, far]
  by_cases inner : wf.color = .black
  · -- case 3, then case 4
    rw [if_pos (farBlack.mpr inner), near]
    have far₂ : c₂ = .black := balFar.color_eq.symm.trans inner
    subst far₂
    have near₁ : c₁ = .red := by
      cases c₁ with
      | red => rfl
      | black => exact absurd ⟨balNear.color_eq, inner⟩ both
    subst near₁
    obtain ⟨a, y, b, rfl, balA, balB⟩ := balNear.red_cases d
    have turned := eraseFixup_inner focus
    have sibling := turned.here
    rw [ptr_join] at sibling
    have child : ((rotate d.opp (rbSetRed (rbSetBlack s (some y.addr)) (some w.addr))
        w.addr).node p.addr).child d.opp = some y.addr := by rw [sibling, cell_child_opp]
    simp only [ptr_join, child]
    have farRed : (join d .red b w wf).Balanced .red n := balB.joinRed balFar
    refine .finished (eraseFixupLast_focus turned) ?_ ?_
    · exact (bal.joinBlack balA).joinColor farRed.blacken_red cp
    · cases d <;> simp [join]
  · -- case 4
    rw [if_neg fun h => inner (farBlack.mp h)]
    have far₂ : c₂ = .red := by
      cases c₂ with
      | red => rfl
      | black => exact absurd balFar.color_eq inner
    subst far₂
    refine .finished (eraseFixupLast_focus focus) ?_ ?_
    · exact (bal.joinBlack balNear).joinColor balFar.blacken_red cp
    · cases d <;> simp [join]

end Sibling

/-! ## The loop -/

/-- One turn at a subtree with a deficit: after the rotation of a red sibling the
parent `p` may be one level lower, and it is then red. -/
lemma eraseFixupTurn_spec {w : ItemTree}
    (focus : Focus s (⟨d, cp, p, w⟩ :: ctx) t) (bal : t.Balanced .black n)
    (sibling : w.Balanced cw (n + 1)) (noRedRed : cp = .red → cw = .black)
    (accepts : Accepts ctx cp (cp.raise (n + 1))) :
    ∃ ctx' cp' w', SiblingOutcome ctx' d t cp' p w' n (eraseFixupTurn d s p.addr) ∧
      Accepts ctx' cp' (cp'.raise (n + 1)) ∧ (cp' = .red ∨ ctx' = ctx) ∧
      (plug ctx' (join d cp' t p w')).toList = (plug ctx (join d cp t p w)).toList := by
  have upper := focus_join.mpr focus
  have child : (s.node p.addr).child d.opp = ptr w := by rw [upper.here, cell_child_opp]
  cases cw with
  | black =>
    obtain ⟨wn, x, wf, c₁, c₂, rfl, balNear, balFar⟩ := sibling.black_cases d
    have notRed : ¬rbIsRed s (some x.addr) = true := by
      have red := rbIsRed_ptr (rep_join.mp upper.tree).2.2
      rw [ptr_join, color_join] at red
      simp [red]
    refine ⟨ctx, cp, _, ?_, accepts, .inr rfl, rfl⟩
    rw [eraseFixupTurn, child, ptr_join]
    simp only [if_neg notRed]
    exact eraseFixupSibling_spec upper bal balNear balFar
  | red =>
    have black : cp = .black := by
      cases cp with
      | red => exact absurd (noRedRed rfl) (by decide)
      | black => rfl
    subst black
    obtain ⟨wn, x, wf, rfl, balNear, balFar⟩ := sibling.red_cases d
    have red : rbIsRed s (some x.addr) = true := by
      have red := rbIsRed_ptr (rep_join.mp upper.tree).2.2
      rw [ptr_join, color_join] at red
      exact red.mpr rfl
    have turned := focus_join.mp ((upper.setColor_far .black).setColor .red).rotate
    obtain ⟨wnn, y, wnf, c₁, c₂, rfl, balInner, balOuter⟩ := balNear.black_cases d
    have child' := turned.here
    rw [ptr_join] at child'
    change (rotate d (rbSetRed (rbSetBlack s (some x.addr)) (some p.addr)) p.addr).node _ = _
      at child'
    refine ⟨⟨d, .black, x, wf⟩ :: ctx, .red, join d .black wnn y wnf, ?_,
      .black balFar accepts, .inl rfl, ?_⟩
    · rw [eraseFixupTurn, child, ptr_join]
      simp only [red]
      rw [child', cell_child_opp]
      exact eraseFixupSibling_spec turned bal balInner balOuter
    · rw [plug_cons]
      refine toList_plug_congr ?_
      simp only [Frame.fill]
      cases d <;> simp [join]

variable {isLeft : Bool}

/-- The loop ends at a red node, which absorbs the deficit. -/
lemma eraseFixupLoop_red {parent : Option Nat} {fuel : Nat}
    (focus : Focus s ctx t) (red : t.color = .red) :
    eraseFixupLoop (fuel + 1) s (ptr t) parent isLeft = some (false, ptr t, s) := by
  have notBlack : ¬rbIsBlack s (ptr t) = true := by
    rw [rbIsBlack_ptr focus.tree, red]
    decide
  unfold eraseFixupLoop
  rw [if_neg fun h => notBlack h.2]

variable {f : Frame Item}

lemma Focus.isLeftChild_side {a : Nat} (focus : Focus s (f :: ctx) t)
    (root : ptr t = some a) (old : Bool) :
    (if isLeftChild s a old then Side.left else .right) = f.side := by
  have parent : (s.node a).parent = some f.label.addr := focus.parent root
  rw [← focus.side root]
  simp [isLeftChild, parent]

lemma CtxRep.root_mem {hole : Option Nat} (path : CtxRep s (f :: ctx) hole) :
    ∃ a ∈ ctxAddrs (f :: ctx), s.root = some a := by
  induction ctx generalizing f hole with
  | nil => exact ⟨f.label.addr, by simp [ctxAddrs], path.2.2⟩
  | cons g ctx ih =>
    obtain ⟨a, mem, root⟩ := ih path.2.2
    exact ⟨a, by simp [ctxAddrs] at mem ⊢; tauto, root⟩

lemma Focus.ptr_ne_root (focus : Focus s (f :: ctx) t) : ptr t ≠ s.root := by
  obtain ⟨a, mem, root⟩ := focus.path.root_mem
  rw [root]
  intro same
  exact (nodup_append.mp focus.nodup).2.2 a (ptr_mem_addrs same) a mem rfl

/-- The fixup from a black subtree with a deficit ends in a balanced tree with the same nodes in the
same order.  Induction on the length of the path; only case 2 below a black parent goes on. -/
lemma eraseFixupLoop_spec (depth : Nat) (short : ctx.length ≤ depth)
    (focus : Focus s ctx t) (bal : t.Balanced .black n) (accepts : Accepts ctx .black (n + 1))
    (side : ∀ f rest, ctx = f :: rest → (if isLeft then Side.left else .right) = f.side) :
    ∃ s' x whole, (∀ fuel, depth + 1 < fuel →
        eraseFixupLoop fuel s (ptr t) (parentOf ctx) isLeft = some (false, x, s')) ∧
      Focus (rbSetBlack s' x) [] whole ∧ (∃ m, whole.Balanced .black m) ∧
      whole.toList = (plug ctx t).toList := by
  induction depth generalizing s ctx t n isLeft with
  | zero =>
    have top : ctx = [] := length_eq_zero_iff.mp (Nat.le_zero.mp short)
    subst top
    have root : s.root = ptr t := focus.path
    refine ⟨s, ptr t, t, fun fuel enough => ?_, ?_, ⟨n, bal⟩, rfl⟩
    · obtain ⟨rest, rfl⟩ : ∃ r, fuel = r + 1 := ⟨fuel - 1, by omega⟩
      simp [eraseFixupLoop, root]
    · have recolored := focus.setBlack
      rwa [bal.blacken_black] at recolored
  | succ depth ih =>
    cases ctx with
    | nil =>
      obtain ⟨s', x, whole, run, rest⟩ := ih (by simp) focus bal accepts side
      exact ⟨s', x, whole, fun fuel enough => run fuel (by omega), rest⟩
    | cons f outer =>
      obtain ⟨d, cp, p, w⟩ := f
      obtain ⟨cw, sibling, noRedRed, acceptsOuter⟩ := accepts.cons_cases
      have black : rbIsBlack s (ptr t) = true :=
        (rbIsBlack_ptr focus.tree).mpr bal.color_eq
      have turnSide : (if isLeft then Side.left else .right) = d := side _ _ rfl
      obtain ⟨ctx', cp', w', outcome, accepts', lower, items⟩ :=
        eraseFixupTurn_spec focus bal sibling noRedRed acceptsOuter
      have looping := And.intro focus.ptr_ne_root black
      generalize taken : eraseFixupTurn d s p.addr = turn at outcome
      cases outcome with
      | @finished s' whole focus' balanced same =>
        obtain ⟨m, wholeBalanced⟩ := accepts'.balanced_plug balanced
        have root : s'.root = ptr (plug ctx' whole) := focus'.whole.path
        refine ⟨s', s'.root, plug ctx' whole, fun fuel enough => ?_, ?_,
          ⟨m, wholeBalanced⟩, (toList_plug_congr same).trans items⟩
        · obtain ⟨rest, rfl⟩ : ∃ r, fuel = r + 1 := ⟨fuel - 1, by omega⟩
          simp only [eraseFixupLoop, if_pos looping, parentOf, turnSide, taken]
        · have recolored := focus'.whole.setBlack
          rwa [wholeBalanced.blacken_black, ← root] at recolored
      | @up s' sibling' focus' red same =>
        have parent : (s'.node p.addr).parent = parentOf ctx' :=
          focus'.parent (ptr_join ..)
        have step : ∀ fuel, eraseFixupLoop (fuel + 1) s (ptr t)
            (parentOf (⟨d, cp, p, w⟩ :: outer)) isLeft = eraseFixupLoop fuel s' (some p.addr)
              (s'.node p.addr).parent (isLeftChild s' p.addr isLeft) := by
          intro fuel
          simp only [eraseFixupLoop, if_pos looping, parentOf, turnSide, taken]
        have items' : (plug ctx' (join d cp' t p sibling')).toList =
            (plug outer (join d cp t p w)).toList := by
          refine (toList_plug_congr ?_).trans items
          cases d <;> simp [join, same]
        have balanced : (join d .black t p sibling').Balanced .black (n + 1) :=
          bal.joinBlack red
        cases cp' with
        | red =>
          obtain ⟨m, wholeBalanced⟩ := accepts'.of_red.balanced_plug balanced
          refine ⟨s', some p.addr, _, fun fuel enough => ?_,
            (focus'.setColor .black).whole, ⟨m, wholeBalanced⟩, ?_⟩
          · obtain ⟨rest, rfl⟩ : ∃ r, fuel = r + 1 + 1 := ⟨fuel - 2, by omega⟩
            rw [step]
            rw [← ptr_join d .red t sibling' p]
            exact eraseFixupLoop_red focus' (color_join ..)
          · exact (toList_plug_congr (toList_recolor ..)).trans items'
        | black =>
          have same : ctx' = outer := by
            rcases lower with impossible | same
            · cases impossible
            · exact same
          subst same
          simp only [length_cons] at short
          have told : ∀ f rest, ctx' = f :: rest →
              (if isLeftChild s' p.addr isLeft then Side.left else .right) = f.side := by
            rintro g tail rfl
            exact focus'.isLeftChild_side (ptr_join ..) isLeft
          obtain ⟨s'', x, whole, run, rest, balancedWhole, finalItems⟩ :=
            ih (by omega) focus' balanced accepts' told
          refine ⟨s'', x, whole, fun fuel enough => ?_, rest, balancedWhole,
            finalItems.trans items'⟩
          obtain ⟨more, rfl⟩ : ∃ r, fuel = r + 1 := ⟨fuel - 1, by omega⟩
          have go := run more (by omega)
          rw [ptr_join, ← parent] at go
          rw [step]
          exact go

/-- `rb_erase_fixup` after a black node was taken out: the defensive exits are not
taken and the tree is balanced. -/
lemma rbEraseFixup_spec (focus : Focus s ctx t) (gap : Gap .black ctx t)
    (side : ∀ f rest, ctx = f :: rest → (if isLeft then Side.left else .right) = f.side) :
    ∃ s' whole, Returns (rbEraseFixup s (ptr t) (parentOf ctx) isLeft) (false, s') ∧
      Focus s' [] whole ∧ (∃ m, whole.Balanced .black m) ∧
      whole.toList = (plug ctx t).toList := by
  obtain ⟨c, n, bal, accepts⟩ := gap
  cases c with
  | black =>
    obtain ⟨s', x, whole, run, focus', balanced, items⟩ :=
      eraseFixupLoop_spec ctx.length (Nat.le_refl _) focus bal accepts side
    refine ⟨rbSetBlack s' x, whole, ⟨ctx.length + 2, fun fuel enough => ?_⟩, focus', balanced,
      items⟩
    simp [rbEraseFixup, run fuel (by omega)]
  | red =>
    obtain ⟨m, balanced⟩ := accepts.balanced_plug bal.blacken_red
    refine ⟨rbSetBlack s (ptr t), plug ctx t.blacken, ⟨1, fun fuel enough => ?_⟩,
      focus.setBlack.whole, ⟨m, balanced⟩, toList_plug_congr (toList_blacken t)⟩
    obtain ⟨rest, rfl⟩ : ∃ r, fuel = r + 1 := ⟨fuel - 1, by omega⟩
    simp [rbEraseFixup, eraseFixupLoop_red focus bal.color_eq]

end AuroraOS.Rbtree
