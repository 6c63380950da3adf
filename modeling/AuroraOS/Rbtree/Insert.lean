import AuroraOS.Lib.Fuel
import AuroraOS.Rbtree.Heap

/-!
# Insertion

`rb_insert` puts a red node at a free place and `rb_insert_fixup` moves the one
possible violation, a red node below a red parent, up the path until it is gone.
-/

namespace AuroraOS.Rbtree

open Lib Lib.RedBlack RbTree

variable {s : RbHeap} {ctx : ItemCtx} {t : ItemTree} {d e : Side} {n : Nat}

/-! ## Moving and recolouring -/

lemma rbIsRed_ptr {parent : Option Nat} (rep : Rep s.node t parent) :
    rbIsRed s (ptr t) = true ↔ t.color = .red := by
  cases t with
  | nil => simp [rbIsRed, RbTree.color]
  | node c l x r => simp [ptr, rbIsRed, rep.1, RbTree.color]

lemma rbIsBlack_ptr {parent : Option Nat} (rep : Rep s.node t parent) :
    rbIsBlack s (ptr t) = true ↔ t.color = .black := by
  cases t with
  | nil => simp [rbIsBlack, RbTree.color]
  | node c l x r => simp [ptr, rbIsBlack, rep.1, RbTree.color]

lemma focus_plug {inner : ItemCtx} : Focus s ctx (plug inner t) ↔ Focus s (inner ++ ctx) t := by
  induction inner generalizing t with
  | nil => exact Iff.rfl
  | cons f inner ih => exact ih.trans focus_join

lemma Focus.whole (focus : Focus s ctx t) : Focus s [] (plug ctx t) :=
  focus_plug.mpr (by rwa [List.append_nil])

lemma Focus.narrow (focus : Focus s [] (plug ctx t)) : Focus s ctx t := by
  rw [← List.append_nil ctx]
  exact focus_plug.mp focus

lemma Focus.parent {a : Nat} (focus : Focus s ctx t) (root : ptr t = some a) :
    (s.node a).parent = parentOf ctx := by
  cases t with
  | nil => cases root
  | node c l x r =>
    cases root
    rw [focus.tree.1, cell_parent]

lemma Focus.child_iff {f : Frame Item} {a : Nat} (focus : Focus s (f :: ctx) t)
    (root : ptr t = some a) : some a = (s.node f.label.addr).child d ↔ f.side = d := by
  obtain ⟨side, color, label, sibling⟩ := f
  have here := focus.path.1
  rw [here, root]
  have different : some a ≠ ptr sibling := by
    intro same
    have apart := (List.nodup_append.mp focus.nodup).2.2
    refine apart a (ptr_mem_addrs root) a ?_ rfl
    simp [ctxAddrs, ptr_mem_addrs same.symm]
  cases side <;> cases d <;> simp [cell, RbNode.child, different]

lemma Focus.side {f : Frame Item} {a : Nat} (focus : Focus s (f :: ctx) t)
    (root : ptr t = some a) :
    (if some a = (s.node f.label.addr).left then Side.left else .right) = f.side := by
  have told : some a = (s.node f.label.addr).left ↔ f.side = .left :=
    focus.child_iff (d := .left) root
  cases side : f.side <;> simp [told, side]

lemma Focus.setBlack (focus : Focus s ctx t) : Focus (rbSetBlack s (ptr t)) ctx t.blacken := by
  cases t with
  | nil => exact focus
  | node c l x r =>
    have focus' : Focus s ctx (join .left c l x r) := focus
    exact focus'.setColor .black

lemma Focus.setBlack_near {c : Color} {near far : ItemTree} {x : Item}
    (focus : Focus s ctx (join d c near x far)) :
    Focus (rbSetBlack s (ptr near)) ctx (join d c near.blacken x far) :=
  focus_join.mpr (focus_join.mp focus).setBlack

lemma Focus.setBlack_far {c : Color} {near far : ItemTree} {x : Item}
    (focus : Focus s ctx (join d c near x far)) :
    Focus (rbSetBlack s (ptr far)) ctx (join d c near x far.blacken) := by
  rw [← join_opp] at focus ⊢
  exact focus.setBlack_near

/-! ## One turn of the fixup -/

section Turn

variable {p g : Item} {sp u : ItemTree} {cg : Color} {outer : ItemCtx}

/-- Case 1, a red uncle: the violation moves to the grandparent. -/
lemma insertFixupTurn_redUncle (focus : Focus s outer (join d cg (join e .red t p sp) g u))
    (red : u.color = .red) (node : Nat) :
    ∃ s', insertFixupTurn d s node p.addr g.addr = (g.addr, s') ∧
      Focus s' outer (join d .red (join e .black t p sp) g u.blacken) := by
  obtain ⟨root, -, repU⟩ := rep_join.mp focus.tree
  have uncle : (s.node g.addr).child d.opp = ptr u := by rw [root, cell_child_opp]
  have redUncle : rbIsRed s (ptr u) = true := (rbIsRed_ptr repU).mpr red
  have recolored := (focus.setBlack_near.setBlack_far).setColor .red
  rw [ptr_join, blacken_join] at recolored
  refine ⟨_, ?_, recolored⟩
  simp only [insertFixupTurn, uncle, redUncle]
  rfl

/-- Case 3: the outer grandchild is red; one rotation of the grandparent ends it. -/
lemma insertFixup_outer {a b : ItemTree} {cp : Color}
    (focus : Focus s outer (join d cg (join d cp a p b) g u)) :
    Focus (rotate d.opp (rbSetRed (rbSetBlack s (some p.addr)) (some g.addr)) g.addr) outer
      (join d .black a p (join d .red b g u)) := by
  have recolored := focus.setBlack_near.setColor .red
  rw [ptr_join, blacken_join] at recolored
  have mirrored : Focus (rbSetRed (rbSetBlack s (some p.addr)) (some g.addr)) outer
      (join d.opp .red u g (join d.opp .black b p a)) := by
    rw [join_opp, join_opp]
    exact recolored
  have rotated := mirrored.rotate
  rw [join_opp, join_opp] at rotated
  exact rotated

/-- Cases 2 and 3, a black uncle: after the turn the node in question is red below
a black parent. -/
lemma insertFixupTurn_blackUncle {tn tf : ItemTree} {x : Item} (focus : Focus s outer
      (join d cg (join e .red (join d .red tn x tf) p sp) g u))
    (black : u.color = .black) :
    ∃ node s' a q b, insertFixupTurn d s x.addr p.addr g.addr = (node, s') ∧
      ptr a = some node ∧ Focus s' outer (join d .black a q (join d .red b g u)) ∧
      ((e = d ∧ a = join d .red tn x tf ∧ q = p ∧ b = sp) ∨
        (e = d.opp ∧ a = join d .red sp p tn ∧ q = x ∧ b = tf)) := by
  obtain ⟨root, -, repU⟩ := rep_join.mp focus.tree
  have uncle : (s.node g.addr).child d.opp = ptr u := by rw [root, cell_child_opp]
  have notRed : ¬rbIsRed s (ptr u) = true := by simp [rbIsRed_ptr repU, black]
  have inParent := focus_join.mp focus
  have atParent := inParent.here
  have sides : e = d ∨ e = d.opp := by cases d <;> cases e <;> simp [Side.opp]
  rcases sides with rfl | rfl
  · -- `node` is the outer child already
    have outerChild : (s.node p.addr).child e.opp ≠ some x.addr := by
      intro same
      have side := ((focus_join.mp inParent).child_iff (ptr_join ..)).mp same.symm
      cases e <;> cases side
    refine ⟨x.addr, _, join e .red tn x tf, p, sp, ?_, ptr_join .., insertFixup_outer focus,
      .inl ⟨rfl, rfl, rfl, rfl⟩⟩
    simp only [insertFixupTurn, uncle, if_neg notRed, insertFixupRotate, if_neg outerChild]
  · -- `node` is the inner child: rotate it above its parent first
    have innerChild : (s.node p.addr).child d.opp = some x.addr := by
      rw [atParent, cell_child, ptr_join]
    have turned : Focus (rotate d s p.addr) (⟨d, cg, g, u⟩ :: outer)
        (join d .red (join d .red sp p tn) x tf) := by
      rw [join_opp] at inParent
      exact inParent.rotate
    have parent : ((rotate d s p.addr).node p.addr).parent = some x.addr := by
      rw [(focus_join.mp turned).here, cell_parent]
      rfl
    refine ⟨p.addr, _, join d .red sp p tn, x, tf, ?_, ptr_join ..,
      insertFixup_outer (focus_join.mpr turned), .inr ⟨rfl, rfl, rfl, rfl⟩⟩
    simp only [insertFixupTurn, uncle, if_neg notRed, insertFixupRotate, if_pos innerChild, parent]

end Turn

/-! ## The fixup loop -/

lemma insertFixupLoop_black {x : Item} {sibling : ItemTree} {a fuel : Nat}
    (focus : Focus s (⟨e, .black, x, sibling⟩ :: ctx) t) (root : ptr t = some a) :
    insertFixupLoop (fuel + 1) s a = some s := by
  have parent : (s.node a).parent = some x.addr := focus.parent root
  have black : (s.node x.addr).rbColor = .black := by rw [focus.path.1, cell_color]
  simp [insertFixupLoop, parent, black]

lemma insertFixupLoop_turn {p g : Item} {sp u : ItemTree} {cg : Color} {outer : ItemCtx} {a : Nat}
    (focus : Focus s (⟨e, .red, p, sp⟩ :: ⟨d, cg, g, u⟩ :: outer) t) (root : ptr t = some a)
    (fuel : Nat) : insertFixupLoop (fuel + 1) s a =
      insertFixupLoop fuel (insertFixupTurn d s a p.addr g.addr).2
        (insertFixupTurn d s a p.addr g.addr).1 := by
  have parent : (s.node a).parent = some p.addr := focus.parent root
  have atParent := focus.path.1
  have red : (s.node p.addr).rbColor = .red := by rw [atParent, cell_color]
  have grandparent : (s.node p.addr).parent = some g.addr := by
    rw [atParent, cell_parent]
    rfl
  have side : (if some p.addr = (s.node g.addr).left then Side.left else .right) = d :=
    (focus_join.mpr focus).side (ptr_join ..)
  rw [insertFixupLoop]
  simp only [parent, red, grandparent, side, if_true]

/-- The loop ends in a tree that is balanced up to a red root, with the same nodes
in the same order.  Induction on the length of the path: a red uncle moves the
violation two levels up. -/
lemma insertFixupLoop_spec (depth : Nat) {a : Nat} (short : ctx.length ≤ depth)
    (focus : Focus s ctx t) (root : ptr t = some a) (bal : t.Balanced .red n)
    (accepts : Accepts ctx .black n) :
    ∃ s' whole, (∀ fuel, depth < fuel → insertFixupLoop fuel s a = some s') ∧
      Focus s' [] whole ∧ (∃ m, whole.blacken.Balanced .black m) ∧
      whole.toList = (plug ctx t).toList := by
  induction depth using Nat.strongRecOn generalizing s ctx t n a with
  | ind depth ih =>
    have fuels : ∀ fuel, depth < fuel → ∃ rest, fuel = rest + 1 ∧ depth ≤ rest := fun fuel h =>
      ⟨fuel - 1, by omega, by omega⟩
    cases accepts with
    | top =>
      refine ⟨s, t, fun fuel enough => ?_, focus, ⟨n + 1, bal.blacken_red⟩, rfl⟩
      obtain ⟨rest, rfl, -⟩ := fuels fuel enough
      have parent : (s.node a).parent = none := focus.parent root
      simp [insertFixupLoop, parent]
    | black sibling outer =>
      obtain ⟨m, whole⟩ := (Accepts.black sibling outer).balanced_plug bal
      refine ⟨s, plug _ t, fun fuel enough => ?_, focus.whole, ⟨m, ?_⟩, rfl⟩
      · obtain ⟨rest, rfl, -⟩ := fuels fuel enough
        exact insertFixupLoop_black focus root
      · rwa [whole.blacken_black]
    | @red e p sp ctx' n balSp outer =>
      obtain ⟨d, g, u, cu, outer', rfl, balU, acceptsOuter⟩ := outer.red_cases
      have step := insertFixupLoop_turn focus root
      have upper := focus_join.mpr (focus_join.mpr focus)
      cases cu with
      | red =>
        obtain ⟨s₁, turn, focus₁⟩ := insertFixupTurn_redUncle upper balU.color_eq a
        have balParent : (join e .black t p sp).Balanced .black (n + 1) :=
          bal.joinBlack balSp
        have bal₁ : (join d .red (join e .black t p sp) g u.blacken).Balanced .red
            (n + 1) := balParent.joinRed balU.blacken_red
        simp only [List.length_cons] at short
        obtain ⟨s', whole, run, focus', balanced, same⟩ :=
          ih (depth - 2) (by omega) (by omega) focus₁ (ptr_join ..) bal₁ acceptsOuter
        refine ⟨s', whole, fun fuel enough => ?_, focus', balanced, same.trans ?_⟩
        · obtain ⟨rest, rfl, more⟩ := fuels fuel enough
          rw [step rest, turn]
          exact run rest (by omega)
        · refine toList_plug_congr ?_
          simp only [Frame.fill]
          cases d <;> cases e <;> simp [join]
      | black =>
        obtain ⟨tn, x, tf, rfl, balTn, balTf⟩ := bal.red_cases d
        have rootX : a = x.addr := by
          rw [ptr_join] at root
          exact (Option.some.inj root).symm
        subst rootX
        obtain ⟨node, s₁, left, q, right, turn, rootLeft, focus₁, cases⟩ :=
          insertFixupTurn_blackUncle upper balU.color_eq
        have parts : left.Balanced .red n ∧ right.Balanced .black n := by
          rcases cases with ⟨-, rfl, -, rfl⟩ | ⟨-, rfl, -, rfl⟩
          · exact ⟨bal, balSp⟩
          · exact ⟨balSp.joinRed balTn, balTf⟩
        have inner : (join d .red right g u).Balanced .red n := parts.2.joinRed balU
        obtain ⟨m, balanced⟩ := acceptsOuter.balanced_plug
          (parts.1.joinBlack inner)
        refine ⟨s₁, _, fun fuel enough => ?_, focus₁.whole, ⟨m, ?_⟩, ?_⟩
        · simp only [List.length_cons] at short
          obtain ⟨rest, rfl, more⟩ := fuels fuel enough
          obtain ⟨rest, rfl⟩ : ∃ r, rest = r + 1 := ⟨rest - 1, by omega⟩
          rw [step, turn]
          exact insertFixupLoop_black (focus_join.mp focus₁) rootLeft
        · rwa [balanced.blacken_black]
        · refine toList_plug_congr ?_
          rcases cases with ⟨rfl, rfl, rfl, rfl⟩ | ⟨rfl, rfl, rfl, rfl⟩
          · cases e <;> simp [Frame.fill, join]
          · cases d <;> simp [Frame.fill, join, Side.opp]

/-! ## The descent -/

def linkOf : ItemCtx → Link
  | [] => .root
  | f :: _ => .child f.label.addr f.side

lemma Focus.read_link (focus : Focus s ctx t) : (linkOf ctx).read s = ptr t := by
  cases ctx with
  | nil => exact focus.path
  | cons f ctx =>
    simp only [linkOf, Link.read]
    rw [focus.path.1, cell_child]

def Sorted (items : List Item) : Prop := items.Pairwise fun x y => x.key ≤ y.key

/-- The descent ends at a free place that keeps the order.  Induction on the subtree
in focus. -/
lemma insertDescend_spec (key : Nat) (focus : Focus s ctx t) (sorted : Sorted t.toList)
    (low : ∀ x ∈ before ctx, x.key ≤ key) (high : ∀ x ∈ after ctx, key < x.key) :
    ∃ ctx', Focus s ctx' .nil ∧ plug ctx' .nil = plug ctx t ∧
      (∀ x ∈ before ctx', x.key ≤ key) ∧ (∀ x ∈ after ctx', key < x.key) ∧
      ∀ fuel, t.toList.length < fuel → insertDescend s key fuel (parentOf ctx) (linkOf ctx) =
        some (parentOf ctx', linkOf ctx') := by
  induction t generalizing ctx with
  | nil =>
    refine ⟨ctx, focus, rfl, low, high, fun fuel enough => ?_⟩
    cases fuel with
    | zero => simp at enough
    | succ fuel => simp [insertDescend, focus.read_link]
  | node c l x r ihl ihr =>
    have keyX : (s.node x.addr).key = x.key := by rw [focus.tree.1, cell_key]
    have link : (linkOf ctx).read s = some x.addr := focus.read_link
    simp only [Sorted, toList_node, List.pairwise_append, List.pairwise_cons,
      List.mem_cons, forall_eq_or_imp] at sorted
    obtain ⟨sortedL, ⟨xr, sortedR⟩, lx⟩ := sorted
    by_cases less : key < x.key
    · have inLeft : Focus s (⟨.left, c, x, r⟩ :: ctx) l := focus_join.mp focus
      obtain ⟨ctx', focus', same, low', high', run⟩ := ihl inLeft sortedL low (by
        intro y mem
        simp only [after, List.cons_append, List.mem_cons, List.mem_append] at mem
        rcases mem with rfl | inR | outside
        · exact less
        · exact Nat.lt_of_lt_of_le less (xr y inR)
        · exact high y outside)
      refine ⟨ctx', focus', same, low', high', fun fuel enough => ?_⟩
      cases fuel with
      | zero => simp at enough
      | succ fuel =>
        rw [insertDescend, link]
        simp only [keyX, if_pos less]
        exact run fuel (by simp at enough; omega)
    · have inRight : Focus s (⟨.right, c, x, l⟩ :: ctx) r := by
        have mirrored : Focus s ctx (join .right c r x l) := focus
        exact focus_join.mp mirrored
      obtain ⟨ctx', focus', same, low', high', run⟩ := ihr inRight sortedR (by
        intro y mem
        simp only [before, List.mem_append, List.mem_singleton] at mem
        rcases mem with outside | inL | rfl
        · exact low y outside
        · exact Nat.le_trans (lx y inL).1 (Nat.le_of_not_lt less)
        · exact Nat.le_of_not_lt less) high
      refine ⟨ctx', focus', same, low', high', fun fuel enough => ?_⟩
      cases fuel with
      | zero => simp at enough
      | succ fuel =>
        rw [insertDescend, link]
        simp only [keyX, if_neg less]
        exact run fuel (by simp at enough; omega)

lemma Focus.attach {a : Nat} (focus : Focus s ctx .nil) (fresh : a ∉ ctxAddrs ctx) :
    Focus ((linkOf ctx).write (s.update a fun n =>
        { n with parent := parentOf ctx, left := none, right := none, rbColor := .red }) (some a))
      ctx (.node .red .nil ⟨a, (s.node a).key⟩ .nil) := by
  have nodup : (addrs (.node .red .nil ⟨a, (s.node a).key⟩ .nil) ++ ctxAddrs ctx).Nodup := by
    simpa [addrs] using ⟨fresh, focus.nodup⟩
  cases ctx with
  | nil => exact ⟨rfl, ⟨by simp [linkOf, Link.write, cell], trivial, trivial⟩, nodup⟩
  | cons f ctx =>
    obtain ⟨here, sibling, outer⟩ := focus.path
    have unique := focus.nodup
    simp only [addrs_nil, List.nil_append, ctxAddrs, List.nodup_cons, List.mem_append,
      not_or] at unique
    simp only [ctxAddrs, List.mem_cons, List.mem_append, not_or] at fresh
    refine ⟨⟨?_, ?_, ?_⟩, ⟨?_, trivial, trivial⟩, nodup⟩
    · exact setChild_cell _ ((RbHeap.update_of_ne (Ne.symm fresh.1)).trans here)
    · exact (sibling.update_of_notMem fresh.2.1).update_of_notMem unique.1.1
    · simp only [Link.write]
      exact (outer.update_of_notMem fresh.2.2).update_of_notMem unique.1.2
    · simp only [linkOf, Link.write, RbHeap.setChild]
      rw [RbHeap.update_of_ne fresh.1, RbHeap.update_self]
      rfl

lemma plug_addrs_perm (ctx : ItemCtx) (t : ItemTree) :
    (addrs (plug ctx t)).Perm (addrs t ++ ctxAddrs ctx) := by
  induction ctx generalizing t with
  | nil => simp [ctxAddrs]
  | cons f ctx ih =>
    refine (ih _).trans (((addrs_join_perm ..).append_right _).trans ?_)
    rw [ctxAddrs, List.cons_append, List.append_assoc]
    exact List.perm_middle.symm

/-- A red-black tree in the heap: balanced, with a black root, linked in both
directions and in key order. -/
structure IsRbTree (s : RbHeap) (t : ItemTree) : Prop where
  linked : Focus s [] t
  balanced : ∃ height, t.Balanced .black height
  sorted : Sorted t.toList

/-- `rb_insert` of a node outside the tree returns a red-black tree with that node
placed behind the last one whose key is at most its own. -/
lemma rbInsert_spec {a : Nat} (tree : IsRbTree s t) (fresh : a ∉ addrs t) :
    ∃ s' t' front back, Returns (rbInsert s a) s' ∧ IsRbTree s' t' ∧ t.toList = front ++ back ∧
      t'.toList = front ++ ⟨a, (s.node a).key⟩ :: back ∧
      (∀ x ∈ front, x.key ≤ (s.node a).key) ∧ ∀ x ∈ back, (s.node a).key < x.key := by
  obtain ⟨linked, ⟨height, bal⟩, sorted⟩ := tree
  obtain ⟨ctx, place, same, low, high, descend⟩ :=
    insertDescend_spec (s.node a).key linked sorted (by simp [before]) (by simp [after])
  rw [plug_nil] at same
  obtain ⟨c, n, balNil, accepts⟩ := split_balanced (same.symm ▸ bal)
  cases balNil
  have outside : a ∉ ctxAddrs ctx := by
    have perm := plug_addrs_perm ctx .nil
    rw [same] at perm
    intro mem
    exact fresh (perm.mem_iff.mpr (by simp [mem]))
  have attached := place.attach outside
  obtain ⟨s', whole, run, focus', ⟨m, balanced⟩, items⟩ :=
    insertFixupLoop_spec ctx.length (Nat.le_refl _) attached rfl (.red .nil .nil) accepts
  have list : whole.toList = before ctx ++ ⟨a, (s.node a).key⟩ :: after ctx := by
    rw [items, toList_plug]
    simp
  have old : t.toList = before ctx ++ after ctx := by
    rw [← same, toList_plug]
    simp
  refine ⟨rbSetBlack s' s'.root, whole.blacken, before ctx, after ctx, ?_, ⟨?_, ⟨m, balanced⟩, ?_⟩,
    old, ?_, low, high⟩
  · refine ⟨t.toList.length + ctx.length + 1, fun fuel enough => ?_⟩
    simp only [rbInsert]
    rw [show insertDescend s (s.node a).key fuel none .root = _ from descend fuel (by omega)]
    simp [rbInsertFixup, run fuel (by omega)]
  · have root : s'.root = ptr whole := focus'.path
    rw [root]
    exact focus'.setBlack
  · rw [toList_blacken, list, Sorted, List.pairwise_append, List.pairwise_cons]
    rw [old, Sorted, List.pairwise_append] at sorted
    refine ⟨sorted.1, ⟨fun x behind => Nat.le_of_lt (high x behind), sorted.2.1⟩,
      fun x mem y inside => ?_⟩
    rcases List.mem_cons.mp inside with rfl | inside
    · exact low x mem
    · exact sorted.2.2 x mem y inside
  · rw [toList_blacken, list]

end AuroraOS.Rbtree
