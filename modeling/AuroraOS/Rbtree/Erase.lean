import AuroraOS.Rbtree.EraseFixup

/-!
# Deletion and runs

`rb_erase` takes a node with at most one child out directly; otherwise the node's successor leaves
its own place and takes over the node's place and colour.
-/

namespace AuroraOS.Rbtree

open Lib Lib.RedBlack RbTree List Option Relation

variable {s : RbHeap} {ctx : ItemCtx} {t : ItemTree} {d : Side} {n : Nat}

/-! ## Taking a node out -/

variable {v hole : Option Nat}

lemma setParentOf_notMem {p : Option Nat} (path : CtxRep s ctx hole)
    (foreign : ∀ a ∈ ctxAddrs ctx, v ≠ some a) : CtxRep (s.setParentOf v p) ctx hole :=
  path.congr (RbHeap.setParentOf_root s v p) fun a mem =>
    RbHeap.setParentOf_of_ne (foreign a mem)

variable {c cz cy : Color} {z y : Item}

lemma Focus.transplant (focus : Focus s ctx (join d c t z .nil)) :
    Focus (rbTransplant s z.addr (ptr t)) ctx t := by
  obtain ⟨notT, -, notPath⟩ := focus.fresh
  have inner := (focus_join.mp focus).nodup
  obtain ⟨nodupT, nodupC, apart⟩ := nodup_append.mp inner
  simp only [ctxAddrs, nodup_cons] at nodupC
  have away : ∀ a ∈ addrs t, a ∉ ctxAddrs ctx := fun a mem out =>
    apart a mem a (by simp [ctxAddrs, out]) rfl
  have up : (s.node z.addr).parent = parentOf ctx := by rw [focus.here, cell_parent]
  have path := focus.path
  rw [ptr_join] at path
  have path₁ : CtxRep (replaceChild s z.addr (ptr t)) ctx (ptr t) :=
    path.replaceChild up notPath nodupC.2
  have parent : ((replaceChild s z.addr (ptr t)).node z.addr).parent = parentOf ctx := by
    rw [replaceChild_of_notMem up notPath, up]
  have rep : Rep (replaceChild s z.addr (ptr t)).node t (some z.addr) :=
    (rep_join.mp focus.tree).2.1.congr fun a mem =>
      replaceChild_of_notMem up (away a mem)
  rw [rbTransplant, parent]
  refine ⟨setParentOf_notMem path₁ ?_, rep.setParentOf nodupT, ?_⟩
  · exact fun a mem same => away a (ptr_mem_addrs same) mem
  · refine nodup_append.mpr ⟨nodupT, nodupC.2, fun a mem b out => ?_⟩
    rintro rfl
    exact away a mem out

/-- The heap when the successor `y` has left its place below `z`: `y` carries the
right subtree `zr`, and `z` still has its place, its colour and its left subtree. -/
structure Detached (s : RbHeap) (ctx : ItemCtx) (z y : Item) (c : Color) (zl zr : ItemTree) :
    Prop where
  path : CtxRep s ctx (some z.addr)
  parent : (s.node z.addr).parent = parentOf ctx
  color : (s.node z.addr).rbColor = c
  left : (s.node z.addr).left = ptr zl
  repLeft : Rep s.node zl (some z.addr)
  right : (s.node y.addr).right = ptr zr
  key : (s.node y.addr).key = y.key
  repRight : Rep s.node zr (some y.addr)
  nodup : (y.addr :: (addrs zl ++ (addrs zr ++ z.addr :: ctxAddrs ctx))).Nodup

variable {zl yr : ItemTree}

variable {zr l r : ItemTree}

/-- The end of `rb_erase` for a node with two children: `y` takes the place of `z`. -/
lemma Detached.replace (det : Detached s ctx z y c zl zr) :
    let s₁ := rbTransplant s z.addr (some y.addr)
    let s₂ := s₁.setChild y.addr .left (s₁.node z.addr).left
    let s₃ := s₂.setParentOf (s₂.node y.addr).left (some y.addr)
    Focus (s₃.setColor y.addr (s₃.node z.addr).rbColor) ctx (.node c zl y zr) := by
  intro s₁ s₂ s₃
  have apart := det.nodup
  simp only [nodup_cons, nodup_append, mem_cons, mem_append, not_or] at apart
  obtain ⟨⟨yl, yr, yz, yp⟩, nodupL, ⟨nodupR, ⟨zp, nodupP⟩, rAway⟩, lAway⟩ := apart
  have zl' : z.addr ∉ addrs zl := fun h => lAway _ h _ (.inr (.inl rfl)) rfl
  have lp : ∀ a ∈ addrs zl, a ∉ ctxAddrs ctx := fun a h out =>
    lAway a h a (.inr (.inr out)) rfl
  have rp : ∀ a ∈ addrs zr, a ∉ ctxAddrs ctx := fun a h out => rAway a h a (.inr out) rfl
  have lNe : ∀ q, q ∉ addrs zl → ptr zl ≠ some q := fun q out same => out (ptr_mem_addrs same)
  let s₀ := replaceChild s z.addr (some y.addr)
  have kept₀ : ∀ a, a ∉ ctxAddrs ctx → s₀.node a = s.node a := fun a out =>
    replaceChild_of_notMem det.parent out
  have path₀ : CtxRep s₀ ctx (some y.addr) := det.path.replaceChild det.parent zp nodupP
  have s₁Eq : s₁ = s₀.setParent y.addr (parentOf ctx) := by
    have parent : (s₀.node z.addr).parent = parentOf ctx := by rw [kept₀ _ zp, det.parent]
    simp only [s₁, rbTransplant, RbHeap.setParentOf]
    rw [parent]
  have kept₁ : ∀ a, a ∉ ctxAddrs ctx → a ≠ y.addr → s₁.node a = s.node a := by
    intro a out ne
    rw [s₁Eq]
    exact (RbHeap.update_of_ne ne).trans (kept₀ a out)
  have leftZ : (s₁.node z.addr).left = ptr zl := by rw [kept₁ _ zp (Ne.symm yz), det.left]
  have kept₂ : ∀ a, a ∉ ctxAddrs ctx → a ≠ y.addr → s₂.node a = s.node a := fun a out ne =>
    (RbHeap.update_of_ne ne).trans (kept₁ a out ne)
  have y₁ : s₁.node y.addr = { s.node y.addr with parent := parentOf ctx } := by
    rw [s₁Eq, RbHeap.setParent, RbHeap.update_self, kept₀ _ yp]
  have y₂ : s₂.node y.addr =
      cell .left (s.node y.addr).rbColor (parentOf ctx) (ptr zl) (ptr zr) y.key := by
    simp only [s₂, RbHeap.setChild, RbHeap.update_self]
    rw [leftZ, y₁]
    simp [RbNode.setChild, cell, det.right, det.key]
  have s₃Eq : s₃ = s₂.setParentOf (ptr zl) (some y.addr) := by
    simp only [s₃, y₂]
    rfl
  have kept₃ : ∀ a, a ∉ ctxAddrs ctx → a ≠ y.addr → a ∉ addrs zl → s₃.node a = s.node a := by
    intro a out ne notL
    rw [s₃Eq]
    exact (RbHeap.setParentOf_of_ne (lNe a notL)).trans (kept₂ a out ne)
  have y₃ : s₃.node y.addr =
      cell .left (s.node y.addr).rbColor (parentOf ctx) (ptr zl) (ptr zr) y.key := by
    rw [s₃Eq]
    exact (RbHeap.setParentOf_of_ne (lNe _ yl)).trans y₂
  have color : (s₃.node z.addr).rbColor = c := by
    rw [kept₃ _ zp (Ne.symm yz) zl', det.color]
  have repL : Rep s₃.node zl (some y.addr) := by
    rw [s₃Eq]
    refine Rep.setParentOf (det.repLeft.congr fun a mem => ?_) nodupL
    exact kept₂ a (lp a mem) fun same => yl (same ▸ mem)
  have repR : Rep s₃.node zr (some y.addr) := by
    refine det.repRight.congr fun a mem => ?_
    refine kept₃ a (rp a mem) (fun same => yr (same ▸ mem)) fun inL => ?_
    exact lAway a inL a (.inl mem) rfl
  have path₃ : CtxRep s₃ ctx (some y.addr) := by
    rw [s₃Eq]
    refine setParentOf_notMem ?_ fun a mem same => lp a (ptr_mem_addrs same) mem
    refine CtxRep.update_of_notMem ?_ yp
    rw [s₁Eq]
    exact path₀.update_of_notMem yp
  rw [color]
  refine ⟨path₃.update_of_notMem yp, ⟨setColor_cell c y₃, repL.update_of_notMem yl,
    repR.update_of_notMem yr⟩, ?_⟩
  have perm : (addrs (.node c zl y zr) ++ ctxAddrs ctx).Perm
      (y.addr :: (addrs zl ++ (addrs zr ++ ctxAddrs ctx))) := by
    refine ((addrs_join_perm .left c zl zr y).append_right _).trans ?_
    rw [cons_append, append_assoc]
  refine perm.nodup_iff.mpr (det.nodup.sublist ?_)
  exact (((sublist_cons_self _ _).append_left _).append_left _).cons_cons _

/-! ## The successor -/

/-- The walk to the leftmost node of a subtree goes along left children only. -/
lemma leftmost_spec {x : Item} (focus : Focus s ctx (.node c l x r)) :
    ∃ spine cy y yr, RbTree.node c l x r = plug spine (.node cy .nil y yr) ∧
      (∀ f ∈ spine, f.side = .left) ∧
      ∀ fuel, l.toList.length < fuel → leftmost s fuel x.addr = some y.addr := by
  have left : (s.node x.addr).left = ptr l := by rw [focus.tree.1]; rfl
  induction l generalizing ctx c x r with
  | nil =>
    refine ⟨[], c, x, r, rfl, by simp, fun fuel enough => ?_⟩
    cases fuel with
    | zero => simp at enough
    | succ fuel => simp [leftmost, left]
  | node c' l' x' r' ih _ =>
    have inner : Focus s (⟨.left, c, x, r⟩ :: ctx) (.node c' l' x' r') := focus_join.mp focus
    have left' : (s.node x'.addr).left = ptr l' := by rw [inner.tree.1]; rfl
    obtain ⟨spine, cy, y, yr, same, sides, run⟩ := ih inner left'
    refine ⟨spine ++ [⟨.left, c, x, r⟩], cy, y, yr, ?_, ?_, fun fuel enough => ?_⟩
    · rw [plug_append, ← same]
      rfl
    · intro f mem
      rcases mem_append.mp mem with inside | last
      · exact sides f inside
      · rw [mem_singleton.mp last]
    · cases fuel with
      | zero => simp at enough
      | succ fuel =>
        simp only [leftmost, left]
        exact run fuel (by simp at enough; omega)

variable {a m : Nat}

lemma rbTransplant_of_notMem {u : Nat}
    (up : (s.node u).parent = parentOf ctx) (foreign : a ∉ ctxAddrs ctx) (ne : v ≠ some a) :
    (rbTransplant s u v).node a = s.node a :=
  (RbHeap.setParentOf_of_ne ne).trans (replaceChild_of_notMem up foreign)

lemma ctxAddrs_append (inner outer : ItemCtx) :
    ctxAddrs (inner ++ outer) = ctxAddrs inner ++ ctxAddrs outer := by
  induction inner with
  | nil => rfl
  | cons f inner ih => simp [ctxAddrs, ih]

variable {spine : ItemCtx}

/-- The addresses around a successor `y` at the end of a path below `z`. -/
lemma nodup_successor
    (focus : Focus s (spine ++ ⟨.right, cz, z, zl⟩ :: ctx) (.node cy .nil y yr)) :
    (y.addr :: (addrs zl ++ (addrs (plug spine yr) ++ z.addr :: ctxAddrs ctx))).Nodup := by
  refine Perm.nodup_iff ?_ |>.mp focus.nodup
  have list : addrs (.node cy .nil y yr) = y.addr :: addrs yr := by simp [addrs]
  rw [ctxAddrs_append, list, cons_append, ← append_assoc]
  refine Perm.cons _ ?_
  refine (((plug_addrs_perm spine yr).symm).append_right _).trans ?_
  refine perm_middle.trans ?_
  refine Perm.trans ?_ (perm_append_comm_assoc _ _ _)
  refine Perm.trans ?_ (Perm.append_left _ perm_middle.symm)
  exact perm_middle.symm

/-- Once `y` carries the subtree `zr`, and that subtree has `y` as its parent, `y` is
ready to replace `z`. -/
lemma detached_of_path {q : Option Nat} (path : CtxRep s (⟨.right, cz, z, zl⟩ :: ctx) hole)
    (right : (s.node y.addr).right = ptr zr) (key : (s.node y.addr).key = y.key)
    (repRight : Rep s.node zr q)
    (nodup : (y.addr :: (addrs zl ++ (addrs zr ++ z.addr :: ctxAddrs ctx))).Nodup) :
    Detached (s.setParentOf (ptr zr) (some y.addr)) ctx z y cz zl zr := by
  have apart := nodup
  simp only [nodup_cons, nodup_append, mem_cons, mem_append, not_or] at apart
  obtain ⟨⟨-, yr, -, -⟩, -, ⟨nodupR, -, rAway⟩, lAway⟩ := apart
  have kept : ∀ a, a ∉ addrs zr → (s.setParentOf (ptr zr) (some y.addr)).node a = s.node a :=
    fun a out => RbHeap.setParentOf_of_ne fun same => out (ptr_mem_addrs same)
  have zKept := kept z.addr fun inside => rAway _ inside _ (.inl rfl) rfl
  obtain ⟨rootZ, repL, outer⟩ := path
  refine ⟨?_, ?_, ?_, ?_, ?_, ?_, ?_, repRight.setParentOf nodupR, nodup⟩
  · exact setParentOf_notMem outer fun a mem same =>
      rAway a (ptr_mem_addrs same) a (.inr mem) rfl
  · rw [zKept, rootZ, cell_parent]
  · rw [zKept, rootZ, cell_color]
  · rw [zKept, rootZ]
    rfl
  · exact repL.congr fun a mem => kept a fun inside => lAway a mem a (.inl inside) rfl
  · rw [kept _ yr, right]
  · rw [kept _ yr, key]

lemma detachSuccessor_child (focus : Focus s (⟨.right, cz, z, zl⟩ :: ctx) (.node cy .nil y yr)) :
    ∃ s', detachSuccessor s z.addr y.addr = some (s', some y.addr, false) ∧
      Detached s' ctx z y cz zl yr := by
  have here : s.node y.addr = cell .left cy (some z.addr) none (ptr yr) y.key := focus.tree.1
  have parent : (s.node y.addr).parent = some z.addr := by rw [here, cell_parent]
  have right : (s.node y.addr).right = ptr yr := by rw [here]; rfl
  refine ⟨s.setParentOf (ptr yr) (some y.addr), ?_, ?_⟩
  · simp [detachSuccessor, parent, right]
  · refine detached_of_path focus.path right (by rw [here, cell_key]) focus.tree.2.2 ?_
    have whole : Focus s ([] ++ ⟨.right, cz, z, zl⟩ :: ctx) (.node cy .nil y yr) := focus
    exact nodup_successor whole

/-- The successor is further down, at the end of a path of left children. -/
lemma detachSuccessor_below {f : Frame Item} (left : f.side = .left)
    (focus : Focus s (f :: spine ++ ⟨.right, cz, z, zl⟩ :: ctx) (.node cy .nil y yr)) :
    ∃ s', detachSuccessor s z.addr y.addr = some (s', some f.label.addr, true) ∧
      Detached s' ctx z y cz zl (plug (f :: spine) yr) := by
  have nodup := nodup_successor focus
  have here : s.node y.addr = cell .left cy (some f.label.addr) none (ptr yr) y.key :=
    focus.tree.1
  have parent : (s.node y.addr).parent = some f.label.addr := by rw [here, cell_parent]
  have right : (s.node y.addr).right = ptr yr := by rw [here]; rfl
  have isLeft : some y.addr = (s.node f.label.addr).left :=
    (focus.child_iff (d := .left) rfl).mpr left
  have notZ : f.label.addr ≠ z.addr := by
    intro same
    have unique := (nodup_append.mp focus.nodup).2.1
    rw [cons_append, ctxAddrs, ctxAddrs_append, nodup_cons] at unique
    exact unique.1 (by simp [same, ctxAddrs])
  -- `y` leaves its place
  have freshY : y.addr ∉ ctxAddrs (f :: spine ++ ⟨.right, cz, z, zl⟩ :: ctx) := fun mem =>
    (nodup_append.mp focus.nodup).2.2 y.addr (ptr_mem_addrs rfl) y.addr mem rfl
  have moved : Focus (rbTransplant s y.addr (ptr yr)) (f :: spine ++ ⟨.right, cz, z, zl⟩ :: ctx)
      yr := Focus.transplant (d := .right) focus
  have atZ : Focus (rbTransplant s y.addr (ptr yr)) (⟨.right, cz, z, zl⟩ :: ctx)
      (plug (f :: spine) yr) := focus_plug.mpr moved
  have keptY : (rbTransplant s y.addr (ptr yr)).node y.addr = s.node y.addr := by
    have up : (s.node y.addr).parent = parentOf (f :: spine ++ ⟨.right, cz, z, zl⟩ :: ctx) := parent
    refine rbTransplant_of_notMem up freshY fun same => ?_
    have below := (nodup_append.mp focus.nodup).1
    simp only [addrs, toList_node, toList_nil, nil_append, map_cons,
      nodup_cons] at below
    exact below.1 (ptr_mem_addrs same)
  generalize out : rbTransplant s y.addr (ptr yr) = s₁ at moved atZ keptY
  have rightZ : (s₁.node z.addr).right = ptr (plug (f :: spine) yr) := by
    rw [atZ.path.1]
    rfl
  -- and takes the right subtree of `z`
  have apart := nodup
  simp only [nodup_cons, mem_append, mem_cons, not_or] at apart
  obtain ⟨⟨yl, yr', yz, yp⟩, -⟩ := apart
  have rightY : ((s₁.setChild y.addr .right (ptr (plug (f :: spine) yr))).node y.addr).right =
      ptr (plug (f :: spine) yr) := by
    simp [RbHeap.setChild, RbNode.setChild]
  have keyY : ((s₁.setChild y.addr .right (ptr (plug (f :: spine) yr))).node y.addr).key =
      y.key := by
    simp only [RbHeap.setChild, RbHeap.update_self, RbNode.setChild, keptY, here, cell_key]
  have path : CtxRep (s₁.setChild y.addr .right (ptr (plug (f :: spine) yr)))
      (⟨.right, cz, z, zl⟩ :: ctx) (ptr (plug (f :: spine) yr)) := by
    refine atZ.path.update_of_notMem ?_
    simp only [ctxAddrs, mem_cons, mem_append, not_or]
    exact ⟨yz, yl, yp⟩
  refine ⟨_, ?_, detached_of_path path rightY keyY (atZ.tree.update_of_notMem yr') nodup⟩
  have different : ¬(s.node y.addr).parent = some z.addr := by
    rw [parent]
    exact fun same => notZ (some.inj same)
  rw [detachSuccessor]
  simp only [if_neg different]
  simp only [parent, right, out, rightZ, rightY, ← isLeft, decide_true]

/-! ## Unlinking -/

/-- What holds once the node `z` is out of the tree, at the place `ctx` where the
fixup starts. -/
structure UnlinkedAt (u : Unlinked) (ctx : ItemCtx) (t whole : ItemTree) (z : Item) : Prop where
  focus : Focus u.heap ctx t
  x : u.x = ptr t
  xParent : u.xParent = parentOf ctx
  side : ∀ f rest, ctx = f :: rest → (if u.xIsLeft then Side.left else .right) = f.side
  gap : Gap u.yOriginalColor ctx t
  items : whole.toList.Perm (z :: (plug ctx t).toList)
  order : (plug ctx t).toList.Sublist whole.toList

lemma unlinkSingle_spec (focus : Focus s ctx (join d c t z .nil))
    (bal : (plug ctx (join d c t z .nil)).Balanced .black m) :
    UnlinkedAt (unlinkSingle s z.addr (ptr t)) ctx t (plug ctx (join d c t z .nil)) z where
  focus := focus.transplant
  x := rfl
  xParent := focus.parent (ptr_join ..)
  side := by
    rintro f rest rfl
    exact focus.isLeftChild_side (ptr_join ..) false
  gap := by
    have color : (s.node z.addr).rbColor = c := by rw [focus.here, cell_color]
    simp only [unlinkSingle, color]
    exact gap_of_balanced bal
  items := by
    rw [toList_plug, toList_plug]
    cases d
    · have moved := @List.perm_middle _ z (before ctx ++ t.toList) (after ctx)
      simpa [RbTree.join] using moved
    · simp only [append_assoc]
      exact perm_middle
  order := by
    rw [toList_plug, toList_plug]
    cases d <;> simp [RbTree.join]

lemma unlinkSuccessor_spec (sides : ∀ f ∈ spine, f.side = .left)
    (focus : Focus s ctx (.node cz zl z (plug spine (.node cy .nil y yr))))
    (bal : (plug ctx (.node cz zl z (plug spine (.node cy .nil y yr)))).Balanced .black m) :
    ∃ u, unlinkSuccessor s z.addr y.addr = some u ∧
      UnlinkedAt u (spine ++ ⟨.right, cz, y, zl⟩ :: ctx) yr
        (plug ctx (.node cz zl z (plug spine (.node cy .nil y yr)))) z := by
  have atY : Focus s (spine ++ ⟨.right, cz, z, zl⟩ :: ctx) (.node cy .nil y yr) := by
    have mirrored : Focus s ctx (join .right cz (plug spine (.node cy .nil y yr)) z zl) :=
      focus
    exact focus_plug.mp (focus_join.mp mirrored)
  have color : (s.node y.addr).rbColor = cy := by rw [atY.tree.1, cell_color]
  have right : (s.node y.addr).right = ptr yr := by rw [atY.tree.1]; rfl
  have gap : Gap cy (spine ++ ⟨.right, cz, y, zl⟩ :: ctx) yr := by
    have whole : (plug (spine ++ ⟨.right, cz, z, zl⟩ :: ctx)
        (join .right cy yr y .nil)).Balanced .black m := by
      rw [plug_append]
      exact bal
    exact (gap_of_balanced whole).relabel y
  obtain ⟨s', isLeft, detach, det, side⟩ : ∃ s' isLeft,
      detachSuccessor s z.addr y.addr =
        some (s', parentOf (spine ++ ⟨.right, cz, y, zl⟩ :: ctx), isLeft) ∧
      Detached s' ctx z y cz zl (plug spine yr) ∧
      ∀ f rest, spine ++ ⟨.right, cz, y, zl⟩ :: ctx = f :: rest →
        (if isLeft then Side.left else .right) = f.side := by
    cases spine with
    | nil =>
      obtain ⟨s', detach, det⟩ := detachSuccessor_child atY
      refine ⟨s', false, detach, det, fun f rest same => ?_⟩
      cases same
      rfl
    | cons g spine =>
      have left := sides g (mem_cons_self ..)
      obtain ⟨s', detach, det⟩ := detachSuccessor_below left atY
      refine ⟨s', true, detach, det, fun f rest same => ?_⟩
      cases same
      exact left.symm
  have noBefore : before spine = [] := before_of_left sides
  refine ⟨_, by simp only [unlinkSuccessor, detach]; rfl,
    ?_, right, rfl, side, ?_, ?_, ?_⟩
  · have replaced : Focus _ ctx (join .right cz (plug spine yr) y zl) := det.replace
    exact focus_plug.mp (focus_join.mp replaced)
  · simp only [color]
    exact gap
  · rw [plug_append, plug_cons, toList_plug, toList_plug]
    simp only [Frame.fill, RbTree.join, toList_node, toList_plug, noBefore, append_assoc]
    rw [← append_assoc, ← append_assoc (before ctx)]
    exact perm_middle
  · rw [plug_append, plug_cons, toList_plug, toList_plug]
    refine Sublist.append_right (Sublist.append_left ?_ _) _
    simp only [Frame.fill, RbTree.join, toList_node, toList_plug, noBefore]
    exact Sublist.append_left (sublist_cons_self _ _) _

lemma rbUnlink_spec (focus : Focus s ctx (.node c l z r))
    (bal : (plug ctx (.node c l z r)).Balanced .black m) :
    ∃ u ctx' t', Returns (rbUnlink s z.addr) u ∧
      UnlinkedAt u ctx' t' (plug ctx (.node c l z r)) z := by
  have left : (s.node z.addr).left = ptr l := by rw [focus.tree.1]; rfl
  have right : (s.node z.addr).right = ptr r := by rw [focus.tree.1]; rfl
  cases l with
  | nil =>
    have single : Focus s ctx (join .right c r z .nil) := focus
    refine ⟨_, ctx, r, ⟨0, fun fuel _ => ?_⟩, unlinkSingle_spec single bal⟩
    simp [rbUnlink, left, right]
  | node cl ll x lr =>
    cases r with
    | nil =>
      have single : Focus s ctx (join .left c (.node cl ll x lr) z .nil) := focus
      refine ⟨_, ctx, _, ⟨0, fun fuel _ => ?_⟩, unlinkSingle_spec single bal⟩
      simp [rbUnlink, left, right, ptr]
    | node cr rl w rr =>
      have inRight : Focus s (⟨.right, c, z, .node cl ll x lr⟩ :: ctx) (.node cr rl w rr) := by
        have mirrored : Focus s ctx
          (join .right c (.node cr rl w rr) z (.node cl ll x lr)) := focus
        exact focus_join.mp mirrored
      obtain ⟨spine, cy, y, yr, same, sides, walk⟩ := leftmost_spec inRight
      rw [same] at focus bal ⊢
      obtain ⟨u, unlink, done⟩ := unlinkSuccessor_spec sides focus bal
      refine ⟨u, _, yr, ⟨rl.toList.length + 1, fun fuel enough => ?_⟩, done⟩
      simp [rbUnlink, left, right, ptr, walk fuel (by omega), unlink]

/-- `rb_erase` of a node of the tree returns a red-black tree without that node, and
takes no defensive exit. -/
lemma rbErase_spec (tree : IsRbTree s t) (mem : a ∈ addrs t) :
    ∃ s' t' z, Returns (rbErase s a) (false, s') ∧ IsRbTree s' t' ∧ z.addr = a ∧
      t.toList.Perm (z :: t'.toList) ∧ t'.toList.Sublist t.toList := by
  obtain ⟨linked, ⟨m, bal⟩, sorted⟩ := tree
  obtain ⟨z, inTree, rfl⟩ := mem_map.mp mem
  obtain ⟨ctx, c, l, r, rfl⟩ := exists_plug_of_mem inTree
  obtain ⟨u, ctx', t', unlink, done⟩ := rbUnlink_spec linked.narrow bal
  have keepsOrder : Sorted (plug ctx' t').toList := Pairwise.sublist done.order sorted
  have start : ∀ fuel, rbErase s z.addr fuel = (rbUnlink s z.addr fuel).bind fun u =>
      if u.yOriginalColor = .black then rbEraseFixup u.heap u.x u.xParent u.xIsLeft fuel
      else some (false, u.heap) := fun _ => rfl
  cases color : u.yOriginalColor with
  | red =>
    have gap := done.gap
    rw [color] at gap
    obtain ⟨n, balT, accepts⟩ := gap
    obtain ⟨m', balanced⟩ := accepts.balanced_plug balT
    refine ⟨u.heap, plug ctx' t', z, ?_, ⟨done.focus.whole, ⟨m', balanced⟩, keepsOrder⟩, rfl,
      done.items, done.order⟩
    refine Returns.congr (unlink.bind ⟨0, fun fuel _ => ?_⟩) start
    simp [color]
  | black =>
    have gap := done.gap
    rw [color] at gap
    obtain ⟨s', whole, fix, focus', balanced, items⟩ :=
      rbEraseFixup_spec done.focus gap done.side
    rw [← done.x, ← done.xParent] at fix
    refine ⟨s', whole, z, ?_, ⟨focus', balanced, by rwa [items]⟩, rfl, ?_⟩
    · refine Returns.congr (unlink.bind ?_) start
      simpa [color] using fix
    · rw [items]
      exact ⟨done.items, done.order⟩

/-! ## Runs -/

/-- One event: a call, or any writes to nodes outside the tree between calls, such as
the key of a node that is about to be inserted.  The list holds the nodes in the tree. -/
inductive Step : RbHeap × List Nat → RbHeap × List Nat → Prop
  | insert {s s' : RbHeap} {nodes : List Nat} {a : Nat} (fresh : a ∉ nodes)
      (run : Returns (rbInsert s a) s') : Step (s, nodes) (s', a :: nodes)
  | erase {s s' : RbHeap} {nodes : List Nat} {a : Nat} {malformed : Bool} (member : a ∈ nodes)
      (run : Returns (rbErase s a) (malformed, s')) : Step (s, nodes) (s', nodes.erase a)
  | outside {s s' : RbHeap} {nodes : List Nat} (root : s'.root = s.root)
      (same : ∀ a ∈ nodes, s'.node a = s.node a) : Step (s, nodes) (s', nodes)

def HoldsTree (s : RbHeap) (nodes : List Nat) : Prop :=
  ∃ t, IsRbTree s t ∧ (addrs t).Perm nodes

variable {nodes : List Nat}

lemma HoldsTree.insert (holds : HoldsTree s nodes)
    (fresh : a ∉ nodes) : ∃ s', Returns (rbInsert s a) s' ∧ HoldsTree s' (a :: nodes) := by
  obtain ⟨t, tree, same⟩ := holds
  obtain ⟨s', t', front, back, run, tree', old, new, -⟩ :=
    rbInsert_spec tree fun h => fresh (same.mem_iff.mp h)
  refine ⟨s', run, t', tree', .trans ?_ (same.cons a)⟩
  rw [addrs, addrs, old, new]
  exact perm_middle.map _

lemma HoldsTree.erase (holds : HoldsTree s nodes) (mem : a ∈ nodes) :
    ∃ s', Returns (rbErase s a) (false, s') ∧ HoldsTree s' (nodes.erase a) := by
  obtain ⟨t, tree, same⟩ := holds
  obtain ⟨s', t', z, run, tree', rfl, items, -⟩ := rbErase_spec tree (same.mem_iff.mpr mem)
  refine ⟨s', run, t', tree', Perm.cons_inv (a := z.addr) ?_⟩
  exact ((items.map Item.addr).symm.trans same).trans (perm_cons_erase mem)

lemma HoldsTree.outside {s' : RbHeap} (holds : HoldsTree s nodes)
    (root : s'.root = s.root) (kept : ∀ a ∈ nodes, s'.node a = s.node a) :
    HoldsTree s' nodes := by
  obtain ⟨t, ⟨linked, balanced, sorted⟩, same⟩ := holds
  refine ⟨t, ⟨⟨root.trans linked.path, ?_, linked.nodup⟩, balanced, sorted⟩, same⟩
  exact linked.tree.congr fun a mem => kept a (same.mem_iff.mp mem)

variable {x y : RbHeap × List Nat}

lemma Step.holdsTree (step : Step x y) (holds : HoldsTree x.1 x.2) : HoldsTree y.1 y.2 := by
  cases step with
  | insert fresh run =>
    obtain ⟨s', run', holds'⟩ := holds.insert fresh
    rwa [run.unique run']
  | erase mem run =>
    obtain ⟨s', run', holds'⟩ := holds.erase mem
    cases run.unique run'
    exact holds'
  | outside root same => exact holds.outside root same

lemma holdsTree_of_reach (reach : ReflTransGen Step x y)
    (holds : HoldsTree x.1 x.2) : HoldsTree y.1 y.2 := by
  induction reach with
  | refl => exact holds
  | tail _ step ih => exact step.holdsTree ih

lemma holdsTree_rbInit (s : RbHeap) : HoldsTree (rbInit s) [] :=
  ⟨.nil, ⟨⟨rfl, trivial, by simp [ctxAddrs]⟩, ⟨0, .nil⟩, .nil⟩, .refl _⟩

/-- Whatever is inserted and erased after `rb_init`, the heap holds a red-black tree
of the nodes that are in; every further call returns, and no erase takes a defensive
exit. -/
theorem reachable_redBlack {s₀ s : RbHeap} {nodes : List Nat}
    (reach : ReflTransGen Step (rbInit s₀, []) (s, nodes)) :
    (∃ t, IsRbTree s t ∧ (addrs t).Perm nodes) ∧
    (∀ a, a ∉ nodes → ∃ s', Returns (rbInsert s a) s') ∧
    ∀ a ∈ nodes, ∃ s', Returns (rbErase s a) (false, s') := by
  have holds : HoldsTree s nodes := holdsTree_of_reach reach (holdsTree_rbInit s₀)
  refine ⟨holds, fun a fresh => ?_, fun a mem => ?_⟩
  · obtain ⟨s', run, -⟩ := holds.insert fresh
    exact ⟨s', run⟩
  · obtain ⟨s', run, -⟩ := holds.erase mem
    exact ⟨s', run⟩

/-- Two insertions and a deletion. -/
theorem reachable_redBlack_insert_insert_erase : ∃ s, ReflTransGen Step
        (rbInit ⟨fun a => ⟨.red, none, none, none, 10 - a⟩, none⟩, []) (s, [2]) ∧
      ∃ t, IsRbTree s t ∧ (addrs t).Perm [2] := by
  have start : ReflTransGen Step
      (rbInit ⟨fun a => ⟨.red, none, none, none, 10 - a⟩, none⟩, [])
      (rbInit ⟨fun a => ⟨.red, none, none, none, 10 - a⟩, none⟩, []) := .refl
  obtain ⟨s₁, first⟩ := (reachable_redBlack start).2.1 1 (by simp)
  have reach₁ := start.tail (Step.insert (by simp) first)
  obtain ⟨s₂, second⟩ := (reachable_redBlack reach₁).2.1 2 (by simp)
  have reach₂ := reach₁.tail (Step.insert (by simp) second)
  obtain ⟨s₃, third⟩ := (reachable_redBlack reach₂).2.2 1 (by simp)
  have reach₃ := reach₂.tail (Step.erase (by simp) third)
  exact ⟨s₃, reach₃, (reachable_redBlack reach₃).1⟩

end AuroraOS.Rbtree
