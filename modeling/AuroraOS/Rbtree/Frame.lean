import AuroraOS.Rbtree.Erase
import AuroraOS.Rbtree.Walk

/-!
# What the tree operations leave alone

Several trees share the memory of their nodes.  `Inside A s₀ s` says that the root and the links of
the nodes of `A` point into `A` and that the other nodes are as in `s₀`; every operation on a node
of `A` keeps it, whatever the shape of the tree is.
-/

namespace AuroraOS.Rbtree

open Lib Lib.RedBlack List Option

variable {A : Nat → Prop} {s₀ s s' : RbHeap} {a b : Nat} {v p : Option Nat} {d : Side}

def In (A : Nat → Prop) (v : Option Nat) : Prop := ∀ a, v = some a → A a

@[simp] lemma in_none : In A none := by simp [In]

@[simp] lemma in_some : In A (some a) ↔ A a := by simp [In]

/-- The links from the root and from the nodes of `A` stay in `A`; the rest is as in `s₀`. -/
structure Inside (A : Nat → Prop) (s₀ s : RbHeap) : Prop where
  root : In A s.root
  parent : ∀ a, A a → In A (s.node a).parent
  child : ∀ a, A a → ∀ d, In A ((s.node a).child d)
  outside : ∀ a, ¬A a → s.node a = s₀.node a

namespace Inside

variable (inside : Inside A s₀ s)
include inside

lemma left (mem : A a) : In A (s.node a).left :=
  inside.child a mem .left

lemma right (mem : A a) : In A (s.node a).right :=
  inside.child a mem .right

lemma update {f : RbNode → RbNode} (mem : A a)
    (parent : In A (f (s.node a)).parent) (child : ∀ d, In A ((f (s.node a)).child d)) :
    Inside A s₀ (s.update a f) := by
  refine ⟨inside.root, fun b memberB => ?_, fun b memberB d => ?_, fun b out => ?_⟩
  · rcases eq_or_ne b a with rfl | other
    · simpa using parent
    · rw [RbHeap.update_of_ne other]
      exact inside.parent b memberB
  · rcases eq_or_ne b a with rfl | other
    · simpa using child d
    · rw [RbHeap.update_of_ne other]
      exact inside.child b memberB d
  · have other : b ≠ a := fun same => out (same.symm ▸ mem)
    rw [RbHeap.update_of_ne other]
    exact inside.outside b out

lemma setRoot (target : In A v) : Inside A s₀ { s with root := v } :=
  ⟨target, inside.parent, inside.child, inside.outside⟩

lemma setChild (mem : A a) (target : In A v) : Inside A s₀ (s.setChild a d v) := by
  refine inside.update mem ?_ fun e => ?_
  · cases d <;> exact inside.parent a mem
  · cases d <;> cases e
    · exact target
    · exact inside.right mem
    · exact inside.left mem
    · exact target

lemma setParent (mem : A a) (target : In A p) : Inside A s₀ (s.setParent a p) :=
  inside.update mem target fun e => by
    cases e
    · exact inside.left mem
    · exact inside.right mem

lemma setColor (mem : A a) (c : Color) : Inside A s₀ (s.setColor a c) :=
  inside.update mem (inside.parent a mem) fun e => by
    cases e
    · exact inside.left mem
    · exact inside.right mem

lemma setParentOf (node : In A v) (target : In A p) : Inside A s₀ (s.setParentOf v p) := by
  cases v with
  | none => exact inside
  | some a => exact inside.setParent (in_some.mp node) target

lemma setRed (node : In A v) : Inside A s₀ (rbSetRed s v) := by
  cases v with
  | none => exact inside
  | some a => exact inside.setColor (in_some.mp node) .red

lemma setBlack (node : In A v) : Inside A s₀ (rbSetBlack s v) := by
  cases v with
  | none => exact inside
  | some a => exact inside.setColor (in_some.mp node) .black

lemma replaceChild (mem : A a) (target : In A v) : Inside A s₀ (Rbtree.replaceChild s a v) := by
  unfold Rbtree.replaceChild
  split
  · exact inside.setRoot target
  · rename_i q parentIs
    have up := inside.parent a mem q parentIs
    split
    · exact inside.setChild up target
    · exact inside.setChild up target

lemma rotate (mem : A a) : Inside A s₀ (Rbtree.rotate d s a) := by
  unfold Rbtree.rotate
  split
  · exact inside
  rename_i y childIs
  have across := inside.child a mem d.opp y childIs
  have step₁ := inside.setChild (d := d.opp) mem (inside.child y across d)
  have step₂ := step₁.setParentOf (step₁.child y across d) (in_some.mpr mem)
  have step₃ := step₂.setParent across (step₂.parent a mem)
  have step₄ := step₃.replaceChild mem (in_some.mpr across)
  have step₅ := step₄.setChild (d := d) across (in_some.mpr mem)
  exact step₅.setParent mem (in_some.mpr across)

end Inside

/-! ## Insertion -/

variable {node fuel q y z : Nat}

variable {parent grand w : Nat}

lemma insertFixupRotate_inside (inside : Inside A s₀ s)
    (hn : A node) (hp : A parent) (hg : A grand) :
    A (insertFixupRotate d s node parent grand).1 ∧
      Inside A s₀ (insertFixupRotate d s node parent grand).2 := by
  unfold insertFixupRotate
  split
  rename_i node' parent' t turned
  have ready : A node' ∧ In A parent' ∧ Inside A s₀ t := by
    split at turned <;> cases turned
    · have rotated := inside.rotate (d := d) hp
      exact ⟨hp, rotated.parent _ hp, rotated⟩
    · exact ⟨hn, in_some.mpr hp, inside⟩
  obtain ⟨hn', hp', inside'⟩ := ready
  exact ⟨hn', ((inside'.setBlack hp').setRed (in_some.mpr hg)).rotate hg⟩

lemma insertFixupTurn_inside (inside : Inside A s₀ s)
    (hn : A node) (hp : A parent) (hg : A grand) :
    A (insertFixupTurn d s node parent grand).1 ∧
      Inside A s₀ (insertFixupTurn d s node parent grand).2 := by
  unfold insertFixupTurn
  simp only
  split
  · have step := (inside.setBlack (in_some.mpr hp)).setBlack (inside.child grand hg d.opp)
    exact ⟨hg, step.setRed (in_some.mpr hg)⟩
  · exact insertFixupRotate_inside inside hn hp hg

lemma insertFixupLoop_inside (fuel : Nat) (inside : Inside A s₀ s) (hn : A node)
    (run : insertFixupLoop fuel s node = some s') : Inside A s₀ s' := by
  induction fuel generalizing s node with
  | zero => cases run
  | succ fuel ih =>
    rw [insertFixupLoop] at run
    split at run
    · cases run
      exact inside
    rename_i parent parentIs
    have up := inside.parent node hn parent parentIs
    split at run
    · split at run
      · cases run
        exact inside
      rename_i grand grandIs
      have top := inside.parent parent up grand grandIs
      have turn := insertFixupTurn_inside
        (d := if some parent = (s.node grand).left then .left else .right) inside hn up top
      exact ih turn.2 turn.1 run
    · cases run
      exact inside

def Link.In (A : Nat → Prop) : Link → Prop
  | .root => True
  | .child p _ => A p

lemma Link.read_in {link : Link} (inside : Inside A s₀ s) (field : link.In A) :
    Rbtree.In A (link.read s) := by
  cases link with
  | root => exact inside.root
  | child p d => exact inside.child p field d

lemma insertDescend_inside (key fuel : Nat) (link : Link) {parent : Option Nat}
    {found : Option Nat × Link} (inside : Inside A s₀ s) (field : link.In A) (up : In A parent)
    (run : insertDescend s key fuel parent link = some found) : In A found.1 ∧ found.2.In A := by
  induction fuel generalizing link parent with
  | zero => cases run
  | succ fuel ih =>
    rw [insertDescend] at run
    split at run
    · cases run
      exact ⟨up, field⟩
    · rename_i q readIs
      have target := Link.read_in inside field q readIs
      exact ih (.child q _) target (in_some.mpr target) run

lemma rbInsert_inside (inside : Inside A s s)
    (run : rbInsert s a fuel = some s') : Inside (fun x => x = a ∨ A x) s s' := by
  unfold rbInsert at run
  obtain ⟨⟨parent, link⟩, descend, run⟩ := bind_eq_some_iff.mp run
  obtain ⟨up, field⟩ := insertDescend_inside (s.node a).key fuel .root inside trivial
    in_none descend
  have widen : ∀ {v : Option Nat}, In A v → In (fun x => x = a ∨ A x) v :=
    fun target x is => .inr (target x is)
  have fresh : Inside (fun x => x = a ∨ A x) s (s.update a fun n =>
      { n with parent := parent, left := none, right := none, rbColor := .red }) := by
    refine ⟨widen inside.root, fun b mem => ?_, fun b mem e => ?_, fun b out => ?_⟩
    · rcases eq_or_ne b a with rfl | other
      · simpa using widen up
      · rw [RbHeap.update_of_ne other]
        exact widen (inside.parent b (mem.resolve_left other))
    · rcases eq_or_ne b a with rfl | other
      · cases e <;> simp [RbNode.child]
      · rw [RbHeap.update_of_ne other]
        exact widen (inside.child b (mem.resolve_left other) e)
    · rw [not_or] at out
      exact RbHeap.update_of_ne out.1
  have linked : Inside (fun x => x = a ∨ A x) s (link.write (s.update a fun n =>
      { n with parent := parent, left := none, right := none, rbColor := .red }) (some a)) := by
    cases link with
    | root => exact fresh.setRoot (in_some.mpr (.inl rfl))
    | child q e => exact fresh.setChild (.inr field) (in_some.mpr (.inl rfl))
  obtain ⟨t, loop, done⟩ := bind_eq_some_iff.mp run
  cases done
  have fixed := insertFixupLoop_inside fuel linked (.inl rfl) loop
  exact fixed.setBlack fixed.root

/-! ## Deletion -/

lemma Inside.transplant {u : Nat} (inside : Inside A s₀ s) (mem : A u) (target : In A v) :
    Inside A s₀ (rbTransplant s u v) := by
  have replaced := inside.replaceChild mem target
  exact replaced.setParentOf target (replaced.parent u mem)

lemma eraseFixupLast_inside (inside : Inside A s₀ s) (hq : A q) (hw : A w) :
    Inside A s₀ (eraseFixupLast d s q w) := by
  unfold eraseFixupLast
  have step₁ := inside.setColor hw (s.node q).rbColor
  have step₂ := step₁.setBlack (in_some.mpr hq)
  exact (step₂.setBlack (step₂.child w hw d.opp)).rotate hq

def EraseTurn.heap : EraseTurn → RbHeap
  | .malformed s => s
  | .up s => s
  | .finished s => s

lemma eraseFixupSibling_inside (inside : Inside A s₀ s) (hq : A q) (hw : A w) :
    Inside A s₀ (eraseFixupSibling d s q w).heap := by
  unfold eraseFixupSibling
  split
  · exact inside.setRed (in_some.mpr hw)
  unfold eraseFixupRotate
  split
  · have step₁ := inside.setBlack (inside.child w hw d)
    have step₂ := (step₁.setRed (in_some.mpr hw)).rotate (d := d.opp) hw
    simp only
    split
    · exact step₂
    · rename_i w' childIs
      exact eraseFixupLast_inside step₂ hq (step₂.child q hq d.opp w' childIs)
  · exact eraseFixupLast_inside inside hq hw

lemma eraseFixupTurn_inside (inside : Inside A s₀ s) (hq : A q) :
    Inside A s₀ (eraseFixupTurn d s q).heap := by
  unfold eraseFixupTurn
  split
  · exact inside
  rename_i w childIs
  have across := inside.child q hq d.opp w childIs
  split
  · have step₁ := inside.setBlack (in_some.mpr across)
    have step₂ := (step₁.setRed (in_some.mpr hq)).rotate (d := d) hq
    simp only
    split
    · exact step₂
    · rename_i w' childIs'
      exact eraseFixupSibling_inside step₂ hq (step₂.child q hq d.opp w' childIs')
  · exact eraseFixupSibling_inside inside hq across

lemma eraseFixupLoop_inside (fuel : Nat) {x xParent : Option Nat} {isLeft : Bool}
    {found : Bool × Option Nat × RbHeap} (inside : Inside A s₀ s) (hx : In A x)
    (hp : In A xParent) (run : eraseFixupLoop fuel s x xParent isLeft = some found) :
    In A found.2.1 ∧ Inside A s₀ found.2.2 := by
  induction fuel generalizing s x xParent isLeft with
  | zero => cases run
  | succ fuel ih =>
    rw [eraseFixupLoop.eq_def] at run
    simp only at run
    split at run
    · split at run
      · cases run
      rename_i q
      have hq := in_some.mp hp
      have turn := eraseFixupTurn_inside (d := if isLeft then .left else .right) inside hq
      split at run <;> rename_i t turnIs <;> rw [turnIs] at turn
      · cases run
        exact ⟨hx, turn⟩
      · cases run
        exact ⟨turn.root, turn⟩
      · exact ih turn hp (turn.parent q hq) run
    · cases run
      exact ⟨hx, inside⟩

lemma leftmost_inside (fuel : Nat) (inside : Inside A s₀ s) (hy : A y)
    (run : leftmost s fuel y = some z) : A z := by
  induction fuel generalizing y with
  | zero => cases run
  | succ fuel ih =>
    rw [leftmost] at run
    split at run
    · cases run
      exact hy
    · rename_i l leftIs
      exact ih (inside.left hy l leftIs) run

lemma detachSuccessor_inside {found : RbHeap × Option Nat × Bool}
    (inside : Inside A s₀ s) (hz : A z) (hy : A y)
    (run : detachSuccessor s z y = some found) :
    Inside A s₀ found.1 ∧ In A found.2.1 := by
  unfold detachSuccessor at run
  split at run
  · cases run
    exact ⟨inside.setParentOf (inside.right hy) (in_some.mpr hy), in_some.mpr hy⟩
  have up := inside.parent y hy
  split at run
  · cases run
  rename_i q parentIs
  rw [parentIs] at up
  cases run
  have step₁ := inside.transplant hy (inside.right hy)
  have step₂ := step₁.setChild (d := .right) hy (step₁.right hz)
  exact ⟨step₂.setParentOf (step₂.right hy) (in_some.mpr hy), up⟩

structure Unlinked.Inside (A : Nat → Prop) (s₀ : RbHeap) (u : Unlinked) : Prop where
  heap : Rbtree.Inside A s₀ u.heap
  x : In A u.x
  xParent : In A u.xParent

lemma unlinkSingle_inside (inside : Inside A s₀ s) (hz : A z) (target : In A v) :
    (unlinkSingle s z v).Inside A s₀ :=
  ⟨inside.transplant hz target, target, inside.parent z hz⟩

variable {u : Unlinked}

lemma unlinkSuccessor_inside (inside : Inside A s₀ s) (hz : A z)
    (hy : A y) (run : unlinkSuccessor s z y = some u) : u.Inside A s₀ := by
  unfold unlinkSuccessor at run
  obtain ⟨⟨t, xParent, isLeft⟩, detach, done⟩ := bind_eq_some_iff.mp run
  cases done
  obtain ⟨step₀, up⟩ := detachSuccessor_inside inside hz hy detach
  have step₁ := step₀.transplant hz (in_some.mpr hy)
  have step₂ := step₁.setChild (d := .left) hy (step₁.left hz)
  have step₃ := step₂.setParentOf (step₂.left hy) (in_some.mpr hy)
  exact ⟨step₃.setColor hy _, inside.right hy, up⟩

lemma rbUnlink_inside (inside : Inside A s₀ s) (hz : A z)
    (run : rbUnlink s z fuel = some u) : u.Inside A s₀ := by
  unfold rbUnlink at run
  have right := inside.right hz
  have left := inside.left hz
  split at run
  · cases run
    exact unlinkSingle_inside inside hz right
  · rename_i l leftIs _
    rw [leftIs] at left
    cases run
    exact unlinkSingle_inside inside hz left
  · rename_i l r _ rightIs
    obtain ⟨y, walk, unlink⟩ := bind_eq_some_iff.mp run
    have successor := leftmost_inside fuel inside (right r rightIs) walk
    exact unlinkSuccessor_inside inside hz successor unlink

variable {malformed : Bool}

lemma rbErase_inside (inside : Inside A s s) (hz : A z)
    (run : rbErase s z fuel = some (malformed, s')) : Inside A s s' := by
  unfold rbErase at run
  obtain ⟨u, unlink, run⟩ := bind_eq_some_iff.mp run
  have unlinked := rbUnlink_inside inside hz unlink
  split at run
  · unfold rbEraseFixup at run
    obtain ⟨found, loop, done⟩ := bind_eq_some_iff.mp run
    obtain ⟨hx, fixed⟩ := eraseFixupLoop_inside fuel unlinked.heap unlinked.x unlinked.xParent loop
    cases done
    exact fixed.setBlack hx
  · cases run
    exact unlinked.heap

/-! ## Iteration -/

lemma rbFindMin_inside (inside : Inside A s₀ s) (run : rbFindMin s fuel = some v) : In A v := by
  unfold rbFindMin at run
  split at run
  · cases run
    exact in_none
  · rename_i node rootIs
    obtain ⟨first, walk, rfl⟩ := map_eq_some_iff.mp run
    exact in_some.mpr (leftmost_inside fuel inside (inside.root node rootIs) walk)

lemma climb_inside (fuel : Nat) (inside : Inside A s₀ s) (up : In A p)
    (run : climb s fuel a p = some v) : In A v := by
  induction fuel generalizing a p with
  | zero => cases run
  | succ fuel ih =>
    cases p with
    | none =>
      cases run
      exact in_none
    | some parent =>
      rw [climb] at run
      split at run
      · exact ih (inside.parent parent (in_some.mp up)) run
      · cases run
        exact up

lemma rbNext_inside (inside : Inside A s₀ s) (mem : A a)
    (run : rbNext s a fuel = some v) : In A v := by
  unfold rbNext at run
  split at run
  · rename_i next rightIs
    obtain ⟨first, walk, rfl⟩ := map_eq_some_iff.mp run
    exact in_some.mpr (leftmost_inside fuel inside (inside.right mem next rightIs) walk)
  · exact climb_inside fuel inside (inside.parent a mem) run

/-! ## Trees -/

variable {t : ItemTree}

lemma Rep.links {node : Nat → RbNode} {up : Option Nat} (rep : Rep node t up)
    (top : In A up) (nodes : ∀ a ∈ addrs t, A a) :
    In A (ptr t) ∧ ∀ a ∈ addrs t, In A (node a).parent ∧ ∀ d, In A ((node a).child d) := by
  induction t generalizing up with
  | nil => simp
  | node c l x r ihl ihr =>
    obtain ⟨here, left, right⟩ := rep
    have parts : ∀ a, a ∈ addrs (.node c l x r) ↔ a ∈ addrs l ∨ a = x.addr ∨ a ∈ addrs r := by
      intro a
      simp only [addrs, RbTree.toList_node, map_append, map_cons, mem_append, mem_cons]
    have self : A x.addr := nodes _ ((parts _).mpr (.inr (.inl rfl)))
    obtain ⟨lowPtr, low⟩ := ihl left (in_some.mpr self) fun a mem =>
      nodes a ((parts a).mpr (.inl mem))
    obtain ⟨highPtr, high⟩ := ihr right (in_some.mpr self) fun a mem =>
      nodes a ((parts a).mpr (.inr (.inr mem)))
    refine ⟨in_some.mpr self, fun a mem => ?_⟩
    rcases (parts a).mp mem with inL | rfl | inR
    · exact low a inL
    · rw [here]
      refine ⟨top, fun d => ?_⟩
      cases d
      · exact lowPtr
      · exact highPtr
    · exact high a inR

lemma IsRbTree.inside (tree : IsRbTree s t) : Inside (· ∈ addrs t) s s := by
  obtain ⟨top, links⟩ := tree.linked.tree.links in_none fun _ => id
  refine ⟨?_, fun a mem => (links a mem).1, fun a mem => (links a mem).2, fun _ _ => rfl⟩
  rw [show s.root = ptr t from tree.linked.path]
  exact top

variable {nodes : List Nat}

lemma HoldsTree.insert_outside (holds : HoldsTree s nodes)
    (run : Returns (rbInsert s a) s') (out : b ∉ a :: nodes) : s'.node b = s.node b := by
  obtain ⟨t, tree, same⟩ := holds
  obtain ⟨bound, run⟩ := run
  refine (rbInsert_inside tree.inside (run bound (Nat.le_refl _))).outside b ?_
  rintro (rfl | mem)
  · exact out (mem_cons_self ..)
  · exact out (mem_cons_of_mem _ (same.mem_iff.mp mem))

lemma HoldsTree.erase_outside (holds : HoldsTree s nodes)
    (mem : a ∈ nodes) (run : Returns (rbErase s a) (malformed, s')) (out : b ∉ nodes) :
    s'.node b = s.node b := by
  obtain ⟨t, tree, same⟩ := holds
  obtain ⟨bound, run⟩ := run
  have inside := rbErase_inside tree.inside (same.mem_iff.mpr mem) (run bound (Nat.le_refl _))
  exact inside.outside b fun inner => out (same.mem_iff.mp inner)

/-! ## Fuel -/

lemma insertDescend_steady (key : Nat) (parent : Option Nat) (link : Link) :
    Steady fun fuel => insertDescend s key fuel parent link := by
  refine .of_extends fun fuel => ?_
  induction fuel generalizing parent link with
  | zero => exact .none
  | succ fuel ih =>
    unfold insertDescend
    cases link.read s with
    | none => exact .refl _
    | some p => exact ih _ _

lemma insertFixupLoop_steady (node : Nat) : Steady fun fuel => insertFixupLoop fuel s node := by
  refine .of_extends fun fuel => ?_
  induction fuel generalizing s node with
  | zero => exact .none
  | succ fuel ih =>
    unfold insertFixupLoop
    cases (s.node node).parent with
    | none => exact .refl _
    | some parent =>
      refine .ite ?_ (.refl _)
      cases (s.node parent).parent with
      | none => exact .refl _
      | some grand => exact ih _

lemma rbInsert_steady (s : RbHeap) (node : Nat) : Steady (rbInsert s node) :=
  (insertDescend_steady _ _ _).bind fun _ => (insertFixupLoop_steady _).bind fun _ =>
    Steady.const _

lemma leftmost_steady (y : Nat) : Steady fun fuel => leftmost s fuel y := by
  refine .of_extends fun fuel => ?_
  induction fuel generalizing y with
  | zero => exact .none
  | succ fuel ih =>
    unfold leftmost
    cases (s.node y).left with
    | none => exact .refl _
    | some l => exact ih l

lemma eraseFixupLoop_steady (x xParent : Option Nat) (isLeft : Bool) :
    Steady fun fuel => eraseFixupLoop fuel s x xParent isLeft := by
  refine .of_extends fun fuel => ?_
  induction fuel generalizing s x xParent isLeft with
  | zero => exact .none
  | succ fuel ih =>
    unfold eraseFixupLoop
    refine .ite ?_ (.refl _)
    cases xParent with
    | none => exact .none
    | some p =>
      dsimp only
      cases eraseFixupTurn (if isLeft then .left else .right) s p with
      | malformed t => exact .refl _
      | finished t => exact .refl _
      | up t => exact ih _ _ _

lemma rbUnlink_steady (z : Nat) : Steady (rbUnlink s z) := by
  refine .of_extends fun fuel => ?_
  unfold rbUnlink
  split
  · exact .refl _
  · exact .refl _
  · exact .bind (leftmost_steady _ fuel) fun _ => .refl _

lemma rbErase_steady (s : RbHeap) (z : Nat) : Steady (rbErase s z) :=
  (rbUnlink_steady z).bind fun _ =>
    Steady.ite ((eraseFixupLoop_steady _ _ _).bind fun _ => Steady.const _) (Steady.const _)

end AuroraOS.Rbtree
