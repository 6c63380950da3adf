import AuroraOS.Rbtree.Model
import Mathlib.Data.List.Perm.Basic
import Mathlib.Data.List.Nodup

/-!
# Trees in the heap

`Focus s ctx t` says that the heap `s` holds the tree `plug ctx t`, seen from its subtree `t`.
Moving the focus changes nothing in the heap; recolouring and rotation change the subtree in focus.
-/

namespace AuroraOS.Rbtree

open Lib.RedBlack RbTree List RbHeap

structure Item where
  addr : Nat
  key : Nat
deriving DecidableEq, Repr

abbrev ItemTree := RbTree Item
abbrev ItemCtx := Ctx Item

def ptr : ItemTree → Option Nat
  | .nil => none
  | .node _ _ x _ => some x.addr

@[simp] lemma ptr_nil : ptr .nil = none := rfl

@[simp] lemma ptr_join (d : Side) (c : Color) (near far : ItemTree) (x : Item) :
    ptr (join d c near x far) = some x.addr := by
  cases d <;> rfl

def addrs (t : ItemTree) : List Nat := t.toList.map Item.addr

@[simp] lemma addrs_nil : addrs .nil = [] := rfl

lemma addrs_join_perm (d : Side) (c : Color) (near far : ItemTree) (x : Item) :
    (addrs (join d c near x far)).Perm (x.addr :: (addrs near ++ addrs far)) := by
  cases d
  · simp only [addrs, join, toList_node, map_append]
    exact perm_middle
  · simp only [addrs, join, toList_node, map_append]
    exact perm_middle.trans (perm_append_comm.cons _)

def ctxAddrs : ItemCtx → List Nat
  | [] => []
  | f :: ctx => f.label.addr :: (addrs f.sibling ++ ctxAddrs ctx)

def parentOf : ItemCtx → Option Nat
  | [] => none
  | f :: _ => some f.label.addr

def cell (d : Side) (c : Color) (parent near far : Option Nat) (key : Nat) : RbNode :=
  match d with
  | .left => { rbColor := c, parent := parent, left := near, right := far, key := key }
  | .right => { rbColor := c, parent := parent, left := far, right := near, key := key }

section Cell

variable (d : Side) (c : Color) (p near far v : Option Nat) (k : Nat)

@[simp] lemma cell_color : (cell d c p near far k).rbColor = c := by cases d <;> rfl
@[simp] lemma cell_parent : (cell d c p near far k).parent = p := by cases d <;> rfl
@[simp] lemma cell_key : (cell d c p near far k).key = k := by cases d <;> rfl
@[simp] lemma cell_child : (cell d c p near far k).child d = near := by cases d <;> rfl
@[simp] lemma cell_child_opp : (cell d c p near far k).child d.opp = far := by cases d <;> rfl

@[simp] lemma cell_setChild :
    (cell d c p near far k).setChild d v = cell d c p v far k := by cases d <;> rfl

@[simp] lemma cell_setChild_opp :
    (cell d c p near far k).setChild d.opp v = cell d c p near v k := by cases d <;> rfl

@[simp] lemma cell_setParent (q : Option Nat) :
    { cell d c p near far k with parent := q } = cell d c q near far k := by cases d <;> rfl

@[simp] lemma cell_setColor (c' : Color) :
    { cell d c p near far k with rbColor := c' } = cell d c' p near far k := by cases d <;> rfl

end Cell

/-! ## Heap updates -/

section Updates

variable (s : RbHeap) (a b : Nat) (f : RbNode → RbNode)

@[simp] lemma RbHeap.update_root : (s.update a f).root = s.root := rfl

@[simp] lemma RbHeap.update_self : (s.update a f).node a = f (s.node a) := by
  simp [update]

lemma RbHeap.update_of_ne {s : RbHeap} {a b : Nat} {f : RbNode → RbNode} (ne : b ≠ a) :
    (s.update a f).node b = s.node b := by
  simp [update, ne]

lemma RbHeap.setParentOf_of_ne {s : RbHeap} {v p : Option Nat} {b : Nat} (ne : v ≠ some b) :
    (s.setParentOf v p).node b = s.node b := by
  cases v with
  | none => rfl
  | some a =>
    have different : b ≠ a := fun same => ne (congrArg some same.symm)
    simp [setParentOf, setParent, update_of_ne different]

@[simp] lemma RbHeap.setParentOf_root (v p : Option Nat) : (s.setParentOf v p).root = s.root := by
  cases v <;> rfl

end Updates

section CellUpdates

variable {s : RbHeap} {a : Nat} {d : Side} {c : Color} {p near far : Option Nat} {k : Nat}

lemma setChild_cell (v : Option Nat) (here : s.node a = cell d c p near far k) :
    (s.setChild a d v).node a = cell d c p v far k := by
  rw [setChild, update_self, here, cell_setChild]

lemma setChild_opp_cell (v : Option Nat) (here : s.node a = cell d c p near far k) :
    (s.setChild a d.opp v).node a = cell d c p near v k := by
  rw [setChild, update_self, here, cell_setChild_opp]

lemma setParent_cell (q : Option Nat) (here : s.node a = cell d c p near far k) :
    (s.setParent a q).node a = cell d c q near far k := by
  rw [setParent, update_self, here]
  exact cell_setParent ..

lemma setColor_cell (c' : Color) (here : s.node a = cell d c p near far k) :
    (s.setColor a c').node a = cell d c' p near far k := by
  rw [setColor, update_self, here]
  exact cell_setColor ..

end CellUpdates

/-! ## Representation -/

def Rep (node : Nat → RbNode) : ItemTree → Option Nat → Prop
  | .nil, _ => True
  | .node c l x r, parent =>
    node x.addr = cell .left c parent (ptr l) (ptr r) x.key ∧
      Rep node l (some x.addr) ∧ Rep node r (some x.addr)

def CtxRep (s : RbHeap) : ItemCtx → Option Nat → Prop
  | [], hole => s.root = hole
  | f :: ctx, hole =>
    s.node f.label.addr =
        cell f.side f.color (parentOf ctx) hole (ptr f.sibling) f.label.key ∧
      Rep s.node f.sibling (some f.label.addr) ∧ CtxRep s ctx (some f.label.addr)

variable {x : Item} {parent v : Option Nat}

lemma rep_join {node : Nat → RbNode} {d : Side} {c : Color} {near far : ItemTree} : Rep node
    (join d c near x far) parent ↔ node x.addr = cell d c parent (ptr near) (ptr far) x.key ∧
        Rep node near (some x.addr) ∧ Rep node far (some x.addr) := by
  cases d with
  | left => exact Iff.rfl
  | right =>
    rw [show cell .right c parent (ptr near) (ptr far) x.key =
      cell .left c parent (ptr far) (ptr near) x.key from rfl, and_comm (a := Rep _ near _)]
    exact Iff.rfl

variable {t : ItemTree} {a u : Nat}

lemma ptr_mem_addrs (root : ptr t = some a) : a ∈ addrs t := by
  cases t with
  | nil => simp at root
  | node c l x r =>
    cases root
    simp [addrs]

lemma Rep.congr {node node' : Nat → RbNode}
    (same : ∀ a ∈ addrs t, node' a = node a) (rep : Rep node t parent) :
    Rep node' t parent := by
  induction t generalizing parent with
  | nil => trivial
  | node c l x r ihl ihr =>
    simp only [addrs, toList_node, map_append, map_cons, mem_append, mem_cons] at same
    obtain ⟨root, left, right⟩ := rep
    refine ⟨(same _ (.inr (.inl rfl))).trans root, ihl (fun a mem => ?_) left,
      ihr (fun a mem => ?_) right⟩
    · exact same a (.inl mem)
    · exact same a (.inr (.inr mem))

variable {s : RbHeap}

lemma CtxRep.congr {s' : RbHeap} {ctx : ItemCtx} {hole : Option Nat}
    (root : s'.root = s.root) (same : ∀ a ∈ ctxAddrs ctx, s'.node a = s.node a)
    (rep : CtxRep s ctx hole) : CtxRep s' ctx hole := by
  induction ctx generalizing hole with
  | nil => exact root.trans rep
  | cons f ctx ih =>
    simp only [ctxAddrs, mem_cons, mem_append] at same
    obtain ⟨here, sibling, outer⟩ := rep
    refine ⟨(same _ (.inl rfl)).trans here, sibling.congr fun a mem => ?_,
      ih (fun a mem => ?_) outer⟩
    · exact same a (.inr (.inl mem))
    · exact same a (.inr (.inr mem))

lemma Rep.setParentOf {q : Option Nat} (rep : Rep s.node t parent) (nodup : (addrs t).Nodup) :
    Rep (s.setParentOf (ptr t) q).node t q := by
  cases t with
  | nil => trivial
  | node c l x r =>
    obtain ⟨root, left, right⟩ := rep
    simp only [addrs, toList_node, map_append] at nodup
    have parts := nodup_middle.mp nodup
    rw [nodup_cons, mem_append, not_or] at parts
    have other : ∀ a, a ≠ x.addr →
        (s.setParentOf (ptr (.node c l x r)) q).node a = s.node a := fun a ne =>
      setParentOf_of_ne fun same => ne (Option.some.inj same).symm
    refine ⟨?_, left.congr fun a mem => ?_, right.congr fun a mem => ?_⟩
    · exact setParent_cell q root
    · exact other a fun same => parts.1.1 (same ▸ mem)
    · exact other a fun same => parts.1.2 (same ▸ mem)

/-- The heap holds `plug ctx t`, and no address occurs twice. -/
structure Focus (s : RbHeap) (ctx : ItemCtx) (t : ItemTree) : Prop where
  path : CtxRep s ctx (ptr t)
  tree : Rep s.node t (parentOf ctx)
  nodup : (addrs t ++ ctxAddrs ctx).Nodup

lemma focus_join {ctx : ItemCtx} {d : Side} {c : Color} {near far : ItemTree} : Focus s ctx
    (join d c near x far) ↔ Focus s (⟨d, c, x, far⟩ :: ctx) near := by
  have moved : (addrs (join d c near x far) ++ ctxAddrs ctx).Perm
      (addrs near ++ ctxAddrs (⟨d, c, x, far⟩ :: ctx)) := by
    refine ((addrs_join_perm d c near far x).append_right _).trans ?_
    rw [ctxAddrs, cons_append, append_assoc]
    exact perm_middle.symm
  constructor
  · rintro ⟨path, tree, nodup⟩
    obtain ⟨root, repNear, repFar⟩ := rep_join.mp tree
    rw [ptr_join] at path
    exact ⟨⟨root, repFar, path⟩, repNear, moved.nodup_iff.mp nodup⟩
  · rintro ⟨⟨root, repFar, path⟩, repNear, nodup⟩
    refine ⟨?_, rep_join.mpr ⟨root, repNear, repFar⟩, moved.nodup_iff.mpr nodup⟩
    rw [ptr_join]
    exact path

/-! ## Recolouring and rotation in focus -/

variable {s : RbHeap} {ctx : ItemCtx} {t near far : ItemTree} {d : Side} {c : Color} {x : Item}

lemma CtxRep.update_of_notMem {f : RbNode → RbNode} {hole : Option Nat}
    (path : CtxRep s ctx hole) (foreign : a ∉ ctxAddrs ctx) : CtxRep (s.update a f) ctx hole :=
  path.congr (update_root s a f) fun _ mem =>
    update_of_ne fun same => foreign (same ▸ mem)

lemma Rep.update_of_notMem {f : RbNode → RbNode}
    (rep : Rep s.node t parent) (foreign : a ∉ addrs t) : Rep (s.update a f).node t parent :=
  rep.congr fun _ mem => update_of_ne fun same => foreign (same ▸ mem)

variable (focus : Focus s ctx (join d c near x far))
include focus

lemma Focus.fresh : x.addr ∉ addrs near ∧ x.addr ∉ addrs far ∧ x.addr ∉ ctxAddrs ctx := by
  have nodup := (((addrs_join_perm d c near far x).append_right (ctxAddrs ctx)).nodup_iff).mp
    focus.nodup
  rw [cons_append, nodup_cons, mem_append, mem_append, not_or, not_or] at nodup
  exact ⟨nodup.1.1.1, nodup.1.1.2, nodup.1.2⟩

lemma Focus.here : s.node x.addr = cell d c (parentOf ctx) (ptr near) (ptr far) x.key :=
  (rep_join.mp focus.tree).1

omit focus in
/-- The focus depends on the addresses of the tree only through their order. -/
lemma nodup_recolor {c' : Color} (nodup : (addrs (join d c near x far) ++ ctxAddrs ctx).Nodup) :
    (addrs (join d c' near x far) ++ ctxAddrs ctx).Nodup := by
  rwa [addrs, toList_recolor d c' c]

lemma Focus.setColor (c' : Color) : Focus (s.setColor x.addr c') ctx (join d c' near x far) := by
  obtain ⟨notNear, notFar, notPath⟩ := focus.fresh
  obtain ⟨root, repNear, repFar⟩ := rep_join.mp focus.tree
  have path := focus.path
  rw [ptr_join] at path
  refine ⟨?_, rep_join.mpr ⟨setColor_cell c' root, repNear.update_of_notMem notNear,
    repFar.update_of_notMem notFar⟩, nodup_recolor focus.nodup⟩
  rw [ptr_join]
  exact path.update_of_notMem notPath

omit focus

lemma replaceChild_cons {f : Frame Item}
    (path : CtxRep s (f :: ctx) (some u)) (up : (s.node u).parent = some f.label.addr)
    (foreign : u ∉ addrs f.sibling) :
    replaceChild s u v = s.setChild f.label.addr f.side v := by
  obtain ⟨side, color, label, sibling⟩ := f
  obtain ⟨here, -, -⟩ := path
  rw [replaceChild, up]
  cases side with
  | left => simp [here, cell]
  | right =>
    have different : ptr sibling ≠ some u := fun same => foreign (ptr_mem_addrs same)
    simp [here, cell, different]

lemma CtxRep.replaceChild (path : CtxRep s ctx (some u))
    (up : (s.node u).parent = parentOf ctx) (foreign : u ∉ ctxAddrs ctx)
    (nodup : (ctxAddrs ctx).Nodup) : CtxRep (replaceChild s u v) ctx v := by
  cases ctx with
  | nil =>
    have top : (s.node u).parent = none := up
    simp [Rbtree.replaceChild, top, CtxRep]
  | cons f ctx =>
    simp only [ctxAddrs, mem_cons, mem_append, not_or] at foreign
    rw [ctxAddrs, nodup_cons, mem_append, not_or] at nodup
    rw [replaceChild_cons path up foreign.2.1]
    obtain ⟨here, sibling, outer⟩ := path
    exact ⟨setChild_cell v here, sibling.update_of_notMem nodup.1.1,
      outer.update_of_notMem nodup.1.2⟩

lemma replaceChild_of_notMem
    (up : (s.node u).parent = parentOf ctx) (foreign : a ∉ ctxAddrs ctx) :
    (replaceChild s u v).node a = s.node a := by
  cases ctx with
  | nil =>
    have top : (s.node u).parent = none := up
    simp [replaceChild, top]
  | cons f ctx =>
    have parent : (s.node u).parent = some f.label.addr := up
    have different : a ≠ f.label.addr := fun same => foreign (by simp [ctxAddrs, same])
    rw [replaceChild, parent]
    simp only
    split <;> exact update_of_ne different

lemma nodup_two {cx cy : Color} {a b c : ItemTree} {y : Item}
    (nodup : (addrs (join d cx a x (join d cy b y c)) ++ ctxAddrs ctx).Nodup) :
    (x.addr :: y.addr :: (addrs a ++ addrs b ++ addrs c ++ ctxAddrs ctx)).Nodup := by
  refine Perm.nodup_iff ?_ |>.mp nodup
  have outer := addrs_join_perm d cx a (join d cy b y c) x
  have inner := addrs_join_perm d cy b c y
  refine (outer.append_right _).trans ?_
  refine Perm.cons _ ?_
  refine ((inner.append_left (addrs a)).append_right _).trans ?_
  rw [append_assoc (addrs a) (addrs b)]
  exact perm_middle.append_right _

/-- Rotation in focus: the child of `x` on the far side takes its place. -/
lemma Focus.rotate {cx cy : Color} {a b c : ItemTree} {y : Item}
    (focus : Focus s ctx (join d cx a x (join d cy b y c))) :
    Focus (rotate d s x.addr) ctx (join d cy (join d cx a x b) y c) := by
  have apart := nodup_two focus.nodup
  simp only [nodup_cons, nodup_append, mem_cons, mem_append, not_or] at apart
  obtain ⟨⟨xy, ⟨⟨xa, xb⟩, xc⟩, xp⟩, ⟨⟨⟨ya, yb⟩, yc⟩, yp⟩, nodups⟩ := apart
  obtain ⟨⟨⟨nodupA, nodupB, ab⟩, nodupC, abc⟩, nodupP, abcp⟩ := nodups
  obtain ⟨rootX, repA, below⟩ := rep_join.mp focus.tree
  obtain ⟨rootY, repB, repC⟩ := rep_join.mp below
  rw [ptr_join] at rootX
  have path := focus.path
  rw [ptr_join] at path
  have bNe : ∀ q, q ∉ addrs b → ptr b ≠ some q := fun q out same => out (ptr_mem_addrs same)
  -- the six writes, in order
  let s₁ := s.setChild x.addr d.opp (ptr b)
  let s₂ := s₁.setParentOf (ptr b) (some x.addr)
  let s₃ := s₂.setParent y.addr (parentOf ctx)
  let s₄ := replaceChild s₃ x.addr (some y.addr)
  let s₅ := s₄.setChild y.addr d (some x.addr)
  let s₆ := s₅.setParent x.addr (some y.addr)
  have x₁ : s₁.node x.addr = cell d cx (parentOf ctx) (ptr a) (ptr b) x.key :=
    setChild_opp_cell _ rootX
  have y₁ : s₁.node y.addr = s.node y.addr := update_of_ne (Ne.symm xy)
  have x₂ : s₂.node x.addr = s₁.node x.addr := setParentOf_of_ne (bNe _ xb)
  have y₂ : s₂.node y.addr = s₁.node y.addr := setParentOf_of_ne (bNe _ yb)
  have x₃ : s₃.node x.addr = s₂.node x.addr := update_of_ne xy
  have y₃ : s₃.node y.addr = cell d cy (parentOf ctx) (ptr b) (ptr c) y.key :=
    setParent_cell _ ((y₂.trans y₁).trans rootY)
  have up₃ : (s₃.node x.addr).parent = parentOf ctx := by rw [x₃, x₂, x₁, cell_parent]
  have kept₄ : ∀ q, q ∉ ctxAddrs ctx → s₄.node q = s₃.node q := fun q out =>
    replaceChild_of_notMem up₃ out
  have y₅ : s₅.node y.addr = cell d cy (parentOf ctx) (some x.addr) (ptr c) y.key :=
    setChild_cell _ ((kept₄ _ yp).trans y₃)
  have x₅ : s₅.node x.addr = cell d cx (parentOf ctx) (ptr a) (ptr b) x.key :=
    (update_of_ne xy).trans ((kept₄ _ xp).trans (x₃.trans (x₂.trans x₁)))
  have run : Rbtree.rotate d s x.addr = s₆ := by
    have childX : (s.node x.addr).child d.opp = some y.addr := by rw [rootX, cell_child_opp]
    have childY : (s.node y.addr).child d = ptr b := by rw [rootY, cell_child]
    have childY₁ : (s₁.node y.addr).child d = ptr b := by rw [y₁, childY]
    have parentX : (s₂.node x.addr).parent = parentOf ctx := by rw [x₂, x₁, cell_parent]
    rw [Rbtree.rotate, childX]
    simp only [childY]
    rw [show (s.setChild x.addr d.opp (ptr b)) = s₁ from rfl, childY₁,
      show s₁.setParentOf (ptr b) (some x.addr) = s₂ from rfl, parentX]
  -- what the writes leave alone
  have kept : ∀ q, q ≠ x.addr → q ≠ y.addr → q ∉ addrs b → q ∉ ctxAddrs ctx →
      s₆.node q = s.node q := by
    intro q qx qy qb qp
    calc s₆.node q = s₅.node q := update_of_ne qx
      _ = s₄.node q := update_of_ne qy
      _ = s₃.node q := kept₄ q qp
      _ = s₂.node q := update_of_ne qy
      _ = s₁.node q := setParentOf_of_ne (bNe q qb)
      _ = s.node q := update_of_ne qx
  have keptB : ∀ q ∈ addrs b, s₆.node q = s₂.node q := by
    intro q mem
    have qx : q ≠ x.addr := fun same => xb (same ▸ mem)
    have qy : q ≠ y.addr := fun same => yb (same ▸ mem)
    calc s₆.node q = s₅.node q := update_of_ne qx
      _ = s₄.node q := update_of_ne qy
      _ = s₃.node q := kept₄ q fun out => abcp q (.inl (.inr mem)) q out rfl
      _ = s₂.node q := update_of_ne qy
  have repB₂ : Rep s₂.node b (some x.addr) :=
    Rep.setParentOf (repB.update_of_notMem xb) nodupB
  have pathKept : ∀ q ∈ ctxAddrs ctx, s₃.node q = s.node q := by
    intro q mem
    have qx : q ≠ x.addr := fun same => xp (same ▸ mem)
    have qy : q ≠ y.addr := fun same => yp (same ▸ mem)
    have qb : q ∉ addrs b := fun inside => abcp q (.inl (.inr inside)) q mem rfl
    calc s₃.node q = s₂.node q := update_of_ne qy
      _ = s₁.node q := setParentOf_of_ne (bNe q qb)
      _ = s.node q := update_of_ne qx
  have path₄ : CtxRep s₄ ctx (some y.addr) := by
    refine CtxRep.replaceChild (path.congr ?_ pathKept) up₃ xp nodupP
    exact setParentOf_root s₁ (ptr b) (some x.addr)
  rw [run]
  refine ⟨?_, rep_join.mpr ⟨?_, rep_join.mpr ⟨?_, ?_, ?_⟩, ?_⟩, ?_⟩
  · rw [ptr_join]
    exact (path₄.update_of_notMem yp).update_of_notMem xp
  · rw [ptr_join]
    exact (update_of_ne (Ne.symm xy)).trans y₅
  · exact setParent_cell _ x₅
  · refine repA.congr fun q mem => ?_
    refine kept q (fun same => xa (same ▸ mem)) (fun same => ya (same ▸ mem)) ?_ ?_
    · exact fun inside => ab q mem q inside rfl
    · exact fun inside => abcp q (.inl (.inl mem)) q inside rfl
  · exact repB₂.congr keptB
  · refine repC.congr fun q mem => ?_
    refine kept q (fun same => xc (same ▸ mem)) (fun same => yc (same ▸ mem)) ?_ ?_
    · exact fun inside => abc q (.inr inside) q mem rfl
    · exact fun inside => abcp q (.inr mem) q inside rfl
  · rw [addrs, toList_rotate d cy cx cx cy]
    exact focus.nodup

end AuroraOS.Rbtree
