import AuroraOS.Lib.RedBlack

/-!
# The scheduler's red-black tree

Model of `kernel/rbtree.c`.  A node is named by its address, with `none` for `NULL`.  The two halves
of each rebalancing loop are mirror images, so they are one definition over `Side`.

Loops carry fuel.  A result `none` is a loop that has not ended or a `NULL` pointer that was
dereferenced.
-/

namespace AuroraOS.Rbtree

open Lib.RedBlack (Color Side)

structure RbNode where
  rbColor : Color
  parent : Option Nat
  left : Option Nat
  right : Option Nat
  key : Nat
deriving DecidableEq, Repr

structure RbHeap where
  node : Nat → RbNode
  root : Option Nat

def RbNode.child (n : RbNode) : Side → Option Nat
  | .left => n.left
  | .right => n.right

def RbNode.setChild (n : RbNode) (d : Side) (v : Option Nat) : RbNode :=
  match d with
  | .left => { n with left := v }
  | .right => { n with right := v }

namespace RbHeap

def update (s : RbHeap) (a : Nat) (f : RbNode → RbNode) : RbHeap :=
  { s with node := Function.update s.node a (f (s.node a)) }

def setChild (s : RbHeap) (a : Nat) (d : Side) (v : Option Nat) : RbHeap :=
  s.update a fun n => n.setChild d v

def setParent (s : RbHeap) (a : Nat) (p : Option Nat) : RbHeap :=
  s.update a fun n => { n with parent := p }

def setColor (s : RbHeap) (a : Nat) (c : Color) : RbHeap :=
  s.update a fun n => { n with rbColor := c }

def setParentOf (s : RbHeap) (v p : Option Nat) : RbHeap :=
  match v with
  | none => s
  | some a => s.setParent a p

end RbHeap

/-! ## Helper macros -/

variable (s : RbHeap)

def rbIsRed : Option Nat → Bool
  | none => false
  | some a => (s.node a).rbColor = .red

def rbIsBlack : Option Nat → Bool
  | none => true
  | some a => (s.node a).rbColor = .black

def rbSetRed : Option Nat → RbHeap
  | none => s
  | some a => s.setColor a .red

def rbSetBlack : Option Nat → RbHeap
  | none => s
  | some a => s.setColor a .black

def rbInit : RbHeap := { s with root := none }

/-! ## Rotation -/

/-- The link to `u`, in its parent or in the root, now points to `v`. -/
def replaceChild (u : Nat) (v : Option Nat) : RbHeap :=
  match (s.node u).parent with
  | none => { s with root := v }
  | some p => if (s.node p).left = some u then s.setChild p .left v else s.setChild p .right v

def rotate (d : Side) (s : RbHeap) (x : Nat) : RbHeap :=
  match (s.node x).child d.opp with
  | none => s
  | some y =>
    let s := s.setChild x d.opp ((s.node y).child d)
    let s := s.setParentOf ((s.node y).child d) (some x)
    let s := s.setParent y (s.node x).parent
    let s := replaceChild s x (some y)
    let s := s.setChild y d (some x)
    s.setParent x (some y)

def rbRotateLeft : RbHeap → Nat → RbHeap := rotate .left
def rbRotateRight : RbHeap → Nat → RbHeap := rotate .right

/-! ## Insertion -/

/-- Cases 2 and 3 of `rb_insert_fixup`, for a parent that is the child of its
parent on side `d`; the result is the node at which the loop goes on. -/
def insertFixupRotate (d : Side) (s : RbHeap) (node parent grandparent : Nat) : Nat × RbHeap :=
  -- case 2: `node` is the inner child
  let (node, parent, s) :=
    if (s.node parent).child d.opp = some node then
      let s := rotate d s parent
      (parent, (s.node parent).parent, s)
    else (node, some parent, s)
  -- case 3: `node` is the outer child
  let s := rbSetBlack s parent
  let s := rbSetRed s (some grandparent)
  (node, rotate d.opp s grandparent)

def insertFixupTurn (d : Side) (s : RbHeap) (node parent grandparent : Nat) : Nat × RbHeap :=
  let uncle := (s.node grandparent).child d.opp
  if rbIsRed s uncle then
    -- case 1
    let s := rbSetBlack s (some parent)
    let s := rbSetBlack s uncle
    (grandparent, rbSetRed s (some grandparent))
  else insertFixupRotate d s node parent grandparent

def insertFixupLoop : Nat → RbHeap → Nat → Option RbHeap
  | 0, _, _ => none
  | fuel + 1, s, node =>
    match (s.node node).parent with
    | none => some s
    | some parent =>
      if (s.node parent).rbColor = .red then
        match (s.node parent).parent with
        | none => some s
        | some grandparent =>
          let d := if some parent = (s.node grandparent).left then .left else .right
          let (node, s) := insertFixupTurn d s node parent grandparent
          insertFixupLoop fuel s node
      else some s

def rbInsertFixup (node fuel : Nat) : Option RbHeap := do
  let s ← insertFixupLoop fuel s node
  some (rbSetBlack s s.root)

/-- The pointer `link` of `rb_insert` points to the root or to a child field. -/
inductive Link
  | root
  | child (parent : Nat) (d : Side)
deriving DecidableEq, Repr

def Link.read : Link → Option Nat
  | .root => s.root
  | .child p d => (s.node p).child d

def Link.write (v : Option Nat) : Link → RbHeap
  | .root => { s with root := v }
  | .child p d => s.setChild p d v

def insertDescend (s : RbHeap) (key : Nat) : Nat → Option Nat → Link → Option (Option Nat × Link)
  | 0, _, _ => none
  | fuel + 1, parent, link =>
    match link.read s with
    | none => some (parent, link)
    | some p =>
      let d := if key < (s.node p).key then .left else .right
      insertDescend s key fuel (some p) (.child p d)

def rbInsert (node fuel : Nat) : Option RbHeap := do
  let (parent, link) ← insertDescend s (s.node node).key fuel none .root
  let s := s.update node fun n =>
    { n with parent := parent, left := none, right := none, rbColor := .red }
  let s := link.write s (some node)
  rbInsertFixup s node fuel

/-! ## Deletion -/

def rbTransplant (u : Nat) (v : Option Nat) : RbHeap :=
  let s := replaceChild s u v
  s.setParentOf v (s.node u).parent

/-- How one turn of `rb_erase_fixup` ends: at a missing sibling (`malformed`, the
defensive exit), one level up, or after the last rotation. -/
inductive EraseTurn
  | malformed (s : RbHeap)
  | up (s : RbHeap)
  | finished (s : RbHeap)

def eraseFixupLast (d : Side) (s : RbHeap) (xParent : Nat) (w : Nat) : RbHeap :=
  let s := s.setColor w (s.node xParent).rbColor
  let s := rbSetBlack s (some xParent)
  let s := rbSetBlack s ((s.node w).child d.opp)
  rotate d s xParent

def eraseFixupRotate (d : Side) (s : RbHeap) (xParent : Nat) (w : Nat) : EraseTurn :=
  if rbIsBlack s ((s.node w).child d.opp) then
    let s := rbSetBlack s ((s.node w).child d)
    let s := rbSetRed s (some w)
    let s := rotate d.opp s w
    match (s.node xParent).child d.opp with
    | none => .malformed s
    | some w => .finished (eraseFixupLast d s xParent w)
  else .finished (eraseFixupLast d s xParent w)

def eraseFixupSibling (d : Side) (s : RbHeap) (xParent : Nat) (w : Nat) : EraseTurn :=
  if rbIsBlack s (s.node w).left && rbIsBlack s (s.node w).right then
    .up (rbSetRed s (some w))
  else eraseFixupRotate d s xParent w

def eraseFixupTurn (d : Side) (s : RbHeap) (xParent : Nat) : EraseTurn :=
  match (s.node xParent).child d.opp with
  | none => .malformed s
  | some w =>
    if rbIsRed s (some w) then
      -- case 1
      let s := rbSetBlack s (some w)
      let s := rbSetRed s (some xParent)
      let s := rotate d s xParent
      match (s.node xParent).child d.opp with
      | none => .malformed s
      | some w => eraseFixupSibling d s xParent w
    else eraseFixupSibling d s xParent w

def isLeftChild (a : Nat) (old : Bool) : Bool :=
  match (s.node a).parent with
  | none => old
  | some p => decide (some a = (s.node p).left)

/-- The loop of `rb_erase_fixup`; the result says whether a defensive exit was
taken, and the final `x`. -/
def eraseFixupLoop :
    Nat → RbHeap → Option Nat → Option Nat → Bool → Option (Bool × Option Nat × RbHeap)
  | 0, _, _, _, _ => none
  | fuel + 1, s, x, xParent, xIsLeft =>
    if x ≠ s.root ∧ rbIsBlack s x = true then
      match xParent with
      | none => none
      | some p =>
        match eraseFixupTurn (if xIsLeft then .left else .right) s p with
        | .malformed s => some (true, x, s)
        | .finished s => some (false, s.root, s)
        | .up s =>
          eraseFixupLoop fuel s (some p) (s.node p).parent (isLeftChild s p xIsLeft)
    else some (false, x, s)

def rbEraseFixup (x xParent : Option Nat) (xIsLeft : Bool) (fuel : Nat) :
    Option (Bool × RbHeap) := do
  let (malformed, x, s) ← eraseFixupLoop fuel s x xParent xIsLeft
  some (malformed, rbSetBlack s x)

def leftmost (s : RbHeap) : Nat → Nat → Option Nat
  | 0, _ => none
  | fuel + 1, y =>
    match (s.node y).left with
    | none => some y
    | some l => leftmost s fuel l

/-- What `rb_erase` knows once the node is out of the tree. -/
structure Unlinked where
  heap : RbHeap
  x : Option Nat
  xParent : Option Nat
  xIsLeft : Bool
  yOriginalColor : Color

/-- `z` has at most one child, `v`, which takes its place. -/
def unlinkSingle (z : Nat) (v : Option Nat) : Unlinked where
  heap := rbTransplant s z v
  x := v
  xParent := (s.node z).parent
  xIsLeft := isLeftChild s z false
  yOriginalColor := (s.node z).rbColor

def detachSuccessor (z y : Nat) : Option (RbHeap × Option Nat × Bool) :=
  let x := (s.node y).right
  if (s.node y).parent = some z then
    some (s.setParentOf x (some y), some y, false)
  else
    match (s.node y).parent with
    | none => none
    | some p =>
      let xIsLeft := decide (some y = (s.node p).left)
      let s := rbTransplant s y x
      let s := s.setChild y .right (s.node z).right
      some (s.setParentOf (s.node y).right (some y), some p, xIsLeft)

def unlinkSuccessor (z y : Nat) : Option Unlinked := do
  let yOriginalColor := (s.node y).rbColor
  let x := (s.node y).right
  let (s, xParent, xIsLeft) ← detachSuccessor s z y
  let s := rbTransplant s z (some y)
  let s := s.setChild y .left (s.node z).left
  let s := s.setParentOf (s.node y).left (some y)
  some { heap := s.setColor y (s.node z).rbColor, x, xParent, xIsLeft, yOriginalColor }

def rbUnlink (z fuel : Nat) : Option Unlinked :=
  match (s.node z).left, (s.node z).right with
  | none, right => some (unlinkSingle s z right)
  | some left, none => some (unlinkSingle s z (some left))
  | some _, some right => (leftmost s fuel right).bind (unlinkSuccessor s z)

/-- `rb_erase`; the first component says whether a defensive exit was taken. -/
def rbErase (z fuel : Nat) : Option (Bool × RbHeap) := do
  let u ← rbUnlink s z fuel
  if u.yOriginalColor = .black then rbEraseFixup u.heap u.x u.xParent u.xIsLeft fuel
  else some (false, u.heap)

end AuroraOS.Rbtree
