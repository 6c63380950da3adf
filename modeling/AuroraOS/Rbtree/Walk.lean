import AuroraOS.Rbtree.Model

/-!
# Iteration and search

`rb_find_min` and `rb_next`, which list the nodes of a tree from the least key on, and
`rb_find`.
-/

namespace AuroraOS.Rbtree

variable (s : RbHeap)

def rbFindMin (fuel : Nat) : Option (Option Nat) :=
  match s.root with
  | none => some none
  | some node => (leftmost s fuel node).map some

def climb (s : RbHeap) : Nat → Nat → Option Nat → Option (Option Nat)
  | 0, _, _ => none
  | _ + 1, _, none => some none
  | fuel + 1, node, some parent =>
    if some node = (s.node parent).right then climb s fuel parent (s.node parent).parent
    else some (some parent)

def rbNext (node fuel : Nat) : Option (Option Nat) :=
  match (s.node node).right with
  | some next => (leftmost s fuel next).map some
  | none => climb s fuel node (s.node node).parent

def search (s : RbHeap) (key : Nat) : Nat → Option Nat → Option (Option Nat)
  | 0, _ => none
  | _ + 1, none => some none
  | fuel + 1, some node =>
    if key < (s.node node).key then search s key fuel (s.node node).left
    else if key > (s.node node).key then search s key fuel (s.node node).right
    else some (some node)

def rbFind (key fuel : Nat) : Option (Option Nat) := search s key fuel s.root

def visit (s : RbHeap) : Nat → Option Nat → Option (List Nat)
  | 0, _ => none
  | _ + 1, none => some []
  | fuel + 1, some node =>
    (rbNext s node fuel).bind fun next => (visit s fuel next).map (node :: ·)

def inOrder (fuel : Nat) : Option (List Nat) :=
  (rbFindMin s fuel).bind (visit s fuel)

end AuroraOS.Rbtree
