import Mathlib.Algebra.Group.Nat.Defs
import Mathlib.Data.List.Basic

/-!
# Red-black trees and their contexts

Coloured binary trees and the path from the root to a subtree as a context.  `Balanced t c n` says
that `t` has a root of colour `c`, `n` black nodes on every path and no red node with a red child;
`Accepts ctx c n` that a context filled with such a tree is balanced with a black root.
-/

namespace AuroraOS.Lib.RedBlack

inductive Color
  | red
  | black
deriving DecidableEq, Repr

/-- The black height of a node of this colour over subtrees of height `n`. -/
def Color.raise : Color → Nat → Nat
  | .red, n => n
  | .black, n => n + 1

inductive Side
  | left
  | right
deriving DecidableEq, Repr

def Side.opp : Side → Side
  | .left => .right
  | .right => .left

inductive RbTree (α : Type) where
  | nil : RbTree α
  | node (color : Color) (left : RbTree α) (label : α) (right : RbTree α) : RbTree α

namespace RbTree

variable {α : Type}

def join (d : Side) (c : Color) (near : RbTree α) (x : α) (far : RbTree α) : RbTree α :=
  match d with
  | .left => node c near x far
  | .right => node c far x near

def toList : RbTree α → List α
  | nil => []
  | node _ l x r => l.toList ++ x :: r.toList

@[simp] lemma toList_nil : (nil : RbTree α).toList = [] := rfl

@[simp] lemma toList_node (c : Color) (l : RbTree α) (x : α) (r : RbTree α) :
    (node c l x r).toList = l.toList ++ x :: r.toList := rfl

def depth : RbTree α → Nat
  | nil => 0
  | node _ l _ r => max l.depth r.depth + 1

/-- The colour of a root; an empty tree counts as black. -/
def color : RbTree α → Color
  | nil => .black
  | node c _ _ _ => c

def blacken : RbTree α → RbTree α
  | nil => nil
  | node _ l x r => node .black l x r

@[simp] lemma toList_blacken (t : RbTree α) : t.blacken.toList = t.toList := by
  cases t <;> rfl

variable (d : Side) (c : Color) (near : RbTree α) (x : α) (far : RbTree α)
include d c near x far

@[simp] lemma blacken_join : (join d c near x far).blacken = join d .black near x far := by
  cases d <;> rfl

@[simp] lemma color_join : (join d c near x far).color = c := by
  cases d <;> rfl

lemma join_opp : join d.opp c near x far = join d c far x near := by
  cases d <;> rfl

omit d c near x far

lemma toList_rotate (d : Side) (c₁ c₂ c₃ c₄ : Color) (a b c : RbTree α) (x y : α) :
    (join d c₁ (join d c₂ a x b) y c).toList = (join d c₃ a x (join d c₄ b y c)).toList := by
  cases d <;> simp [join]

lemma toList_recolor (d : Side) (c₁ c₂ : Color) (near far : RbTree α) (x : α) :
    (join d c₁ near x far).toList = (join d c₂ near x far).toList := by
  cases d <;> rfl

/-! ## Balance -/

/-- Colour of the root, black height, and no red node with a red child. -/
inductive Balanced : RbTree α → Color → Nat → Prop
  | nil : Balanced nil .black 0
  | red {l r : RbTree α} {x : α} {n : Nat} (left : Balanced l .black n)
      (right : Balanced r .black n) : Balanced (node .red l x r) .red n
  | black {l r : RbTree α} {x : α} {c₁ c₂ : Color} {n : Nat} (left : Balanced l c₁ n)
      (right : Balanced r c₂ n) : Balanced (node .black l x r) .black (n + 1)

namespace Balanced

variable {t near far : RbTree α} {x : α} {d : Side} {c c₁ c₂ : Color} {n : Nat}

lemma color_eq (bal : Balanced t c n) : t.color = c := by
  cases bal <;> rfl

lemma joinRed (bn : Balanced near .black n) (bf : Balanced far .black n) :
    Balanced (join d .red near x far) .red n := by
  cases d
  · exact .red bn bf
  · exact .red bf bn

lemma joinBlack (bn : Balanced near c₁ n) (bf : Balanced far c₂ n) :
    Balanced (join d .black near x far) .black (n + 1) := by
  cases d
  · exact .black bn bf
  · exact .black bf bn

lemma joinColor (bn : Balanced near .black n) (bf : Balanced far .black n) (c : Color) :
    Balanced (join d c near x far) c (c.raise n) := by
  cases c
  · exact bn.joinRed bf
  · exact bn.joinBlack bf

lemma raise_depth_le (bal : Balanced t c n) : c.raise t.depth ≤ 2 * n + 1 := by
  induction bal with
  | nil => exact Nat.le_refl 1
  | red _ _ ihl ihr =>
    simp only [Color.raise, depth] at *
    omega
  | @black _ _ _ c₁ c₂ _ _ _ ihl ihr =>
    cases c₁ <;> cases c₂ <;> simp only [Color.raise, depth] at * <;> omega

lemma pow_le_length (bal : Balanced t c n) : 2 ^ n ≤ t.toList.length + 1 := by
  induction bal with
  | nil => exact Nat.le_refl 1
  | red _ _ ihl ihr =>
    simp only [toList_node, List.length_append, List.length_cons]
    omega
  | black _ _ ihl ihr =>
    simp only [toList_node, List.length_append, List.length_cons, Nat.pow_succ]
    omega

lemma depth_le_log (bal : Balanced t .black n) : t.depth ≤ 2 * (t.toList.length + 1).log2 := by
  have height : n ≤ (t.toList.length + 1).log2 :=
    (Nat.le_log2 (Nat.succ_ne_zero _)).mpr bal.pow_le_length
  have depth : t.depth + 1 ≤ 2 * n + 1 := bal.raise_depth_le
  omega

lemma red_cases (bal : Balanced t .red n) (d : Side) :
    ∃ near x far, t = join d .red near x far ∧ Balanced near .black n ∧ Balanced far .black n := by
  cases bal with
  | @red l r x n left right =>
    cases d
    · exact ⟨l, x, r, rfl, left, right⟩
    · exact ⟨r, x, l, rfl, right, left⟩

lemma black_cases (bal : Balanced t .black (n + 1)) (d : Side) :
    ∃ near x far c₁ c₂, t = join d .black near x far ∧ Balanced near c₁ n ∧ Balanced far c₂ n := by
  cases bal with
  | @black l r x c₁ c₂ n left right =>
    cases d
    · exact ⟨l, x, r, c₁, c₂, rfl, left, right⟩
    · exact ⟨r, x, l, c₂, c₁, rfl, right, left⟩

lemma blacken_red (bal : Balanced t .red n) : Balanced t.blacken .black (n + 1) := by
  cases bal with
  | red left right => exact .black left right

lemma blacken_black (bal : Balanced t .black n) : t.blacken = t := by
  cases bal <;> rfl

end Balanced

end RbTree

/-! ## Contexts -/

/-- One step of a path: the hole is the subtree on `side`. -/
structure Frame (α : Type) where
  side : Side
  color : Color
  label : α
  sibling : RbTree α

/-- The path from a subtree up to the root, innermost step first. -/
abbrev Ctx (α : Type) := List (Frame α)

variable {α : Type}

def Frame.fill (f : Frame α) (t : RbTree α) : RbTree α :=
  RbTree.join f.side f.color t f.label f.sibling

def plug : Ctx α → RbTree α → RbTree α
  | [], t => t
  | f :: ctx, t => plug ctx (f.fill t)

@[simp] lemma plug_nil (t : RbTree α) : plug [] t = t := rfl

@[simp] lemma plug_cons (f : Frame α) (ctx : Ctx α) (t : RbTree α) :
    plug (f :: ctx) t = plug ctx (f.fill t) := rfl

lemma plug_append (inner outer : Ctx α) (t : RbTree α) :
    plug (inner ++ outer) t = plug outer (plug inner t) := by
  induction inner generalizing t with
  | nil => rfl
  | cons f inner ih => exact ih _

def before : Ctx α → List α
  | [] => []
  | f :: ctx =>
    match f.side with
    | .left => before ctx
    | .right => before ctx ++ (f.sibling.toList ++ [f.label])

def after : Ctx α → List α
  | [] => []
  | f :: ctx =>
    match f.side with
    | .left => f.label :: f.sibling.toList ++ after ctx
    | .right => after ctx

lemma toList_plug (ctx : Ctx α) (t : RbTree α) :
    (plug ctx t).toList = before ctx ++ t.toList ++ after ctx := by
  induction ctx generalizing t with
  | nil => simp [before, after]
  | cons f ctx ih =>
    obtain ⟨side, color, label, sibling⟩ := f
    rw [plug_cons, ih]
    cases side <;> simp [Frame.fill, RbTree.join, before, after]

variable {ctx : Ctx α} {t : RbTree α}

lemma before_of_left (sides : ∀ f ∈ ctx, f.side = .left) : before ctx = [] := by
  induction ctx with
  | nil => rfl
  | cons f ctx ih =>
    have left := sides f List.mem_cons_self
    simp only [before, left]
    exact ih fun g mem => sides g (List.mem_cons_of_mem _ mem)

lemma toList_plug_congr {t' : RbTree α} (same : t'.toList = t.toList) :
    (plug ctx t').toList = (plug ctx t).toList := by
  rw [toList_plug, toList_plug, same]

lemma exists_plug_of_mem {x : α} (mem : x ∈ t.toList) :
    ∃ ctx c l r, t = plug ctx (.node c l x r) := by
  suffices general : ∀ ctx : Ctx α, ∃ ctx' c l r, plug ctx t = plug ctx' (.node c l x r) by
    exact general []
  induction t with
  | nil => simp at mem
  | node c l y r ihl ihr =>
    intro ctx
    simp only [RbTree.toList_node, List.mem_append, List.mem_cons] at mem
    rcases mem with inLeft | rfl | inRight
    · exact ihl inLeft (⟨.left, c, y, r⟩ :: ctx)
    · exact ⟨ctx, c, l, r, rfl⟩
    · exact ihr inRight (⟨.right, c, y, l⟩ :: ctx)

/-- Filling the hole with a `Balanced t c n` gives a balanced tree with a black root. -/
inductive Accepts : Ctx α → Color → Nat → Prop
  | top {n : Nat} : Accepts [] .black n
  | red {d : Side} {x : α} {sibling : RbTree α} {ctx : Ctx α} {n : Nat}
      (balanced : sibling.Balanced .black n) (outer : Accepts ctx .red n) :
      Accepts (⟨d, .red, x, sibling⟩ :: ctx) .black n
  | black {d : Side} {x : α} {sibling : RbTree α} {ctx : Ctx α} {c c' : Color} {n : Nat}
      (balanced : sibling.Balanced c' n) (outer : Accepts ctx .black (n + 1)) :
      Accepts (⟨d, .black, x, sibling⟩ :: ctx) c n

namespace Accepts

variable {ctx : Ctx α} {t : RbTree α} {c : Color} {n : Nat}

lemma balanced_plug (accepts : Accepts ctx c n) (bal : t.Balanced c n) :
    ∃ m, (plug ctx t).Balanced .black m := by
  induction accepts generalizing t with
  | top => exact ⟨_, bal⟩
  | red sibling _ ih => exact ih (bal.joinRed sibling)
  | black sibling _ ih => exact ih (bal.joinBlack sibling)

lemma of_red (accepts : Accepts ctx .red n) : Accepts ctx .black n := by
  cases accepts with
  | black sibling outer => exact .black sibling outer

lemma red_cases (accepts : Accepts ctx .red n) :
    ∃ d x sibling c' outer, ctx = ⟨d, .black, x, sibling⟩ :: outer ∧
      sibling.Balanced c' n ∧ Accepts outer .black (n + 1) := by
  cases accepts with
  | black sibling outer => exact ⟨_, _, _, _, _, rfl, sibling, outer⟩

/-- The innermost node of a context that accepts a black root: its sibling, and
what the rest of the context accepts in its place. -/
lemma cons_cases {d : Side} {x : α} {sibling : RbTree α}
    (accepts : Accepts (⟨d, c, x, sibling⟩ :: ctx) .black n) :
    ∃ c', sibling.Balanced c' n ∧ (c = .red → c' = .black) ∧ Accepts ctx c (c.raise n) := by
  cases accepts with
  | red balanced outer => exact ⟨_, balanced, fun _ => rfl, outer⟩
  | black balanced outer => exact ⟨_, balanced, nofun, outer⟩

lemma relabel {inner outer : Ctx α} {f : Frame α} (y : α)
    (accepts : Accepts (inner ++ f :: outer) c n) :
    Accepts (inner ++ { f with label := y } :: outer) c n := by
  induction inner generalizing c n with
  | nil =>
    cases accepts with
    | red balanced rest => exact .red balanced rest
    | black balanced rest => exact .black balanced rest
  | cons g inner ih =>
    cases accepts with
    | red balanced rest => exact .red balanced (ih rest)
    | black balanced rest => exact .black balanced (ih rest)

end Accepts

/-- A balanced tree splits, at any subtree, into a balanced subtree and a context
that accepts it. -/
lemma split_balanced {m : Nat}
    (bal : (plug ctx t).Balanced .black m) : ∃ c n, t.Balanced c n ∧ Accepts ctx c n := by
  induction ctx generalizing t with
  | nil => exact ⟨.black, m, bal, .top⟩
  | cons f ctx ih =>
    obtain ⟨d, color, x, sibling⟩ := f
    obtain ⟨c, n, filled, outer⟩ := ih bal
    cases color with
    | red =>
      cases d <;> cases filled with
      | red left right => first
          | exact ⟨.black, n, left, .red right outer⟩
          | exact ⟨.black, n, right, .red left outer⟩
    | black =>
      cases d <;> cases filled with
      | black left right => first
          | exact ⟨_, _, left, .black right outer⟩
          | exact ⟨_, _, right, .black left outer⟩

/-- What is left when a node of the given colour with at most one subtree `t` is
taken out: a red node leaves no gap, a black one leaves `t` one black node short. -/
def Gap : Color → Ctx α → RbTree α → Prop
  | .red, ctx, t => ∃ n, t.Balanced .black n ∧ Accepts ctx .black n
  | .black, ctx, t => ∃ c n, t.Balanced c n ∧ Accepts ctx .black (n + 1)

lemma gap_of_balanced {d : Side} {c : Color} {x : α} {m : Nat}
    (bal : (plug ctx (RbTree.join d c t x .nil)).Balanced .black m) : Gap c ctx t := by
  have inFrame : (plug (⟨d, c, x, .nil⟩ :: ctx) t).Balanced .black m := bal
  obtain ⟨c', n, filled, accepts⟩ := split_balanced inFrame
  cases accepts with
  | red _ outer => exact ⟨n, filled, outer.of_red⟩
  | black _ outer => exact ⟨c', n, filled, outer⟩

lemma Gap.relabel {inner outer : Ctx α} {f : Frame α} {c : Color} (y : α)
    (gap : Gap c (inner ++ f :: outer) t) :
    Gap c (inner ++ { f with label := y } :: outer) t := by
  cases c with
  | red =>
    obtain ⟨n, bal, accepts⟩ := gap
    exact ⟨n, bal, accepts.relabel y⟩
  | black =>
    obtain ⟨c, n, bal, accepts⟩ := gap
    exact ⟨c, n, bal, accepts.relabel y⟩

end AuroraOS.Lib.RedBlack
