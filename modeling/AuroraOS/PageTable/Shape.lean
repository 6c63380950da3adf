import AuroraOS.PageTable.Model
import Mathlib.Algebra.BigOperators.Group.Finset.Basic
import Mathlib.Order.Interval.Finset.Nat

/-!
# The shape of a table tree

`Shape m level a pages` says that `m` holds a tree of tables from the one at `a` down, in the set
`pages` and with no page used twice.  `look` is the way of a page number through the tables, `leaf`
its leaf entry in a PT and `large` the entry of its 2 MiB page.
-/

namespace AuroraOS.PageTable

open Lib Mem Finset

def pageIdx (level x : Nat) : Nat := x / 512 ^ level % 512

lemma tableIdx_eq (level vaddr : Nat) :
    tableIdx level vaddr = pageIdx level (vaddr / pageSize) := by
  rw [tableIdx, pageIdx, pow_add, Nat.pow_mul, ← Nat.div_div_eq_div_mul]
  rfl

lemma pageIdx_lt (level x : Nat) : pageIdx level x < 512 := Nat.mod_lt _ (by decide)

/-- An entry as a leaf: nothing when it is not present. -/
def leafEntry (e : Entry) : Option Entry := if has e ptePresent then some e else none

/-- The entry of a table of level `n + 1` leads to a table of level `n`: it is present, and
not a 2 MiB page. -/
def links (n : Nat) (e : Entry) : Bool := has e ptePresent && !(n == 0 && has e ptePs)

inductive Spot
  | missing
  | large (pde : Entry)
  | table (pt : Nat)

def look (m : Store) : Nat → Nat → Nat → Spot
  | 0, a, _ => .table a
  | n + 1, a, x =>
    let e := readEntry m a (pageIdx (n + 1) x)
    if links n e then look m n (pteAddr e) x
    else if has e ptePresent then .large e else .missing

def leaf (m : Store) (n a x : Nat) : Option Entry :=
  match look m n a x with
  | .table pt => leafEntry (readEntry m pt (pageIdx 0 x))
  | _ => none

def large (m : Store) (n a x : Nat) : Option Entry :=
  match look m n a x with
  | .large pde => some pde
  | _ => none

structure TablePage (a : Nat) : Prop where
  aligned : pageSize ∣ a
  reachable : a < kernelPhysMax

/-- The table at `a` with the parts below its entries `I`: the pages below each entry are
disjoint from each other and from the table. -/
structure Node (n : Nat) (below : Nat → Finset Nat → Prop) (I : Finset Nat) (m : Store) (a : Nat)
    (sub : Nat → Finset Nat) : Prop where
  page : TablePage a
  self : ∀ i ∈ I, a ∉ sub i
  apart : ∀ i ∈ I, ∀ k ∈ I, i ≠ k → Disjoint (sub i) (sub k)
  empty : ∀ i ∈ I, links n (readEntry m a i) = false → sub i = ∅
  child : ∀ i ∈ I, links n (readEntry m a i) = true → below (pteAddr (readEntry m a i)) (sub i)

@[irreducible]
def tableSlots : Finset Nat := range 512

lemma mem_tableSlots {i : Nat} : i ∈ tableSlots ↔ i < 512 := by
  rw [tableSlots, mem_range]

/-- The indices of the user half of a PML4 that belong to the process alone. -/
@[irreducible]
def userSlots : Finset Nat := Ico 1 256

lemma mem_userSlots {i : Nat} : i ∈ userSlots ↔ 1 ≤ i ∧ i < 256 := by
  rw [userSlots, mem_Ico]

lemma userSlots_subset : userSlots ⊆ tableSlots := by
  intro i mem
  have range := mem_userSlots.mp mem
  exact mem_tableSlots.mpr (by omega)

def pagesOf (I : Finset Nat) (a : Nat) (sub : Nat → Finset Nat) : Finset Nat :=
  insert a (I.biUnion sub)

/-- The memory holds a tree of this level at `a`. -/
def Shape (m : Store) : Nat → Nat → Finset Nat → Prop
  | 0, a, pages => TablePage a ∧ pages = {a}
  | n + 1, a, pages =>
    ∃ sub, pages = pagesOf tableSlots a sub ∧ Node n (Shape m n) tableSlots m a sub

def ShapeIn (I : Finset Nat) (m : Store) (n a : Nat) (pages : Finset Nat) : Prop :=
  ∃ sub, pages = pagesOf I a sub ∧ Node n (Shape m n) I m a sub

section Basic

variable {m m' : Store} {n a x y : Nat} {pages I : Finset Nat} {sub : Nat → Finset Nat}

variable {i b pt y : Nat}

lemma sub_subset_pagesOf (mem : i ∈ I) : sub i ⊆ pagesOf I a sub := by
  intro b inSub
  exact mem_insert_of_mem (mem_biUnion.mpr ⟨i, mem, inSub⟩)

lemma self_mem_pagesOf : a ∈ pagesOf I a sub := mem_insert_self _ _

lemma Shape.root_mem (shape : Shape m n a pages) : a ∈ pages := by
  cases n with
  | zero =>
    obtain ⟨-, rfl⟩ := shape
    exact mem_singleton_self a
  | succ n =>
    obtain ⟨sub, rfl, -⟩ := shape
    exact self_mem_pagesOf

lemma Shape.rootPage (shape : Shape m n a pages) : TablePage a := by
  cases n with
  | zero => exact shape.1
  | succ n =>
    obtain ⟨sub, -, node⟩ := shape
    exact node.page

lemma Node.congr {below below' : Nat → Finset Nat → Prop} (node : Node n below I m a sub)
    (bound : I ⊆ tableSlots) (same : SamePage m m' a)
    (kept : ∀ i ∈ I, below (pteAddr (readEntry m a i)) (sub i) →
      below' (pteAddr (readEntry m a i)) (sub i)) : Node n below' I m' a sub where
  page := node.page
  self := node.self
  apart := node.apart
  empty i mem := by
    rw [readEntry_congr same (mem_tableSlots.mp (bound mem))]
    exact node.empty i mem
  child i mem := by
    rw [readEntry_congr same (mem_tableSlots.mp (bound mem))]
    exact fun linked => kept i mem (node.child i mem linked)

lemma Shape.congr (shape : Shape m n a pages) (same : ∀ b ∈ pages, SamePage m m' b) :
    Shape m' n a pages := by
  induction n generalizing a pages with
  | zero => exact shape
  | succ n ih =>
    obtain ⟨sub, rfl, node⟩ := shape
    refine ⟨sub, rfl, node.congr (Subset.refl _) (same a self_mem_pagesOf) ?_⟩
    exact fun i mem below => ih below fun d inSub => same d (sub_subset_pagesOf mem inSub)

lemma Node.tablePage {below : Nat → Finset Nat → Prop} (node : Node n below I m a sub)
    (pages : ∀ i ∈ I, ∀ b, below b (sub i) → ∀ c ∈ sub i, TablePage c)
    (mem : b ∈ pagesOf I a sub) : TablePage b := by
  rcases mem_insert.mp mem with rfl | mem
  · exact node.page
  obtain ⟨i, inI, inSub⟩ := mem_biUnion.mp mem
  cases linked : links n (readEntry m a i) with
  | false =>
    rw [node.empty i inI linked] at inSub
    exact absurd inSub (notMem_empty b)
  | true => exact pages i inI _ (node.child i inI linked) b inSub

lemma Shape.tablePage (shape : Shape m n a pages) (mem : b ∈ pages) : TablePage b := by
  induction n generalizing a b pages with
  | zero =>
    obtain ⟨page, rfl⟩ := shape
    rw [mem_singleton.mp mem]
    exact page
  | succ n ih =>
    obtain ⟨sub, rfl, node⟩ := shape
    exact node.tablePage (fun _ _ _ below _ inSub => ih below inSub) mem

lemma ShapeIn.tablePage (shape : ShapeIn I m n a pages) (mem : b ∈ pages) : TablePage b := by
  obtain ⟨sub, rfl, node⟩ := shape
  exact node.tablePage (fun _ _ _ below _ inSub => below.tablePage inSub) mem

lemma leaf_of_table (found : look m n a x = .table pt) :
    leaf m n a x = leafEntry (readEntry m pt (pageIdx 0 x)) := by
  rw [leaf, found]

lemma leaf_kept {a' : Nat} (way : look m' n a' y = look m n a x)
    (kept : ∀ pt, look m n a x = .table pt →
      readEntry m' pt (pageIdx 0 y) = readEntry m pt (pageIdx 0 x)) :
    leaf m' n a' y = leaf m n a x := by
  rw [leaf, leaf, way]
  split
  · next pt found => rw [kept pt found]
  · rfl

lemma large_kept {a' : Nat} (way : look m' n a' y = look m n a x) :
    large m' n a' y = large m n a x := by
  rw [large, large, way]

lemma look_succ : look m (n + 1) a x = .table pt ↔
    links n (readEntry m a (pageIdx (n + 1) x)) = true ∧
      look m n (pteAddr (readEntry m a (pageIdx (n + 1) x))) x = .table pt := by
  rw [look]
  split
  · next linked => simp [linked]
  next loose =>
    constructor
    · intro found
      split at found <;> cases found
    · rintro ⟨linked, -⟩
      exact absurd linked loose

lemma Shape.look_mem (shape : Shape m n a pages) (found : look m n a x = .table pt) :
    pt ∈ pages ∧ TablePage pt := by
  induction n generalizing a pages with
  | zero =>
    obtain ⟨page, rfl⟩ := shape
    obtain rfl : a = pt := Spot.table.inj found
    exact ⟨mem_singleton_self a, page⟩
  | succ n ih =>
    obtain ⟨sub, rfl, node⟩ := shape
    obtain ⟨linked, found⟩ := look_succ.mp found
    have mem := mem_tableSlots.mpr (pageIdx_lt (n + 1) x)
    obtain ⟨inSub, page⟩ := ih (node.child _ mem linked) found
    exact ⟨sub_subset_pagesOf mem inSub, page⟩

lemma Shape.look_congr (shape : Shape m n a pages) (same : ∀ b ∈ pages, SamePage m m' b)
    (x : Nat) : look m' n a x = look m n a x := by
  induction n generalizing a pages with
  | zero => rfl
  | succ n ih =>
    obtain ⟨sub, rfl, node⟩ := shape
    have mem := mem_tableSlots.mpr (pageIdx_lt (n + 1) x)
    rw [look, look, readEntry_congr (same a self_mem_pagesOf) (pageIdx_lt _ _)]
    split
    · next linked =>
        exact ih (node.child _ mem linked) fun d inSub =>
          same d (sub_subset_pagesOf mem inSub)
    · rfl

lemma Shape.leaf_congr (shape : Shape m n a pages) (same : ∀ b ∈ pages, SamePage m m' b)
    (x : Nat) : leaf m' n a x = leaf m n a x := by
  apply leaf_kept (shape.look_congr same x)
  intro pt found
  exact readEntry_congr (same pt (shape.look_mem found).1) (pageIdx_lt _ _)

section Root

variable (shape : ShapeIn I m n a pages) (bound : I ⊆ tableSlots)
include shape

lemma ShapeIn.rootPage : TablePage a := by
  obtain ⟨sub, rfl, node⟩ := shape
  exact node.page

lemma ShapeIn.look_mem {pt : Nat} (inside : pageIdx (n + 1) x ∈ I)
    (found : look m (n + 1) a x = .table pt) : pt ∈ pages ∧ pt ≠ a ∧ TablePage pt := by
  obtain ⟨sub, rfl, node⟩ := shape
  obtain ⟨linked, found⟩ := look_succ.mp found
  obtain ⟨inSub, page⟩ := (node.child _ inside linked).look_mem found
  refine ⟨sub_subset_pagesOf inside inSub, ?_, page⟩
  rintro rfl
  exact node.self _ inside inSub

lemma ShapeIn.look_congr (same : ∀ b ∈ pages, SamePage m m' b)
    (inside : pageIdx (n + 1) x ∈ I) : look m' (n + 1) a x = look m (n + 1) a x := by
  obtain ⟨sub, rfl, node⟩ := shape
  rw [look, look, readEntry_congr (same a self_mem_pagesOf) (pageIdx_lt _ _)]
  split
  · next linked =>
      exact (node.child _ inside linked).look_congr (fun d inSub =>
        same d (sub_subset_pagesOf inside inSub)) x
  · rfl

lemma ShapeIn.leaf_congr (same : ∀ b ∈ pages, SamePage m m' b)
    (inside : pageIdx (n + 1) x ∈ I) : leaf m' (n + 1) a x = leaf m (n + 1) a x := by
  apply leaf_kept (shape.look_congr same inside)
  intro pt found
  exact readEntry_congr (same pt (shape.look_mem inside found).1) (pageIdx_lt _ _)

end Root

lemma leaf_zero : leaf m 0 a x = leafEntry (readEntry m a (pageIdx 0 x)) :=
  leaf_of_table rfl

lemma large_zero : large m 0 a x = none := rfl

lemma leaf_succ : leaf m (n + 1) a x = if links n (readEntry m a (pageIdx (n + 1) x)) then
      leaf m n (pteAddr (readEntry m a (pageIdx (n + 1) x))) x else none := by
  rw [leaf, look]
  generalize readEntry m a (pageIdx (n + 1) x) = e
  cases links n e <;> cases has e ptePresent <;> rfl

lemma large_succ : large m (n + 1) a x = if links n (readEntry m a (pageIdx (n + 1) x)) then
      large m n (pteAddr (readEntry m a (pageIdx (n + 1) x))) x
    else leafEntry (readEntry m a (pageIdx (n + 1) x)) := by
  rw [large, look, leafEntry]
  generalize readEntry m a (pageIdx (n + 1) x) = e
  cases links n e <;> cases has e ptePresent <;> rfl

end Basic

end AuroraOS.PageTable
