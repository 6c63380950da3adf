import AuroraOS.PageTable.Shape

/-!
# Accesses of a process

The walk of the kernel and of the processor, against the way of a page number through the
tables: an address stands for the one that its leaf entry, or its 2 MiB page, gives.
-/

namespace AuroraOS.PageTable

open Lib Mem

/-- The end of a walk, against the way through the tables. -/
def Spot.Matches (s : Kmem) (vaddr : Nat) : Spot → Found → Prop
  | .missing, .missing => True
  | .large pde, .huge pd => entry s pd (tableIdx 1 vaddr) = pde
  | .table pt, .table pt' => pt' = pt
  | _, _ => False

section Walk

variable {s : Kmem} {n a vaddr : Nat} {pages I : Finset Nat}

lemma walk_matches_succ
    (below : links n (readEntry s.ram a (pageIdx (n + 1) (vaddr / pageSize))) = true →
      let next := pteAddr (readEntry s.ram a (pageIdx (n + 1) (vaddr / pageSize)))
      next < kernelPhysMax ∧ ∃ found, walk s n next vaddr = some found ∧
        (look s.ram n next (vaddr / pageSize)).Matches s vaddr found) :
    ∃ found, walk s (n + 1) a vaddr = some found ∧
      (look s.ram (n + 1) a (vaddr / pageSize)).Matches s vaddr found := by
  have current : entry s a (tableIdx (n + 1) vaddr) =
      readEntry s.ram a (pageIdx (n + 1) (vaddr / pageSize)) := by
    rw [entry, tableIdx_eq]
  rw [walk, look, current]
  generalize here : readEntry s.ram a (pageIdx (n + 1) (vaddr / pageSize)) = e at below current
  cases linked : links n e with
  | true =>
    obtain ⟨reach, found, walks, agrees⟩ := below linked
    rw [links, Bool.and_eq_true, Bool.not_eq_true', Bool.and_eq_false_iff] at linked
    refine ⟨found, ?_, agrees⟩
    have small : ¬ (n = 0 ∧ has e ptePs = true) := by
      rintro ⟨rfl, large⟩
      simp [large] at linked
    simp [linked.1, small, physToVirt, not_le.mpr reach, walks]
  | false =>
    rw [links] at linked
    cases present : has e ptePresent with
    | false => exact ⟨.missing, rfl, trivial⟩
    | true =>
      rw [present, Bool.true_and, Bool.not_eq_false', Bool.and_eq_true, beq_iff_eq] at linked
      obtain ⟨rfl, large⟩ := linked
      refine ⟨.huge a, ?_, current⟩
      simp [large]

lemma Shape.walk_matches (shape : Shape s.ram n a pages) :
    ∃ found, walk s n a vaddr = some found ∧
      (look s.ram n a (vaddr / pageSize)).Matches s vaddr found := by
  induction n generalizing a pages with
  | zero => exact ⟨.table a, rfl, rfl⟩
  | succ n ih =>
    obtain ⟨sub, rfl, node⟩ := shape
    apply walk_matches_succ
    intro linked
    have child := node.child _ (mem_tableSlots.mpr (pageIdx_lt (n + 1) _)) linked
    exact ⟨child.rootPage.reachable, ih child⟩

lemma ShapeIn.walk_matches (shape : ShapeIn I s.ram n a pages)
    (inside : pageIdx (n + 1) (vaddr / pageSize) ∈ I) :
    ∃ found, walk s (n + 1) a vaddr = some found ∧
      (look s.ram (n + 1) a (vaddr / pageSize)).Matches s vaddr found := by
  obtain ⟨sub, rfl, node⟩ := shape
  apply walk_matches_succ
  intro linked
  have child := node.child _ inside linked
  exact ⟨child.rootPage.reachable, child.walk_matches⟩

end Walk

section Translate

variable {s : Kmem} {a vaddr : Nat} {pages I : Finset Nat} (shape : ShapeIn I s.ram 2 a pages)
  (inside : pageIdx 3 (vaddr / pageSize) ∈ I)
include shape inside

lemma ShapeIn.translate_eq (small : large s.ram 3 a (vaddr / pageSize) = none) :
    translate s a vaddr =
      (leaf s.ram 3 a (vaddr / pageSize)).map fun pte => (pte, physOf pte vaddr) := by
  obtain ⟨stop, walks, agrees⟩ := shape.walk_matches inside
  rw [translate, walks, leaf]
  rw [large] at small
  cases spot : look s.ram 3 a (vaddr / pageSize) with
  | missing =>
    rw [spot] at agrees
    cases stop with
    | missing => rfl
    | huge pd => exact absurd agrees id
    | table pt => exact absurd agrees id
  | large pde =>
    rw [spot] at small
    cases small
  | table pt =>
    rw [spot] at agrees
    cases stop with
    | missing => exact absurd agrees id
    | huge pd => exact absurd agrees id
    | table pt' =>
      obtain rfl : pt' = pt := agrees
      have current : entry s pt' (tableIdx 0 vaddr) =
          readEntry s.ram pt' (pageIdx 0 (vaddr / pageSize)) := by
        rw [entry, tableIdx_eq]
      simp only [current, leafEntry]
      split <;> rfl

lemma ShapeIn.translate_large {pde : Entry}
    (found : large s.ram 3 a (vaddr / pageSize) = some pde) :
    translate s a vaddr = some (pde, largePhysOf pde vaddr) := by
  obtain ⟨stop, walks, agrees⟩ := shape.walk_matches inside
  rw [translate, walks]
  rw [large] at found
  cases spot : look s.ram 3 a (vaddr / pageSize) with
  | missing =>
    rw [spot] at found
    cases found
  | table pt =>
    rw [spot] at found
    cases found
  | large pde' =>
    rw [spot] at found agrees
    obtain rfl := Option.some.inj found
    cases stop with
    | missing => exact absurd agrees id
    | table pt => exact absurd agrees id
    | huge pd =>
      have current : entry s pd (tableIdx 1 vaddr) = pde' := agrees
      simp only [current]

/-- Nothing is mapped where there is neither a leaf entry nor a 2 MiB page. -/
lemma ShapeIn.translate_eq_none : translate s a vaddr = none ↔
    leaf s.ram 3 a (vaddr / pageSize) = none ∧ large s.ram 3 a (vaddr / pageSize) = none := by
  cases found : large s.ram 3 a (vaddr / pageSize) with
  | none =>
    rw [shape.translate_eq inside found, Option.map_eq_none_iff]
    simp
  | some pde =>
    rw [shape.translate_large inside found]
    simp

end Translate

end AuroraOS.PageTable
