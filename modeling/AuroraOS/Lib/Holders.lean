import Mathlib.Data.Finset.Card

/-!
# Slots that hold objects

A finite set of slots, each empty or holding an object: the slots that hold an object, and
how filling and clearing a slot changes their number.
-/

namespace AuroraOS.Lib

open Function Finset

variable {S O : Type} [DecidableEq O]

/-- The slots of `A` that hold `o`. -/
def holders (A : Finset S) (slot : S → Option O) (o : O) : Finset S :=
  A.filter fun s => slot s = some o

variable {A B : Finset S} {slot slot' : S → Option O} {s : S} {o p : O}

lemma mem_holders : s ∈ holders A slot o ↔ s ∈ A ∧ slot s = some o := mem_filter

lemma holders_congr (same : ∀ s ∈ A, slot' s = slot s) :
    holders A slot' o = holders A slot o := by
  apply filter_congr
  intro s mem
  rw [same s mem]

lemma holders_extend (within : A ⊆ B) (empty : ∀ s ∈ B, s ∉ A → slot s = none) :
    holders B slot o = holders A slot o := by
  ext t
  rw [mem_holders, mem_holders]
  constructor
  · intro ⟨inB, held⟩
    by_contra outside
    have inA : t ∉ A := fun inA => outside ⟨inA, held⟩
    rw [empty t inB inA] at held
    cases held
  · exact fun ⟨inA, held⟩ => ⟨within inA, held⟩

variable [DecidableEq S]

lemma holders_update_of_ne {v : Option O} (before : slot s ≠ some o) (after : v ≠ some o) :
    holders A (update slot s v) o = holders A slot o := by
  ext t
  rw [mem_holders, mem_holders]
  by_cases here : t = s
  · simp [here, before, after]
  · simp [here]

lemma card_holders_fill (mem : s ∈ A) (empty : slot s = none) :
    (holders A (update slot s (some o)) o).card = (holders A slot o).card + 1 := by
  have grown : holders A (update slot s (some o)) o = insert s (holders A slot o) := by
    ext t
    rw [mem_holders, mem_insert, mem_holders]
    by_cases here : t = s
    · simp [here, mem]
    · simp [here]
  rw [grown, card_insert_of_notMem]
  simp [mem_holders, empty]

lemma card_holders_clear (mem : s ∈ A) (held : slot s = some o) :
    (holders A (update slot s none) o).card = (holders A slot o).card - 1 := by
  have shrunk : holders A (update slot s none) o = (holders A slot o).erase s := by
    ext t
    rw [mem_holders, mem_erase, mem_holders]
    by_cases here : t = s
    · simp [here]
    · simp [here]
  rw [shrunk, card_erase_of_mem (mem_holders.mpr ⟨mem, held⟩)]

end AuroraOS.Lib
