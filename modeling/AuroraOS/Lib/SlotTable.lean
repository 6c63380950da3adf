import Mathlib.Data.List.Basic

/-!
# Tables of slots

A table is an array of slots, each free or with a binding of a key to a value.  To store a binding
in a slot drops the old binding of that slot only.
-/

namespace AuroraOS.Lib

open Function

variable {ι K V : Type} {cells : ι → Option (K × V)} {k k' : K} {v v' : V} {target : ι}

/-- Some slot binds the key to the value. -/
def Binds (cells : ι → Option (K × V)) (k : K) (v : V) : Prop := ∃ i, cells i = some (k, v)

/-- No key is bound in two slots. -/
def Distinct (cells : ι → Option (K × V)) : Prop :=
  ∀ ⦃i j k v w⦄, cells i = some (k, v) → cells j = some (k, w) → i = j

lemma Distinct.of_empty (empty : ∀ i, cells i = none) : Distinct cells := by
  intro i j k v w here
  rw [empty i] at here
  cases here

/-- The first of the slots listed that is not valid, or else the oldest one of them and `target`. -/
def victim (valid : ι → Bool) (age : ι → BitVec 32) : List ι → ι → BitVec 32 → ι
  | [], target, _ => target
  | i :: rest, target, oldestAge =>
    if !valid i then i
    else if (age i).slt oldestAge then victim valid age rest i (age i)
    else victim valid age rest target oldestAge

section Put

variable [DecidableEq ι]

lemma binds_put : Binds (update cells target (some (k, v))) k v :=
  ⟨target, update_self ..⟩

lemma Binds.put (binds : Binds cells k' v') (kept : ∀ w, cells target ≠ some (k', w)) :
    Binds (update cells target (some (k, v))) k' v' := by
  obtain ⟨i, here⟩ := binds
  have other : i ≠ target := by
    rintro rfl
    exact kept v' here
  exact ⟨i, by rw [update_of_ne other, here]⟩

lemma Distinct.put (distinct : Distinct cells) (fresh : ∀ i w, cells i ≠ some (k, w)) :
    Distinct (update cells target (some (k, v))) := by
  intro i j k' w w' here there
  rcases eq_or_ne i target with rfl | notI
  · rcases eq_or_ne j i with rfl | notJ
    · rfl
    · rw [update_self] at here
      rw [update_of_ne notJ] at there
      cases here
      exact absurd there (fresh j w')
  · rw [update_of_ne notI] at here
    rcases eq_or_ne j target with rfl | notJ
    · rw [update_self] at there
      cases there
      exact absurd here (fresh i w)
    · rw [update_of_ne notJ] at there
      exact distinct here there

end Put

lemma Distinct.find (distinct : Distinct cells) (binds : Binds cells k v) {order : List ι}
    (complete : ∀ i, i ∈ order) {test : ι → Bool}
    (tests : ∀ i, test i = true ↔ ∃ w, cells i = some (k, w)) :
    ∃ i, order.find? test = some i ∧ cells i = some (k, v) := by
  obtain ⟨i, here⟩ := binds
  cases found : order.find? test with
  | none =>
    have missed := List.find?_eq_none.mp found i (complete i)
    exact absurd ((tests i).mpr ⟨v, here⟩) missed
  | some j =>
    obtain ⟨w, there⟩ := (tests j).mp (List.find?_some found)
    cases distinct here there
    exact ⟨i, rfl, here⟩

end AuroraOS.Lib
