import Mathlib.Tactic.Common

/-!
# Computations with errors

What a computation that returns has done in its parts.  `Avoids bad x P` says that `x` does not stop
with the error `bad`, and that what it returns has `P`.
-/

namespace AuroraOS.Lib

variable {ε α β : Type} {bad : ε}

section

variable {x : Except ε α} {a : α} {b : β}

lemma bind_ok {f : α → Except ε β} (ran : x >>= f = .ok b) : ∃ a, x = .ok a ∧ f a = .ok b := by
  cases x with
  | error _ => cases ran
  | ok a => exact ⟨a, rfl, ran⟩

lemma map_ok {f : α → β} (ran : x.map f = .ok b) : ∃ a, x = .ok a ∧ f a = b := by
  cases x with
  | error _ => cases ran
  | ok a => exact ⟨a, rfl, Except.ok.inj ran⟩

end

/-- Not the error `bad`, and a result with `P` if there is one. -/
def Avoids (bad : ε) (x : Except ε α) (P : α → Prop) : Prop :=
  match x with
  | .ok a => P a
  | .error e => e ≠ bad

namespace Avoids

variable {x : Except ε α} {P Q : α → Prop}

lemma ok {a : α} (holds : P a) : Avoids bad (.ok a) P := holds

lemma error {e : ε} (other : e ≠ bad) : Avoids bad (.error e : Except ε α) P := other

variable (avoids : Avoids bad x P)
include avoids

lemma ne : x ≠ .error bad := by
  rintro rfl
  exact avoids rfl

lemma of_ok {a : α} (is : x = .ok a) : P a := by
  rw [is] at avoids
  exact avoids

lemma mono (weaker : ∀ a, P a → Q a) : Avoids bad x Q := by
  cases x with
  | ok a => exact weaker a avoids
  | error e => exact avoids

lemma and_eq : Avoids bad x fun a => x = .ok a ∧ P a := by
  cases x with
  | ok a => exact ⟨rfl, avoids⟩
  | error e => exact avoids

omit avoids

lemma bind {f : α → Except ε β} {R : β → Prop} (first : Avoids bad x P)
    (second : ∀ a, P a → Avoids bad (f a) R) : Avoids bad (x >>= f) R := by
  cases x with
  | ok a => exact second a first
  | error e => exact first

lemma map {f : α → β} {R : β → Prop} (first : Avoids bad x fun a => R (f a)) :
    Avoids bad (x.map f) R := by
  cases x with
  | ok a => exact first
  | error e => exact first

lemma ite {p : Prop} [Decidable p] {y : Except ε α} (yes : p → Avoids bad x P)
    (no : ¬p → Avoids bad y P) : Avoids bad (if p then x else y) P := by
  split
  · exact yes ‹_›
  · exact no ‹_›

end Avoids

end AuroraOS.Lib
