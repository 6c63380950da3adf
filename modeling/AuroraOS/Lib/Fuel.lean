import Mathlib.Data.Nat.Notation

/-!
# Loops with fuel

A loop that nothing bounds is a function of its fuel, `none` when the fuel is spent.  `Returns f a`
says that every fuel beyond some bound gives `a`; a loop is `Steady` when more fuel does not change
its result.
-/

namespace AuroraOS.Lib

open Option

variable {α β : Type}

def Returns (f : Nat → Option α) (a : α) : Prop :=
  ∃ bound, ∀ fuel, bound ≤ fuel → f fuel = some a

namespace Returns

variable {f : Nat → Option α} {a b : α}

lemma unique (first : Returns f a) (second : Returns f b) : a = b := by
  obtain ⟨m, first⟩ := first
  obtain ⟨n, second⟩ := second
  have left := first (max m n) (Nat.le_max_left m n)
  have right := second (max m n) (Nat.le_max_right m n)
  exact some.inj (left.symm.trans right)

lemma exists_eq (ends : Returns f a) : ∃ fuel, f fuel = some a := by
  obtain ⟨bound, ends⟩ := ends
  exact ⟨bound, ends bound (Nat.le_refl bound)⟩

lemma of_succ (bound : Nat) (ends : ∀ fuel, bound ≤ fuel → f (fuel + 1) = some a) :
    Returns f a := by
  refine ⟨bound + 1, fun fuel enough => ?_⟩
  cases fuel with
  | zero => cases enough
  | succ fuel => exact ends fuel (Nat.le_of_succ_le_succ enough)

lemma bind {g : α → Nat → Option β} {c : β} (first : Returns f a) (second : Returns (g a) c) :
    Returns (fun fuel => (f fuel).bind fun x => g x fuel) c := by
  obtain ⟨m, first⟩ := first
  obtain ⟨n, second⟩ := second
  refine ⟨max m n, fun fuel enough => ?_⟩
  simp only
  rw [first fuel (Nat.le_trans (Nat.le_max_left m n) enough), bind_some]
  exact second fuel (Nat.le_trans (Nat.le_max_right m n) enough)

lemma map {g : α → β} (first : Returns f a) : Returns (fun fuel => (f fuel).map g) (g a) := by
  obtain ⟨bound, first⟩ := first
  exact ⟨bound, fun fuel enough => by simp only [first fuel enough, map_some]⟩

lemma congr {g : Nat → Option α} (ends : Returns f a) (same : ∀ fuel, g fuel = f fuel) :
    Returns g a := by
  obtain ⟨bound, ends⟩ := ends
  exact ⟨bound, fun fuel enough => (same fuel).trans (ends fuel enough)⟩

end Returns

def Extends (x y : Option α) : Prop := ∀ a, x = some a → y = some a

namespace Extends

variable {x y : Option α}

lemma refl (x : Option α) : Extends x x := fun _ same => same

lemma none : Extends none x := by
  rintro a ⟨⟩

lemma bind {g k : α → Option β} (first : Extends x y) (second : ∀ a, Extends (g a) (k a)) :
    Extends (x.bind g) (y.bind k) := by
  intro c result
  obtain ⟨a, here, there⟩ := bind_eq_some_iff.mp result
  exact bind_eq_some_iff.mpr ⟨a, first a here, second a c there⟩

lemma ite {p : Prop} [Decidable p] {x' y' : Option α} (yes : Extends x y)
    (no : Extends x' y') : Extends (if p then x else x') (if p then y else y') := by
  split
  · exact yes
  · exact no

end Extends

/-- More fuel does not change a result. -/
def Steady (f : Nat → Option α) : Prop :=
  ∀ fuel a, f fuel = some a → f (fuel + 1) = some a

namespace Steady

variable {f : Nat → Option α} {a : α}

lemma returns {fuel : Nat} (steady : Steady f) (result : f fuel = some a) : Returns f a := by
  refine ⟨fuel, fun more enough => ?_⟩
  obtain ⟨extra, rfl⟩ := Nat.exists_eq_add_of_le enough
  clear enough
  induction extra with
  | zero => exact result
  | succ extra ih => exact steady _ _ ih

lemma of_extends (extending : ∀ fuel, Extends (f fuel) (f (fuel + 1))) : Steady f := extending

lemma const (o : Option α) : Steady fun _ => o := fun _ => Extends.refl o

lemma bind {g : α → Nat → Option β} (first : Steady f) (second : ∀ x, Steady (g x)) :
    Steady fun fuel => (f fuel).bind fun x => g x fuel :=
  fun fuel => Extends.bind (first fuel) fun x => second x fuel

lemma map {g : α → β} (first : Steady f) : Steady fun fuel => (f fuel).map g := by
  intro fuel c result
  obtain ⟨x, here, there⟩ := map_eq_some_iff.mp result
  exact map_eq_some_iff.mpr ⟨x, first fuel x here, there⟩

lemma ite {p : Prop} [Decidable p] {g : Nat → Option α} (yes : Steady f) (no : Steady g) :
    Steady fun fuel => if p then f fuel else g fuel :=
  fun fuel => Extends.ite (yes fuel) (no fuel)

end Steady

end AuroraOS.Lib
