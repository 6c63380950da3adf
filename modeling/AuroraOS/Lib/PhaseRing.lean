import Mathlib.Data.Nat.ModEq

/-!
# Rings with a phase tag

Positions of a ring of `cap` cells are counted without wrapping; position `i` is the cell `i % cap`,
used in pass `i / cap` and tagged with the parity of the pass, which tells a reader whether the cell
has been written for it.
-/

namespace AuroraOS.Lib

open Nat

variable {cap i c p : Nat} {tags tags' : Nat → Bool}

/-- The tag of a position: set in the first pass, and in every second one. -/
def passTag (cap i : Nat) : Bool := i / cap % 2 == 0

lemma passTag_zero (cap : Nat) : passTag cap 0 = true := by simp [passTag]

lemma passTag_add (positive : 0 < cap) : passTag cap (i + cap) = !passTag cap i := by
  simp only [passTag, add_div_right i positive]
  rcases mod_two_eq_zero_or_one (i / cap) with even | odd
  · have next : (i / cap + 1) % 2 = 1 := by omega
    simp [even, next]
  · have next : (i / cap + 1) % 2 = 0 := by omega
    simp [odd, next]

lemma passTag_succ (positive : 0 < cap) :
    passTag cap (i + 1) = if (i % cap + 1) % cap = 0 then !passTag cap i else passTag cap i := by
  have below := mod_lt i positive
  have split := div_add_mod i cap
  split
  · next wraps =>
      have last : i % cap + 1 = cap := by
        by_contra other
        rw [mod_eq_of_lt (by omega)] at wraps
        omega
      have start : i + 1 = cap * (i / cap + 1) := by
        rw [mul_add, mul_one]
        omega
      have pass : (i + 1) / cap = (i + cap) / cap := by
        rw [start, Nat.mul_div_cancel_left _ positive, Nat.add_div_right i positive]
      rw [passTag, pass]
      exact passTag_add positive
  · next stays =>
      have small : i % cap + 1 < cap := by
        by_contra large
        apply stays
        rw [show i % cap + 1 = cap by omega, mod_self]
      have pass : (i + 1) / cap = i / cap := by
        apply Nat.div_eq_of_lt_le
        · rw [mul_comm]
          omega
        · rw [mul_comm, mul_add, mul_one]
          omega
      rw [passTag, pass]
      rfl

lemma mod_succ (i cap : Nat) : (i % cap + 1) % cap = (i + 1) % cap := mod_add_mod i cap 1

/-- The tags after `p` writes: every cell still shows the opposite of what its next write
will set. -/
def Tagged (cap : Nat) (tags : Nat → Bool) (p : Nat) : Prop :=
  ∀ i, p ≤ i → i < p + cap → tags (i % cap) = !passTag cap i

lemma Tagged.start (clear : ∀ j < cap, tags j = false) : Tagged cap tags 0 := by
  intro i _ inside
  have small : i < cap := by omega
  rw [mod_eq_of_lt small, clear i small, passTag, div_eq_of_lt small]
  rfl

lemma Tagged.write (tagged : Tagged cap tags p) (positive : 0 < cap)
    (written : tags' (p % cap) = passTag cap p)
    (others : ∀ j, j ≠ p % cap → tags' j = tags j) : Tagged cap tags' (p + 1) := by
  intro i low high
  rcases lt_or_ge i (p + cap) with before | last
  · have other : i % cap ≠ p % cap := by
      intro same
      have multiple : cap ∣ i - p := (modEq_iff_dvd' (by omega)).mp same.symm
      have zero := eq_zero_of_dvd_of_lt multiple (by omega)
      omega
    rw [others _ other]
    exact tagged i (by omega) before
  · obtain rfl : i = p + cap := by omega
    rw [add_mod_right, written, passTag_add positive, Bool.not_not]

/-- The reader at position `c` finds its tag exactly when the cell has been written. -/
lemma Tagged.hit_iff (tagged : Tagged cap tags p) (positive : 0 < cap) (behind : c ≤ p)
    (near : p ≤ c + cap) : tags (c % cap) = passTag cap c ↔ c < p := by
  rcases lt_or_ge c p with ahead | level
  · have flipped := tagged (c + cap) near (by omega)
    rw [add_mod_right, passTag_add positive, Bool.not_not] at flipped
    exact ⟨fun _ => ahead, fun _ => flipped⟩
  obtain rfl : c = p := by omega
  have stale := tagged c (le_refl c) (by omega)
  constructor
  · intro hit
    rw [hit] at stale
    cases tag : passTag cap c <;> rw [tag] at stale <;> cases stale
  · intro impossible
    omega

end AuroraOS.Lib
