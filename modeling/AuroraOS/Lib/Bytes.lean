import Mathlib.Tactic.Ring

/-!
# Byte stores

A byte store is a function from addresses to bytes.  `fill` is a constant range write, `blit` a
copy, `leRead` and `leWrite` are the little-endian reads and writes of an `n`-byte field.
-/

namespace AuroraOS.Lib

abbrev Store := Nat → UInt8

def fill (m : Store) (a n : Nat) (v : UInt8) : Store :=
  fun i => if a ≤ i ∧ i < a + n then v else m i

variable {m src : Store} {a n i : Nat}

lemma fill_inside {v : UInt8} (low : a ≤ i) (high : i < a + n) :
    fill m a n v i = v := if_pos ⟨low, high⟩

lemma fill_outside {v : UInt8} (out : i < a ∨ a + n ≤ i) :
    fill m a n v i = m i := if_neg (by omega)

/-- Copy the first `n` bytes of `src` to the range from `a` on. -/
def blit (m : Store) (a n : Nat) (src : Store) : Store :=
  fun i => if a ≤ i ∧ i < a + n then src (i - a) else m i

lemma blit_inside (low : a ≤ i) (high : i < a + n) :
    blit m a n src i = src (i - a) := if_pos ⟨low, high⟩

lemma blit_outside (out : i < a ∨ a + n ≤ i) : blit m a n src i = m i := if_neg (by omega)

lemma blit_congr {src' : Store} (same : ∀ i < n, src' i = src i) :
    blit m a n src' = blit m a n src := by
  funext i
  unfold blit
  split
  · exact same _ (by omega)
  · rfl

lemma blit_append (m src : Store) (a n k : Nat) :
    blit (blit m a n src) (a + n) k (fun i => src (n + i)) = blit m a (n + k) src := by
  funext i
  rcases lt_or_ge i (a + n) with early | late
  · rw [blit_outside (.inl early)]
    rcases lt_or_ge i a with before | inside
    · rw [blit_outside (.inl before), blit_outside (.inl before)]
    · rw [blit_inside inside early, blit_inside inside (by omega)]
  · rcases lt_or_ge i (a + n + k) with inside | behind
    · rw [blit_inside late inside, blit_inside (by omega) (by omega)]
      congr 1
      omega
    · rw [blit_outside (.inr behind), blit_outside (.inr late), blit_outside (.inr (by omega))]

/-- The little-endian value of the `n` bytes from `a` on. -/
def leRead (m : Store) (a : Nat) : Nat → Nat
  | 0 => 0
  | n + 1 => (m a).toNat + 256 * leRead m (a + 1) n

/-- Write the `n` low bytes of `v` from `a` on, least significant byte first. -/
def leWrite (m : Store) (a n v : Nat) : Store :=
  fun i => if a ≤ i ∧ i < a + n then UInt8.ofNat (v / 256 ^ (i - a)) else m i

lemma leRead_congr {m' : Store}
    (same : ∀ i, a ≤ i → i < a + n → m' i = m i) : leRead m' a n = leRead m a n := by
  induction n generalizing a with
  | zero => rfl
  | succ n ih =>
    have rest := ih (a := a + 1) fun i low high => same i (by omega) (by omega)
    simp only [leRead, rest, same a le_rfl (by omega)]

lemma leRead_shift {m' : Store} {c : Nat}
    (same : ∀ i, a ≤ i → i < a + n → m' i = m (c + i)) : leRead m' a n = leRead m (c + a) n := by
  induction n generalizing a with
  | zero => rfl
  | succ n ih =>
    have rest := ih (a := a + 1) fun i low high => same i (by omega) (by omega)
    simp only [leRead, rest, same a le_rfl (by omega), add_assoc]

lemma leRead_lt (m : Store) (a n : Nat) : leRead m a n < 256 ^ n := by
  induction n generalizing a with
  | zero => simp [leRead]
  | succ n ih =>
    have byte := (m a).toNat_lt
    have rest := ih (a + 1)
    simp only [leRead]
    omega

lemma leWrite_outside {v : Nat} (out : i < a ∨ a + n ≤ i) :
    leWrite m a n v i = m i := if_neg (by omega)

lemma leRead_leWrite_same (m : Store) (a n v : Nat) :
    leRead (leWrite m a n v) a n = v % 256 ^ n := by
  have field : ∀ k j, j + k = n → leRead (leWrite m a n v) (a + j) k = v / 256 ^ j % 256 ^ k := by
    intro k
    induction k with
    | zero => intro j _; simp [leRead, Nat.mod_one]
    | succ k ih =>
      intro j bound
      have rest := ih (j + 1) (by omega)
      have byte : leWrite m a n v (a + j) = UInt8.ofNat (v / 256 ^ j) := by
        simp [leWrite, show j < n by omega]
      have value : (UInt8.ofNat (v / 256 ^ j)).toNat = v / 256 ^ j % 256 := by
        simp
      have shift : v / 256 ^ (j + 1) = v / 256 ^ j / 256 := by
        rw [pow_succ, Nat.div_div_eq_div_mul]
      simp only [leRead, byte, value]
      rw [add_assoc, rest, shift, pow_succ, mul_comm (256 ^ k) 256, Nat.mod_mul]
  simpa using field n 0 (by simp)

lemma leRead_leWrite_disjoint {v b k : Nat}
    (apart : b + k ≤ a ∨ a + n ≤ b) : leRead (leWrite m a n v) b k = leRead m b k :=
  leRead_congr fun _ low high => leWrite_outside (by omega)

end AuroraOS.Lib
