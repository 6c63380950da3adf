import AuroraOS.Mem.Buddy
import Mathlib.Data.Nat.Bitwise
import Mathlib.Data.Finset.Basic

/-!
# Page table entries

The 64-bit entries of `kernel/pagetable.c` and their flag bits, and entries as words of
the physical memory.
-/

namespace AuroraOS.PageTable

open Lib Mem Nat BitVec

abbrev Entry := BitVec 64

def ptePresent : Entry := 0x001#64
def pteRw : Entry := 0x002#64
def pteUser : Entry := 0x004#64
def pteAccessed : Entry := 0x020#64
def pteDirty : Entry := 0x040#64
def ptePs : Entry := 0x080#64
def pteNx : Entry := 1#64 <<< 63

def pteAddrMask : Entry := 0x000FFFFFFFFFF000#64

def pteStructFlags : Entry := ptePresent ||| pteRw ||| pteAccessed

def has (e flag : Entry) : Bool := e &&& flag != 0#64

def pteAddr (e : Entry) : Nat := (e &&& pteAddrMask).toNat

/-! ## Bits -/

lemma has_bit {e flag : Entry} {k : Nat} (single : flag = twoPow 64 k) (inside : k < 64) :
    has e flag = e.getLsbD k := by
  subst single
  rw [has, and_twoPow]
  cases bit : e.getLsbD k with
  | false => simp
  | true =>
    have nonzero : twoPow 64 k ≠ 0#64 := by
      intro zero
      have bit := congrArg (fun x : Entry => x.getLsbD k) zero
      simp [inside] at bit
    simp [nonzero]

lemma has_present (e : Entry) : has e ptePresent = e.getLsbD 0 := has_bit (by decide) (by decide)
lemma has_user (e : Entry) : has e pteUser = e.getLsbD 2 := has_bit (by decide) (by decide)
lemma has_ps (e : Entry) : has e ptePs = e.getLsbD 7 := has_bit (by decide) (by decide)

lemma mask_bit {i : Nat} (inside : i < 64) :
    pteAddrMask.getLsbD i = decide (12 ≤ i ∧ i < 52) := by
  have all : ∀ i : Fin 64, pteAddrMask.getLsbD i = decide (12 ≤ (i : Nat) ∧ (i : Nat) < 52) := by
    decide
  exact all ⟨i, inside⟩

lemma pteAddr_congr {e e' : Entry} (same : ∀ i, 12 ≤ i → i < 52 → e'.getLsbD i = e.getLsbD i) :
    pteAddr e' = pteAddr e := by
  rw [pteAddr, pteAddr]
  congr 1
  apply eq_of_getLsbD_eq
  intro i inside
  rw [getLsbD_and, getLsbD_and, mask_bit inside]
  by_cases range : 12 ≤ i ∧ i < 52
  · rw [same i range.1 range.2]
  · simp [range]

lemma pteAddr_eq (e : Entry) : pteAddr e = e.toNat / 2 ^ 12 % 2 ^ 40 * 2 ^ 12 := by
  have mask : pteAddrMask.toNat = (2 ^ 40 - 1) <<< 12 := by decide
  rw [pteAddr, toNat_and, mask]
  apply eq_of_testBit_eq
  intro i
  have shifted : e.toNat / 2 ^ 12 % 2 ^ 40 * 2 ^ 12 = (e.toNat >>> 12 % 2 ^ 40) <<< 12 := by
    rw [Nat.shiftLeft_eq, Nat.shiftRight_eq_div_pow]
  rw [shifted, testBit_and, testBit_shiftLeft, testBit_shiftLeft,
    testBit_two_pow_sub_one, testBit_mod_two_pow, testBit_shiftRight]
  by_cases low : i ≥ 12
  · rw [Nat.add_sub_cancel' low]
    simp only [low, decide_true, Bool.true_and]
    rw [Bool.and_comm]
  · simp [low]

lemma pteAddr_aligned (e : Entry) : pageSize ∣ pteAddr e := by
  rw [pteAddr_eq]
  exact dvd_mul_left _ _

lemma pteAddr_ofNat_or {a : Nat} {flags : Entry} (aligned : pageSize ∣ a) (low : a < 2 ^ 52)
    (bits : ∀ i, 12 ≤ i → i < 52 → flags.getLsbD i = false) :
    pteAddr (BitVec.ofNat 64 a ||| flags) = a := by
  have same : pteAddr (BitVec.ofNat 64 a ||| flags) = pteAddr (BitVec.ofNat 64 a) := by
    apply pteAddr_congr
    intro i above below
    rw [BitVec.getLsbD_or, bits i above below, Bool.or_false]
  obtain ⟨k, rfl⟩ := aligned
  rw [same, pteAddr_eq, toNat_ofNat]
  simp only [pageSize] at low ⊢
  omega

/-! ## Entries in memory -/

def readEntry (m : Store) (table idx : Nat) : Entry :=
  BitVec.ofNat 64 (leRead m (table + 8 * idx) 8)

def writeEntry (m : Store) (table idx : Nat) (e : Entry) : Store :=
  leWrite m (table + 8 * idx) 8 e.toNat

def SamePage (m m' : Store) (a : Nat) : Prop := ∀ x, a ≤ x → x < a + pageSize → m' x = m x

variable {m m' : Store} {a b i k : Nat} {e : Entry}

lemma SamePage.trans {m'' : Store} (first : SamePage m m' a) (second : SamePage m' m'' a) :
    SamePage m m'' a := fun x low high => (second x low high).trans (first x low high)

lemma readEntry_congr (same : SamePage m m' a) (inside : i < 512) :
    readEntry m' a i = readEntry m a i := by
  rw [readEntry, readEntry, leRead_congr]
  intro x low high
  apply same x (by omega)
  simp only [pageSize]
  omega

lemma readEntry_writeEntry_same : readEntry (writeEntry m a i e) a i = e := by
  rw [readEntry, writeEntry, leRead_leWrite_same]
  apply eq_of_toNat_eq
  simp only [toNat_ofNat]
  omega

lemma readEntry_writeEntry_other (other : i ≠ k) :
    readEntry (writeEntry m a i e) a k = readEntry m a k := by
  rw [readEntry, writeEntry, leRead_leWrite_disjoint (by omega), readEntry]

lemma page_apart (alignedA : pageSize ∣ a) (alignedB : pageSize ∣ b) (other : a ≠ b) :
    a + pageSize ≤ b ∨ b + pageSize ≤ a := by
  simp only [pageSize] at *
  omega

lemma samePage_writeEntry (alignedA : pageSize ∣ a) (alignedB : pageSize ∣ b) (other : a ≠ b)
    (inside : i < 512) : SamePage m (writeEntry m a i e) b := by
  intro x low high
  apply leWrite_outside
  have apart := page_apart alignedA alignedB other
  simp only [pageSize] at apart high
  omega

lemma samePage_fill {n : Nat} {v : UInt8} (apart : a + n ≤ b ∨ b + pageSize ≤ a) :
    SamePage m (fill m a n v) b := by
  intro x low high
  apply fill_outside
  omega

end AuroraOS.PageTable
