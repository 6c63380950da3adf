import AuroraOS.Lib.Ring

/-!
# Checked memory accesses

Computations that stop with a `Fault` at the first access outside a buffer.  `Ensures x P` says that
`x` meets no fault and returns a value with `P`, `Yields x P` that a value it returns has `P`.
-/

namespace AuroraOS.Lib

open List

inductive Fault
  | read
  | write
deriving DecidableEq, Repr

abbrev Checked := Except Fault

variable {α β : Type}

/-- No fault, and a result with `P`. -/
def Ensures (x : Checked α) (P : α → Prop) : Prop := ∃ a, x = .ok a ∧ P a

namespace Ensures

variable {x : Checked α} {P Q : α → Prop}

lemma ok {a : α} (holds : P a) : Ensures (.ok a) P := ⟨a, rfl, holds⟩

lemma mono (ensures : Ensures x P) (weaker : ∀ a, P a → Q a) : Ensures x Q := by
  obtain ⟨a, is, holds⟩ := ensures
  exact ⟨a, is, weaker a holds⟩

lemma bind {f : α → Checked β} {R : β → Prop} (first : Ensures x P)
    (second : ∀ a, P a → Ensures (f a) R) : Ensures (x >>= f) R := by
  obtain ⟨a, rfl, holds⟩ := first
  exact second a holds

lemma ite {p : Prop} [Decidable p] {y : Checked α} (yes : p → Ensures x P)
    (no : ¬p → Ensures y P) : Ensures (if p then x else y) P := by
  split
  · exact yes ‹_›
  · exact no ‹_›

end Ensures

/-- What is returned, if there is no fault, has `P`. -/
def Yields (x : Checked α) (P : α → Prop) : Prop := ∀ a, x = .ok a → P a

namespace Yields

variable {x : Checked α} {P : α → Prop}

lemma ok {a : α} (holds : P a) : Yields (.ok a) P := by
  rintro _ ⟨⟩
  exact holds

variable {f : α → Checked β} {R : β → Prop}

lemma bind (first : Yields x P) (second : ∀ a, P a → Yields (f a) R) : Yields (x >>= f) R := by
  intro b done
  cases x with
  | error fault => cases done
  | ok a => exact second a (first a rfl) b done

lemma after (second : ∀ a, Yields (f a) R) : Yields (x >>= f) R :=
  bind (fun _ _ => trivial) fun a _ => second a

lemma map {f : α → β} (first : Yields x fun a => R (f a)) : Yields (x.map f) R := by
  intro b done
  cases x with
  | error fault => cases done
  | ok a =>
    cases done
    exact first a rfl

lemma ite {p : Prop} [Decidable p] {y : Checked α} (yes : p → Yields x P)
    (no : ¬p → Yields y P) : Yields (if p then x else y) P := by
  split
  · exact yes ‹_›
  · exact no ‹_›

end Yields

/-! ## Reading -/

def loadRange (buf : List UInt8) (p n : Nat) : Checked (List UInt8) :=
  if n = 0 ∨ p + n ≤ buf.length then .ok ((buf.drop p).take n) else .error .read

def load (buf : List UInt8) (p : Nat) : Checked UInt8 :=
  match buf[p]? with
  | some b => .ok b
  | none => .error .read

def loadBe (buf : List UInt8) (p n : Nat) : Checked Nat := do
  let bytes ← loadRange buf p n
  return bytes.foldl (fun v b => 256 * v + b.toNat) 0

variable {buf : List UInt8} {p n : Nat}

lemma loadRange_ensures (inside : p + n ≤ buf.length) :
    Ensures (loadRange buf p n) fun bytes => bytes = (buf.drop p).take n ∧ bytes.length = n := by
  rw [loadRange, if_pos (.inr inside)]
  refine .ok ⟨rfl, ?_⟩
  rw [length_take, length_drop]
  omega

lemma load_ensures (inside : p < buf.length) :
    Ensures (load buf p) fun b => buf[p]? = some b := by
  rw [load, getElem?_eq_getElem inside]
  exact .ok rfl

lemma loadBe_ensures (inside : p + n ≤ buf.length) : Ensures (loadBe buf p n) fun v =>
      v = ((buf.drop p).take n).foldl (fun v b => 256 * v + b.toNat) 0 := by
  refine (loadRange_ensures inside).bind fun bytes got => .ok ?_
  rw [got.1]

/-! ## Buffers of a fixed size -/

def written (cells : Nat → α) (off : Nat) (xs : List α) : Nat → α := fun i =>
  if off ≤ i then xs.getD (i - off) (cells i) else cells i

def storeRange (size : Nat) (cells : Nat → α) (off : Int) (xs : List α) : Checked (Nat → α) :=
  if xs.length = 0 ∨ 0 ≤ off ∧ off.toNat + xs.length ≤ size then
    .ok (written cells off.toNat xs)
  else .error .write

def loadCells (size : Nat) (cells : Nat → α) (off : Int) (n : Nat) : Checked (List α) :=
  if n = 0 ∨ 0 ≤ off ∧ off.toNat + n ≤ size then .ok (slice cells off.toNat n)
  else .error .read

variable {size : Nat} {cells : Nat → α} {off : Int}

lemma storeRange_ensures {xs : List α} (low : 0 ≤ off) (high : off.toNat + xs.length ≤ size) :
    Ensures (storeRange size cells off xs) fun cells' =>
      cells' = written cells off.toNat xs := by
  rw [storeRange, if_pos (.inr ⟨low, high⟩)]
  exact .ok rfl

lemma loadCells_ensures (low : 0 ≤ off) (high : off.toNat + n ≤ size) :
    Ensures (loadCells size cells off n) fun xs => xs = slice cells off.toNat n := by
  rw [loadCells, if_pos (.inr ⟨low, high⟩)]
  exact .ok rfl

end AuroraOS.Lib
