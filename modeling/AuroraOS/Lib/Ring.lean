import Mathlib.Data.Nat.ModEq
import Mathlib.Data.List.Basic

/-!
# Circular buffers

`window` lists the cells of a circular buffer of `cap` cells from a start position on, wrapping at
its end, and `slice` lists cells without wrapping.
-/

namespace AuroraOS.Lib

open List

variable {α : Type}

def slice (cells : Nat → α) (a n : Nat) : List α := (range n).map fun i => cells (a + i)

def window (cells : Nat → α) (cap start n : Nat) : List α :=
  (range n).map fun i => cells ((start + i) % cap)

section Slice

variable {cells cells' : Nat → α} {a b n : Nat}

@[simp] lemma length_slice : (slice cells a n).length = n := by simp [slice]

lemma slice_congr (same : ∀ i < n, cells' (b + i) = cells (a + i)) :
    slice cells' b n = slice cells a n :=
  map_congr_left fun i mem => same i (mem_range.mp mem)

end Slice

section Window

variable {cells cells' : Nat → α} {cap start m n : Nat}

@[simp] lemma window_zero : window cells cap start 0 = [] := rfl

lemma window_congr (same : ∀ i < n, cells' ((start + i) % cap) = cells ((start + i) % cap)) :
    window cells' cap start n = window cells cap start n :=
  map_congr_left fun i mem => same i (mem_range.mp mem)

lemma window_add : window cells cap start (m + n) =
    window cells cap start m ++ window cells cap ((start + m) % cap) n := by
  unfold window
  rw [range_add, map_append, map_map]
  congr 1
  apply map_congr_left
  intro i _
  simp only [Function.comp_apply, Nat.mod_add_mod, add_assoc]

lemma position_ne {i j : Nat} (before : i < j) (near : j < cap) :
    (start + i) % cap ≠ (start + j) % cap := by
  intro same
  have cancelled : i % cap = j % cap := Nat.ModEq.add_left_cancel' start same
  rw [Nat.mod_eq_of_lt (before.trans near), Nat.mod_eq_of_lt near] at cancelled
  omega

lemma window_deposit {src : Nat → α} {a : Nat} (room : m + n ≤ cap)
    (written : ∀ i < n, cells' ((start + m + i) % cap) = src (a + i))
    (kept : ∀ j, (∀ i < n, j ≠ (start + m + i) % cap) → cells' j = cells j) :
    window cells' cap start (m + n) = window cells cap start m ++ slice src a n := by
  rw [window_add]
  congr 1
  · apply window_congr
    intro i below
    apply kept
    intro j inside
    rw [add_assoc]
    exact position_ne (by omega) (by omega)
  · apply map_congr_left
    intro i mem
    rw [Nat.mod_add_mod]
    exact written i (mem_range.mp mem)

/-- A copy of a window in two pieces, of which the first ends at the end of the buffer. -/
lemma slice_eq_window {dst : Nat → α} {a first : Nat} (inside : start < cap) (fits : n ≤ cap)
    (split : first = min n (cap - start))
    (head : ∀ i < first, dst (a + i) = cells (start + i))
    (rest : ∀ i < n - first, dst (a + first + i) = cells i) :
    slice dst a n = window cells cap start n := by
  apply map_congr_left
  intro i mem
  have below := mem_range.mp mem
  rcases lt_or_ge i first with early | late
  · rw [head i early, Nat.mod_eq_of_lt (by omega)]
  · have tail := rest (i - first) (by omega)
    rw [show a + first + (i - first) = a + i by omega] at tail
    rw [tail, Nat.mod_eq_sub_mod (by omega), Nat.mod_eq_of_lt (by omega)]
    congr 1
    omega

end Window

end AuroraOS.Lib
