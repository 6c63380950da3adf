import AuroraOS.Lib.Bytes
import Mathlib.Data.List.Induction
import Mathlib.Tactic.Linarith

/-!
# Sequences of range writes

A patch is one range write over a byte store, and `overlay` applies a sequence of them.  A block is
a range of `size` bytes at a multiple of `size`.
-/

namespace AuroraOS.Lib

open List

structure Patch where
  addr : Nat
  len : Nat
  bytes : Store

namespace Patch

def apply (data : Store) (p : Patch) : Store := blit data p.addr p.len p.bytes

/-- The patch does not write to `i`. -/
def Avoids (p : Patch) (i : Nat) : Prop := i < p.addr ∨ p.addr + p.len ≤ i

lemma apply_of_avoids {p : Patch} {data : Store} {i : Nat} (out : p.Avoids i) :
    p.apply data i = data i := blit_outside out

end Patch

def overlay (data : Store) (ps : List Patch) : Store := ps.foldl Patch.apply data

variable {data : Store} {ps ps' : List Patch} {p : Patch} {i : Nat}

@[simp] lemma overlay_nil : overlay data [] = data := rfl

lemma overlay_cons : overlay data (p :: ps) = overlay (p.apply data) ps := rfl

lemma overlay_append : overlay data (ps ++ ps') = overlay (overlay data ps) ps' := by
  simp [overlay]

lemma overlay_congr {data' : Store} (same : data' i = data i) :
    overlay data' ps i = overlay data ps i := by
  induction ps generalizing data data' with
  | nil => exact same
  | cons p ps ih =>
    apply ih
    simp only [Patch.apply, blit, same]

lemma overlay_of_avoids (out : ∀ p ∈ ps, p.Avoids i) : overlay data ps i = data i := by
  induction ps generalizing data with
  | nil => rfl
  | cons p ps ih =>
    rw [overlay_cons, ih fun q mem => out q (mem_cons_of_mem _ mem)]
    exact Patch.apply_of_avoids (out p (mem_cons_self ..))

lemma overlay_skip (out : ∀ p ∈ ps, p.Avoids i) :
    overlay data (ps ++ ps') i = overlay data ps' i := by
  rw [overlay_append]
  exact overlay_congr (overlay_of_avoids out)

/-! ## Blocks -/

def blockPatch (size : Nat) (w : Nat × Store) : Patch := ⟨w.1 * size, size, w.2⟩

variable {size b c : Nat}

lemma blockPatch_avoids {buf : Store} (inside : i < size) (different : c ≠ b) :
    (blockPatch size (c, buf)).Avoids (b * size + i) := by
  simp only [Patch.Avoids, blockPatch]
  rcases Nat.lt_or_gt_of_ne different with below | above
  · have gap : (c + 1) * size ≤ b * size := Nat.mul_le_mul_right size below
    rw [add_mul] at gap
    omega
  · have gap : (b + 1) * size ≤ c * size := Nat.mul_le_mul_right size above
    rw [add_mul] at gap
    omega

lemma overlay_last {buf : Store} (ps : List Patch) (inside : i < size)
    (out : ∀ p ∈ ps', p.Avoids (b * size + i)) :
    overlay data (ps ++ blockPatch size (b, buf) :: ps') (b * size + i) = buf i := by
  rw [overlay_append, overlay_cons, overlay_of_avoids out]
  simp only [Patch.apply, blockPatch]
  rw [blit_inside (Nat.le_add_right _ _) (by omega), Nat.add_sub_cancel_left]

lemma overlay_blocks (ws : List (Nat × Store)) (inside : i < size) :
    overlay data (ws.map (blockPatch size)) (b * size + i) =
      ((ws.reverse.lookup b).map (· i)).getD (data (b * size + i)) := by
  induction ws using reverseRecOn with
  | nil => rfl
  | append_singleton ws w ih =>
    obtain ⟨c, buf⟩ := w
    rw [map_append, reverse_append]
    by_cases here : c = b
    · subst here
      rw [map_singleton, overlay_last (map (blockPatch size) ws) inside (forall_mem_nil _)]
      simp
    · rw [overlay_append, map_singleton, overlay_cons, overlay_nil,
        Patch.apply_of_avoids (blockPatch_avoids inside here), ih]
      simp [lookup_cons, beq_eq_false_iff_ne.mpr (Ne.symm here)]

end AuroraOS.Lib
