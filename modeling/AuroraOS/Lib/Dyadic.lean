import Mathlib.Data.Finset.Basic
import Mathlib.Data.List.Pairwise
import Mathlib.Data.Nat.Bitwise
import Mathlib.Tactic.Ring

/-!
# Dyadic blocks and tilings

A `Block` is an interval `[base, base + 2 ^ order)`; it is aligned when its size divides its base.
A `Tiling U bs` lists aligned, pairwise apart blocks that cover exactly `U`; the *buddy* of a block
(its base with bit `order` flipped) is then never an inner point of a larger block.
-/

namespace AuroraOS.Lib

open Function List Nat

structure Block where
  base : Nat
  order : Nat
deriving DecidableEq, Repr

namespace Block

def size (b : Block) : Nat := 2 ^ b.order

def Covers (b : Block) (p : Nat) : Prop := b.base ≤ p ∧ p < b.base + 2 ^ b.order

instance (b : Block) (p : Nat) : Decidable (b.Covers p) := inferInstanceAs (Decidable (_ ∧ _))

def Aligned (b : Block) : Prop := 2 ^ b.order ∣ b.base

def Apart (a b : Block) : Prop :=
  a.base + 2 ^ a.order ≤ b.base ∨ b.base + 2 ^ b.order ≤ a.base

lemma Apart.symm {a b : Block} (apart : a.Apart b) : b.Apart a := Or.symm apart

instance : Std.Symm Apart := ⟨fun _ _ => Apart.symm⟩

lemma Apart.not_covers {a b : Block} {p : Nat} (apart : a.Apart b)
    (left : a.Covers p) : ¬ b.Covers p := by
  intro right
  unfold Covers at left right
  unfold Apart at apart
  omega

variable {base k p : Nat} {c : Block}

lemma covers_halves :
    Covers ⟨base, k + 1⟩ p ↔ Covers ⟨base, k⟩ p ∨ Covers ⟨base + 2 ^ k, k⟩ p := by
  simp only [Covers, Nat.pow_succ]
  omega

lemma apart_halves : Apart ⟨base, k + 1⟩ c ↔ Apart ⟨base, k⟩ c ∧ Apart ⟨base + 2 ^ k, k⟩ c := by
  have half : 0 < 2 ^ k := Nat.two_pow_pos k
  have pos : 0 < 2 ^ c.order := Nat.two_pow_pos _
  simp only [Apart, Nat.pow_succ]
  omega

lemma covers_base (b : Block) : b.Covers b.base :=
  ⟨le_rfl, Nat.lt_add_of_pos_right (Nat.two_pow_pos _)⟩

end Block

lemma add_le_of_dvd_of_lt {d x y : Nat} (dx : d ∣ x) (dy : d ∣ y) (lt : x < y) : x + d ≤ y := by
  have gap : d ≤ y - x := le_of_dvd (by omega) (dvd_sub dy dx)
  omega

variable {p k n : Nat}

/-- Flipping bit `k` of a multiple of `2 ^ k` swaps the two halves of the
enclosing aligned block of order `k + 1`. -/
lemma xor_two_pow_cases (aligned : 2 ^ k ∣ p) : ∃ low, 2 ^ (k + 1) ∣ low ∧
      ((p = low ∧ p ^^^ 2 ^ k = low + 2 ^ k) ∨ (p = low + 2 ^ k ∧ p ^^^ 2 ^ k = low)) := by
  obtain ⟨q, rfl⟩ := aligned
  have flip : 2 ^ k * q ^^^ 2 ^ k = 2 ^ k * (q ^^^ 1) := by
    have shifted := shiftLeft_xor_distrib (a := q) (b := 1) (i := k)
    simp only [shiftLeft_eq, one_mul] at shifted
    rw [mul_comm (2 ^ k) q, ← shifted, mul_comm]
  rcases even_or_odd q with even | odd
  · refine ⟨2 ^ k * q, ?_, .inl ⟨rfl, ?_⟩⟩
    · exact mul_dvd_mul_left _ even.two_dvd
    · rw [flip, xor_one_of_even even]
      ring
  · obtain ⟨m, rfl⟩ := odd
    refine ⟨2 ^ k * (2 * m), ?_, .inr ⟨by ring, ?_⟩⟩
    · rw [pow_succ, ← mul_assoc]
      exact dvd_mul_right _ _
    · rw [flip, xor_one_of_odd ⟨m, rfl⟩]
      simp

lemma xor_two_pow_ne (p k : Nat) : p ^^^ 2 ^ k ≠ p := by
  intro same
  have flip : p ^^^ (p ^^^ 2 ^ k) = 2 ^ k := xor_xor_cancel_left ..
  rw [same, Nat.xor_self] at flip
  exact (Nat.two_pow_pos k).ne flip

lemma dvd_xor_two_pow (aligned : 2 ^ k ∣ p) : 2 ^ k ∣ p ^^^ 2 ^ k := by
  obtain ⟨low, lowAligned, ⟨-, buddy⟩ | ⟨-, buddy⟩⟩ := xor_two_pow_cases aligned
  · rw [buddy]
    exact Nat.dvd_add ((pow_dvd_pow 2 (le_succ k)).trans lowAligned) dvd_rfl
  · rw [buddy]
    exact (pow_dvd_pow 2 (le_succ k)).trans lowAligned

/-- Aligned, pairwise apart blocks covering exactly `U`. -/
@[mk_iff]
structure Tiling (U : Finset Nat) (bs : List Block) : Prop where
  aligned : ∀ b ∈ bs, b.Aligned
  apart : bs.Pairwise Block.Apart
  cover : ∀ p, p ∈ U ↔ ∃ b ∈ bs, b.Covers p

namespace Tiling

variable {U : Finset Nat} {bs cs : List Block}

variable (tiling : Tiling U bs)
include tiling

lemma perm (same : bs.Perm cs) : Tiling U cs where
  aligned b mem := tiling.aligned b (same.mem_iff.mpr mem)
  apart := (same.pairwise_iff Block.Apart.symm).mp tiling.apart
  cover p := by
    rw [tiling.cover p]
    simp only [same.mem_iff]

variable {a b : Block} {p k base : Nat}

lemma eq_of_covers (ha : a ∈ bs) (hb : b ∈ bs) (pa : a.Covers p) (pb : b.Covers p) : a = b := by
  by_contra different
  have apart : a.Apart b := tiling.apart.forall ha hb different
  exact apart.not_covers pa pb

lemma base_mem (mem : b ∈ bs) : b.base ∈ U :=
  (tiling.cover _).mpr ⟨b, mem, b.covers_base⟩

lemma eq_of_base_eq (ha : a ∈ bs) (hb : b ∈ bs) (same : a.base = b.base) : a = b :=
  tiling.eq_of_covers ha hb a.covers_base (same ▸ b.covers_base)

lemma bases_nodup : (bs.map Block.base).Nodup := by
  rw [Nodup, pairwise_map]
  refine tiling.apart.imp fun {a b} apart same => ?_
  exact apart.not_covers a.covers_base (same ▸ b.covers_base)

omit tiling in
lemma buddy_in_run {j : Nat} (run : 2 ^ k ∣ base) (below : j < k)
    (aligned : 2 ^ j ∣ p) (lower : base ≤ p) (upper : p < base + 2 ^ k) :
    base ≤ p ^^^ 2 ^ j ∧ p ^^^ 2 ^ j < base + 2 ^ k := by
  obtain ⟨low, lowAligned, swap⟩ := xor_two_pow_cases aligned
  have coarse : 2 ^ (j + 1) ∣ base := (pow_dvd_pow 2 below).trans run
  have coarseEnd : 2 ^ (j + 1) ∣ base + 2 ^ k := Nat.dvd_add coarse (pow_dvd_pow 2 below)
  have step : 2 ^ (j + 1) = 2 ^ j + 2 ^ j := by ring
  have size : 0 < 2 ^ j := Nat.two_pow_pos j
  have lowEnd : low + 2 ^ (j + 1) ≤ base + 2 ^ k :=
    add_le_of_dvd_of_lt lowAligned coarseEnd (by omega)
  have startLe : base ≤ low := by
    by_contra beyond
    have gap := add_le_of_dvd_of_lt lowAligned coarse (by omega)
    omega
  omega

/-- The buddy of a block is outside the tiled set or starts a block that is not
larger: it is never strictly inside a block. -/
lemma exists_head_of_buddy (mem : ⟨p, k⟩ ∈ bs) (inside : p ^^^ 2 ^ k ∈ U) :
    ∃ j, j ≤ k ∧ (⟨p ^^^ 2 ^ k, j⟩ : Block) ∈ bs := by
  have aligned : 2 ^ k ∣ p ^^^ 2 ^ k := dvd_xor_two_pow (tiling.aligned _ mem)
  obtain ⟨⟨base, j⟩, owner, baseLe, ltEnd⟩ := (tiling.cover _).mp inside
  simp only at baseLe ltEnd
  have baseAligned : 2 ^ j ∣ base := tiling.aligned _ owner
  rcases lt_or_ge k j with larger | smaller
  · -- a larger owner would contain the block itself as well
    have covers := buddy_in_run baseAligned larger aligned baseLe ltEnd
    rw [xor_xor_cancel_right] at covers
    cases tiling.eq_of_covers owner mem covers (Block.covers_base ⟨p, k⟩)
    exact absurd larger (lt_irrefl _)
  · refine ⟨j, smaller, ?_⟩
    have divides : 2 ^ j ∣ p ^^^ 2 ^ k := (pow_dvd_pow 2 smaller).trans aligned
    have start : base = p ^^^ 2 ^ k := by
      by_contra different
      have gap := add_le_of_dvd_of_lt baseAligned divides (lt_of_le_of_ne baseLe different)
      omega
    rwa [← start]

/-- Where an aligned run is covered by some blocks of a tiling, no two of them buddies below the
order of the run, its first page is in one of at least that order. -/
lemma exists_order_ge {part : List Block} (sub : part ⊆ bs) (run : 2 ^ k ∣ base)
    (covered : ∀ p, base ≤ p → p < base + 2 ^ k → ∃ b ∈ part, b.Covers p)
    (alone : ∀ p j, j < k → ⟨p, j⟩ ∈ part → ⟨p ^^^ 2 ^ j, j⟩ ∉ part) :
    ∃ b ∈ part, k ≤ b.order ∧ b.Covers base := by
  -- strong induction on the order: the buddy of a smaller block in the run starts a smaller one
  have nothing : ∀ j p, j < k → ⟨p, j⟩ ∈ part → base ≤ p → p < base + 2 ^ k → False := by
    intro j
    induction j using Nat.strong_induction_on with
    | _ j ih =>
      intro p below mem lower upper
      have aligned : 2 ^ j ∣ p := tiling.aligned _ (sub mem)
      obtain ⟨lower', upper'⟩ := buddy_in_run run below aligned lower upper
      obtain ⟨b, inside, covers⟩ := covered _ lower' upper'
      obtain ⟨i, ile, owner⟩ := tiling.exists_head_of_buddy (sub mem)
        ((tiling.cover _).mpr ⟨b, sub inside, covers⟩)
      obtain rfl := tiling.eq_of_covers (sub inside) owner covers (Block.covers_base ⟨_, i⟩)
      rcases lt_or_eq_of_le ile with less | rfl
      · exact ih i less _ (less.trans below) inside lower' upper'
      · exact alone p i below mem inside
  obtain ⟨⟨p, j⟩, mem, le, lt⟩ := covered base le_rfl (Nat.lt_add_of_pos_right (by simp))
  refine ⟨⟨p, j⟩, mem, ?_, le, lt⟩
  by_contra small
  have below : j < k := Nat.lt_of_not_le small
  simp only at le lt
  have aligned : 2 ^ j ∣ p := tiling.aligned _ (sub mem)
  have finer : 2 ^ j ∣ base := (pow_dvd_pow 2 below.le).trans run
  rcases lt_or_eq_of_le le with less | rfl
  · have gap := add_le_of_dvd_of_lt aligned finer less
    omega
  · exact nothing j p below mem le_rfl (Nat.lt_add_of_pos_right (by simp))

omit tiling

lemma halves {b : Nat} (aligned : 2 ^ (k + 1) ∣ b) :
    Tiling U (⟨b, k + 1⟩ :: bs) ↔ Tiling U (⟨b, k⟩ :: ⟨b + 2 ^ k, k⟩ :: bs) := by
  have lower : 2 ^ k ∣ b := (pow_dvd_pow 2 (le_succ k)).trans aligned
  rw [tiling_iff, tiling_iff]
  refine and_congr ?_ (and_congr ?_ (forall_congr' fun p => ?_))
  · simp only [forall_mem_cons, Block.Aligned, aligned, lower, Nat.dvd_add_right, dvd_rfl,
      true_and]
  · have neighbours : Block.Apart ⟨b, k⟩ ⟨b + 2 ^ k, k⟩ := .inl le_rfl
    simp only [pairwise_cons, forall_mem_cons, Block.apart_halves, neighbours, true_and,
      forall_and, and_assoc]
  · simp only [mem_cons, exists_eq_or_imp, Block.covers_halves, or_assoc]

lemma tail_iff_cons {V : Finset Nat}
    (inside : ∀ p, p ∈ U ↔ p ∈ V ∨ b.Covers p) (tiling : Tiling V bs)
    (aligned : b.Aligned) (apart : ∀ c ∈ bs, b.Apart c) : Tiling U (b :: bs) where
  aligned c mem := by
    rcases mem_cons.mp mem with rfl | mem
    · exact aligned
    · exact tiling.aligned c mem
  apart := pairwise_cons.mpr ⟨apart, tiling.apart⟩
  cover p := by
    rw [inside p, tiling.cover p]
    simp only [mem_cons, exists_eq_or_imp]
    exact or_comm

end Tiling

/-! ## Blocks listed by order -/

/-- The blocks of order below `n` whose bases are listed by order. -/
def gather (n : Nat) (heads : Nat → List Nat) : List Block :=
  (range n).flatMap fun k => (heads k).map fun p => ⟨p, k⟩

variable {heads : Nat → List Nat}

lemma mem_gather {b : Block} : b ∈ gather n heads ↔ b.order < n ∧ b.base ∈ heads b.order := by
  simp only [gather, mem_flatMap, mem_range, mem_map]
  constructor
  · rintro ⟨k, bound, p, mem, rfl⟩
    exact ⟨bound, mem⟩
  · rintro ⟨bound, mem⟩
    exact ⟨b.order, bound, b.base, mem, rfl⟩

lemma gather_congr {heads' : Nat → List Nat}
    (same : ∀ k < n, heads' k = heads k) : gather n heads' = gather n heads := by
  refine flatMap_congr fun k mem => ?_
  rw [same k (mem_range.mp mem)]

lemma gather_perm_cons {rest : List Nat} (bound : k < n) (out : (heads k).Perm (p :: rest)) :
    (gather n heads).Perm (⟨p, k⟩ :: gather n (update heads k rest)) := by
  induction n with
  | zero => omega
  | succ n ih =>
    have unfoldRange : ∀ hs : Nat → List Nat,
        gather (n + 1) hs = gather n hs ++ (hs n).map fun q => (⟨q, n⟩ : Block) := by
      intro hs
      simp [gather, range_succ]
    rw [unfoldRange, unfoldRange]
    rcases lt_or_ge k n with below | above
    · have other : update heads k rest n = heads n := by
        simp [show n ≠ k by omega]
      rw [other]
      exact (ih below).append_right _
    · have last : k = n := by omega
      subst last
      have lower : gather k (update heads k rest) = gather k heads :=
        gather_congr fun j jlt => by simp [show j ≠ k by omega]
      rw [lower, update_self]
      have mapped := out.map fun q => (⟨q, k⟩ : Block)
      refine (mapped.append_left _).trans ?_
      exact perm_middle

lemma gather_perm_push (p : Nat) (heads : Nat → List Nat) (bound : k < n) :
    (gather n (update heads k (p :: heads k))).Perm (⟨p, k⟩ :: gather n heads) := by
  have out : (update heads k (p :: heads k) k).Perm (p :: heads k) := by
    rw [update_self]
  have taken := gather_perm_cons bound out
  rwa [update_idem, update_eq_self] at taken

end AuroraOS.Lib
