import AuroraOS.Mem.BuddyAlloc
import AuroraOS.PageTable.Model
import Mathlib.Algebra.BigOperators.Group.Finset.Basic

/-!
# Frames in use

Page tables live on pages of the buddy allocator.  A page in use, `Kept`, is never handed
out again, so that a new page differs from every table and every mapped frame; the
allocator leaves its bytes alone.
-/

namespace AuroraOS.PageTable

open Lib Mem List Finset

/-- The allocator invariant with the blocks `held` handed out. -/
def Managed (U : Finset Nat) (s : Kmem) (held : List Block) : Prop := ∃ free, Core U s free held

def KeptPfn (U : Finset Nat) (held : List Block) (q : Nat) : Prop :=
  q ∈ U → ∃ b ∈ held, b.Covers q

def Kept (U : Finset Nat) (held : List Block) (a : Nat) : Prop :=
  ∀ q, pfnToPhys q = a → KeptPfn U held q

variable {U : Finset Nat} {s s' : Kmem} {held held' : List Block} {p q a : Nat}

lemma pfnToPhys_injective (same : pfnToPhys p = pfnToPhys q) : p = q := by
  simp only [pfnToPhys, pageSize] at same
  omega

lemma pfnToPhys_aligned (p : Nat) : pageSize ∣ pfnToPhys p := by
  simp only [pfnToPhys, pageSize, physMemBase]
  omega

lemma kept_pfnToPhys : Kept U held (pfnToPhys q) ↔ KeptPfn U held q := by
  constructor
  · exact fun kept => kept q rfl
  · intro kept r same
    rw [pfnToPhys_injective same]
    exact kept

lemma KeptPfn.mono (kept : KeptPfn U held q) (sub : held ⊆ held') : KeptPfn U held' q := by
  intro inside
  obtain ⟨b, mem, covers⟩ := kept inside
  exact ⟨b, sub mem, covers⟩

lemma Kept.mono (kept : Kept U held a) (sub : held ⊆ held') : Kept U held' a :=
  fun q same => (kept q same).mono sub

def heldPages (held : List Block) : Nat := (held.map Block.size).sum

/-! ## New pages -/

/-- The page `p` has just been handed out, filled with zero bytes. -/
structure FreshPage (U : Finset Nat) (held : List Block) (s : Kmem) (p : Nat) (s' : Kmem) :
    Prop where
  managed : Managed U s' (⟨p, 0⟩ :: held)
  inside : p ∈ U
  unused : ∀ b ∈ held, ¬ b.Covers p
  other : ∀ b, pageSize ∣ b → b ≠ pfnToPhys p → SamePage s.ram s'.ram b
  zero : ∀ x, pfnToPhys p ≤ x → x < pfnToPhys p + pageSize → s'.ram x = 0

lemma FreshPage.not_kept (fresh : FreshPage U held s p s') : ¬ Kept U held (pfnToPhys p) := by
  intro kept
  obtain ⟨b, mem, covers⟩ := kept p rfl fresh.inside
  exact fresh.unused b mem covers

lemma card_le_heldPages (bs : List Block) (V : Finset Nat)
    (covered : ∀ q ∈ V, ∃ b ∈ bs, b.Covers q) : V.card ≤ heldPages bs := by
  induction bs generalizing V with
  | nil =>
    have empty : V = ∅ := eq_empty_of_forall_notMem fun q mem => by
      obtain ⟨b, nowhere, -⟩ := covered q mem
      cases nowhere
    simp [empty]
  | cons b bs ih =>
    have rest := ih (V.filter fun q => ¬ (b.base ≤ q ∧ q < b.base + 2 ^ b.order)) (by
      intro q mem
      obtain ⟨inV, outside⟩ := mem_filter.mp mem
      obtain ⟨c, inBs, covers⟩ := covered q inV
      rcases mem_cons.mp inBs with rfl | inBs
      · exact absurd covers outside
      · exact ⟨c, inBs, covers⟩)
    have first : (V.filter fun q => b.base ≤ q ∧ q < b.base + 2 ^ b.order).card ≤ b.size := by
      apply Nat.le_trans (Finset.card_le_card (t := (Finset.range b.size).image (b.base + ·)) _)
      · exact card_image_le.trans (card_range _).le
      · intro q mem
        obtain ⟨-, low, high⟩ := mem_filter.mp mem
        refine Finset.mem_image.mpr ⟨q - b.base, Finset.mem_range.mpr ?_, by omega⟩
        rw [Block.size]
        omega
    have split := card_filter_add_card_filter_not (s := V)
      (fun q => b.base ≤ q ∧ q < b.base + 2 ^ b.order)
    simp only [heldPages, List.map_cons, List.sum_cons] at rest ⊢
    omega

variable (managed : Managed U s held)
include managed

lemma managed_ram (m : Store) : Managed U { s with ram := m } held := by
  obtain ⟨free, core⟩ := managed
  exact ⟨free, core.congr rfl rfl rfl⟩

lemma Managed.reachable (inside : p ∈ U) : pfnToPhys p < kernelPhysMax := by
  obtain ⟨free, core⟩ := managed
  exact core.pfnToPhys_lt inside

/-- `alloc_page` hands out a page that was not in use, or all pages are in use. -/
lemma allocPage_spec :
    (∃ p s', allocPage s = some (some (pfnToPhys p), s') ∧ FreshPage U held s p s') ∨
    (allocPage s = some (none, s) ∧ U.card ≤ heldPages held) := by
  obtain ⟨free, core⟩ := managed
  rcases allocPages_lists core 0 with ⟨p, s', free', -, call, done, -⟩ | ⟨failed, empty⟩
  · left
    have covers : (⟨p, 0⟩ : Block).Covers p := Block.covers_base ⟨p, 0⟩
    have rest := congrArg Kmem.ram done.frame.rest
    have ram : s'.ram = fill s.ram (pfnToPhys p) (pageSize * 2 ^ 0) 0 := rest
    refine ⟨p, s', call, ⟨free', done.core⟩, done.core.held_base_mem, ?_, ?_, ?_⟩
    · intro b mem both
      have parts := (pairwise_append.mp done.core.tiling.apart).2.1
      exact ((pairwise_cons.mp parts).1 b mem).not_covers covers both
    · intro b aligned other
      rw [ram]
      apply samePage_fill
      simpa using page_apart (pfnToPhys_aligned p) aligned other.symm
    · intro x low high
      rw [ram]
      exact fill_inside low (by simpa using high)
  · refine .inr ⟨failed, card_le_heldPages held U fun q inside => ?_⟩
    obtain ⟨b, mem, covers⟩ := (core.tiling.cover q).mp inside
    rcases mem_append.mp mem with listed | mem
    · obtain ⟨small, listed⟩ := mem_gather.mp listed
      rw [empty b.order (Nat.zero_le _) (Nat.le_of_lt_succ small)] at listed
      cases listed
    · exact ⟨b, mem, covers⟩

lemma allocTablePage_spec :
    (∃ p s', allocTablePage s = some (some (pfnToPhys p), s') ∧ FreshPage U held s p s') ∨
    (allocTablePage s = some (none, s) ∧ U.card ≤ heldPages held) := by
  rcases allocPage_spec managed with ⟨p, s', call, fresh⟩ | ⟨failed, full⟩
  · left
    refine ⟨p, { s' with ram := fill s'.ram (pfnToPhys p) pageSize 0 }, ?_, ?_⟩
    · simp [allocTablePage, call]
    · refine { fresh with
        managed := managed_ram fresh.managed _, other := fun b aligned other => ?_,
        zero := fun x low high => fill_inside low high }
      apply (fresh.other b aligned other).trans
      exact samePage_fill (page_apart (pfnToPhys_aligned p) aligned other.symm)
  · right
    exact ⟨by simp [allocTablePage, failed], full⟩

/-! ## Reference counts -/

omit managed

lemma setRef_pages (s : Kmem) (p count q : Nat) :
    ∃ n, (setRef s p count).pages q = { s.pages q with refCount := n } := by
  rcases eq_or_ne q p with rfl | other
  · exact ⟨count, Kmem.setPage_pages_self ..⟩
  · exact ⟨_, Kmem.setPage_pages_of_ne other⟩

lemma setRef_flags (s : Kmem) (p count q : Nat) :
    ((setRef s p count).pages q).flags = (s.pages q).flags := by
  obtain ⟨n, is⟩ := setRef_pages s p count q
  rw [is]

lemma managed_setRef (managed : Managed U s held) (q count : Nat) :
    Managed U (setRef s q count) held := by
  obtain ⟨free, core⟩ := managed
  refine ⟨free, ?_, core.tiling, ?_, ?_, ?_, core.bound, core.total⟩
  · intro k kle
    have links : (setRef s q count).nextOf = s.nextOf := Kmem.setPage_nextOf fun _ => rfl
    rw [links]
    exact core.chain k kle
  · intro k kle r mem
    obtain ⟨n, is⟩ := setRef_pages s q count r
    have head := core.head k kle r mem
    exact ⟨by rw [is, ← head.flags], by rw [is, ← head.order], by rw [is, ← head.physAddr]⟩
  · intro r outside
    rw [setRef_flags]
    exact core.notFree r outside
  · intro r inside
    rw [setRef_flags]
    exact core.notReserved r inside

end AuroraOS.PageTable
