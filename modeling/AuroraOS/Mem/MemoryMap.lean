import AuroraOS.Mem.BuddyRun

/-!
# The pages of the allocator and the memory map

`phys_mem_init` takes one number from the memory map, the highest end of an available region, and
counts that many pages from 1 MiB on: the last 256 page frames lie above the end of memory, and
reserved regions below it are handed out like any other page.
-/

namespace AuroraOS.Mem

open Lib List Option Relation

/-! ## The map -/

structure Region where
  base : Nat
  length : Nat
deriving DecidableEq, Repr

def Region.HoldsPage (r : Region) (pa : Nat) : Prop :=
  r.base ≤ pa ∧ pa + pageSize ≤ r.base + r.length

def mb2EntryRegions (ram : Store) (entrySize tagEnd : Nat) : Nat → Nat → Option (List Region)
  | 0, _ => none
  | fuel + 1, entries =>
    if entries + entrySize ≤ tagEnd then do
      let rest ← mb2EntryRegions ram entrySize tagEnd fuel (entries + entrySize)
      some (if readU32 ram (entries + 16) = 1 then
        ⟨readU64 ram entries, readU64 ram (entries + 8)⟩ :: rest else rest)
    else some []

def mb2TagRegions (ram : Store) (fuel tag : Nat) : Option (List Region) :=
  if readU32 ram tag = 6 then
    mb2EntryRegions ram (readU32 ram (tag + 8)) ((tag + readU32 ram (tag + 4)) % 2 ^ 32) fuel
      (tag + 16)
  else some []

def mb2Regions (ram : Store) (limit : Nat) : Nat → Nat → Option (List Region)
  | 0, _ => none
  | fuel + 1, tag =>
    if readU32 ram tag ≠ 0 ∧ tag < limit then do
      let here ← mb2TagRegions ram fuel tag
      let rest ← mb2Regions ram limit fuel (tag + mb2TagSize ram tag)
      some (here ++ rest)
    else some []

/-- The available regions of a Multiboot 1 map: the size is at 0 and does not count itself, the
base at 4, the length at 12 and the type at 20. -/
def mb1Regions (ram : Store) (limit : Nat) : Nat → Nat → Option (List Region)
  | 0, _ => none
  | fuel + 1, entries =>
    if entries < limit then
      let size := readU32 ram entries
      if size < 20 then some []
      else do
        let rest ← if size > 2 ^ 32 - 1 - 4 then some []
          else mb1Regions ram limit fuel (entries + (size + 4))
        some (if readU32 ram (entries + 20) = 1 then
          ⟨readU64 ram (entries + 4), readU64 ram (entries + 12)⟩ :: rest else rest)
    else some []

def availableRegions (ram : Store) (mbInfo fuel : Nat) : Option (List Region) :=
  if mbInfo = 0 then some []
  else if readU32 ram (mbInfo + 4) = 0 ∧ readU32 ram mbInfo > 0 ∧
      readU32 ram mbInfo < 0x100000 then
    mb2Regions ram (mbInfo + readU32 ram mbInfo) fuel (mbInfo + 8)
  else if (readU32 ram mbInfo).testBit 6 then
    mb1Regions ram (readU32 ram (mbInfo + 48) + readU32 ram (mbInfo + 44)) fuel
      (readU32 ram (mbInfo + 48))
  else some []

def raiseAll (total : Nat) (regions : List Region) : Nat :=
  regions.foldl (fun total r => raiseTotal total r.base r.length) total

lemma raiseAll_ite (total : Nat) (available : Prop) [Decidable available] (r : Region)
    (rest : List Region) :
    raiseAll total (if available then r :: rest else rest) =
      raiseAll (if available then raiseTotal total r.base r.length else total) rest := by
  split <;> simp only [raiseAll, foldl_cons]

lemma mb2Entries_eq (ram : Store) (entrySize tagEnd fuel entries total : Nat) :
    mb2Entries ram entrySize tagEnd fuel entries total =
      (mb2EntryRegions ram entrySize tagEnd fuel entries).map (raiseAll total) := by
  induction fuel generalizing entries total with
  | zero => rfl
  | succ fuel ih =>
    unfold mb2Entries mb2EntryRegions
    split
    · simp only [ih]
      cases mb2EntryRegions ram entrySize tagEnd fuel (entries + entrySize) with
      | none => rfl
      | some rest =>
        simp only [map_some, bind_eq_bind, bind_some, raiseAll_ite]
    · rfl

lemma mb1Regions_of_entries {ram : Store} {limit fuel entries total result : Nat}
    (run : mb1Entries ram limit fuel entries total = some result) :
    ∃ regions, mb1Regions ram limit fuel entries = some regions := by
  induction fuel generalizing entries total with
  | zero => cases run
  | succ fuel ih =>
    unfold mb1Entries at run
    unfold mb1Regions
    dsimp only at run ⊢
    split
    · rw [if_pos ‹_›] at run
      split
      · exact ⟨[], rfl⟩
      rw [if_neg ‹_›] at run
      split
      · exact ⟨_, rfl⟩
      · rw [if_neg ‹_›] at run
        obtain ⟨rest, listed⟩ := ih run
        rw [listed]
        exact ⟨_, rfl⟩
    · exact ⟨[], rfl⟩

lemma mb2Regions_of_tags {ram : Store} {limit fuel tag total result : Nat}
    (run : mb2Tags ram limit fuel tag total = some result) :
    ∃ regions, mb2Regions ram limit fuel tag = some regions := by
  induction fuel generalizing tag total with
  | zero => cases run
  | succ fuel ih =>
    unfold mb2Tags at run
    unfold mb2Regions
    split
    · rw [if_pos ‹_›] at run
      obtain ⟨raised, mapped, after⟩ := bind_eq_some_iff.mp run
      obtain ⟨rest, listed⟩ := ih after
      have here : ∃ regions, mb2TagRegions ram fuel tag = some regions := by
        unfold mb2Map at mapped
        unfold mb2TagRegions
        split
        · rw [if_pos ‹_›, mb2Entries_eq] at mapped
          obtain ⟨regions, is, _⟩ := map_eq_some_iff.mp mapped
          exact ⟨regions, is⟩
        · exact ⟨[], rfl⟩
      obtain ⟨regions, is⟩ := here
      exact ⟨regions ++ rest, by rw [is, listed]; rfl⟩
    · exact ⟨[], rfl⟩

/-- Where the detection ends, the map is read to its end. -/
lemma exists_regions {ram : Store} {mbInfo fuel totalRam : Nat}
    (detected : detectRam ram mbInfo fuel = some totalRam) :
    ∃ regions, availableRegions ram mbInfo fuel = some regions := by
  obtain ⟨total, boot, _⟩ := bind_eq_some_iff.mp detected
  unfold bootTotal at boot
  unfold availableRegions
  split
  · exact ⟨[], rfl⟩
  rw [if_neg ‹_›] at boot
  split
  · rw [if_pos ‹_›] at boot
    exact mb2Regions_of_tags boot
  rw [if_neg ‹_›] at boot
  split
  · rename_i mapped
    unfold mb1Detect at boot
    simp only [mapped] at boot
    obtain ⟨raised, read, _⟩ := bind_eq_some_iff.mp boot
    exact mb1Regions_of_entries read
  · exact ⟨[], rfl⟩

/-! ## Every managed page is handed out -/

def unusedPages (s : Kmem) (out : List Grant) : Finset Nat :=
  (managedPages s.totalPhysPages).filter fun pfn => ∀ g ∈ out, ¬g.block.Covers pfn

lemma mem_unusedPages {s : Kmem} {out : List Grant} {pfn : Nat} :
    pfn ∈ unusedPages s out ↔ Unused s out pfn := by
  unfold unusedPages Unused
  rw [Finset.mem_filter]

namespace RunInv

variable {s s' : Kmem} {free : Nat → List Nat} {out : List Grant}

lemma unused_of_grant {g : Grant} (run : RunInv s free (g :: out)) :
    Unused s out g.block.base := by
  have parts := run.partition
  refine ⟨(parts.cover _).mp ⟨g.block, ?_, g.block.covers_base⟩, fun h mem covers => ?_⟩
  · exact mem_append_right _ mem_cons_self
  · have grants := (pairwise_append.mp parts.disjoint).2.1
    rw [map_cons, pairwise_cons] at grants
    exact (grants.1 h.block (mem_map_of_mem mem)).not_covers g.block.covers_base covers

lemma exists_grant {pfn : Nat} (run : RunInv s free out) (pairs : PairFree 0 free)
    (managed : pfn ∈ managedPages s.totalPhysPages) :
    ∃ s' out', ReflTransGen (Step allocPages) (s, out) (s', out') ∧
      ∃ g ∈ out', g.block.Covers pfn := by
  induction left : (unusedPages s out).card using Nat.strong_induction_on
    generalizing s free out with
  | _ n ih =>
    by_cases covered : ∃ g ∈ out, g.block.Covers pfn
    · exact ⟨s, out, .refl, covered⟩
    have unused : Unused s out pfn :=
      ⟨managed, fun g mem covers => covered ⟨g, mem, covers⟩⟩
    obtain ⟨b, listed, -⟩ := run.exists_listed_of_run pairs (Nat.zero_le _)
      (one_dvd pfn) fun q low high => by
        have same : q = pfn := by omega
        rwa [same]
    rcases run.alloc 0 with ⟨ptr, s', free', call, inv', thin, total⟩ | ⟨_, empty⟩
    · have fewer : (unusedPages s' (⟨ptr, 0⟩ :: out)).card < (unusedPages s out).card := by
        refine Finset.card_lt_card ⟨fun q inside => ?_, fun back => ?_⟩
        · obtain ⟨inU, free⟩ := mem_unusedPages.mp inside
          rw [total] at inU
          exact mem_unusedPages.mpr ⟨inU, fun g mem => free g (mem_cons_of_mem _ mem)⟩
        · obtain ⟨inU, free⟩ := inv'.unused_of_grant
          rw [total] at inU
          have again := mem_unusedPages.mp (back (mem_unusedPages.mpr ⟨inU, free⟩))
          exact again.2 _ mem_cons_self (Grant.block ⟨ptr, 0⟩).covers_base
      obtain ⟨t, out', reach, granted⟩ :=
        ih _ (left ▸ fewer) inv' (pairs.thinned thin) (by rwa [total]) rfl
      exact ⟨t, out', .head (Step.alloc call) reach, granted⟩
    · obtain ⟨bound, listed⟩ := mem_gather.mp listed
      exact absurd (empty b.order (Nat.zero_le _) (Nat.le_of_lt_succ bound)) (ne_nil_of_mem listed)

end RunInv

/-! ## Below the end of memory and inside a region -/

/-- The page of a page frame lies below the end of memory and inside one of the regions. -/
def PageInside (memEnd : Nat) (regions : List Region) (pfn : Nat) : Prop :=
  pfnToPhys pfn + pageSize ≤ memEnd ∧ ∃ r ∈ regions, r.HoldsPage (pfnToPhys pfn)

def Grant.Inside (memEnd : Nat) (regions : List Region) (g : Grant) : Prop :=
  ∀ i < 2 ^ g.order, g.ptr + i * pageSize + pageSize ≤ memEnd ∧
    ∃ r ∈ regions, r.HoldsPage (g.ptr + i * pageSize)

/-- In every run from `init`, everything that `alloc_pages` returns is inside. -/
def AlwaysInside (regions : List Region) (init : Kmem) : Prop :=
  ∀ s out, ReflTransGen (Step allocPages) (init, []) (s, out) →
    ∀ g ∈ out, g.Inside init.physMemEnd regions

lemma pfnToPhys_add (pfn i : Nat) : pfnToPhys (pfn + i) = pfnToPhys pfn + i * pageSize := by
  unfold pfnToPhys
  ring

lemma alwaysInside_iff {init : Kmem} {free : Nat → List Nat} {regions : List Region}
    (run : RunInv init free []) (pairs : PairFree 0 free) :
    AlwaysInside regions init ↔
      ∀ pfn ∈ managedPages init.totalPhysPages, PageInside init.physMemEnd regions pfn := by
  constructor
  · intro always pfn managed
    obtain ⟨s, out, reach, g, mem, covers⟩ := run.exists_grant pairs managed
    obtain ⟨⟨_, inv, _⟩, _⟩ := runInv_of_reach (fun _ _ _ order _ inv => inv.alloc order) reach
      ⟨free, run, pairs⟩
    have inside := always s out reach g mem (pfn - g.block.base) ?_
    · rw [inv.ptr g mem, ← pfnToPhys_add, Nat.add_sub_cancel' covers.1] at inside
      exact inside
    · have high := covers.2
      have order : g.block.order = g.order := rfl
      rw [order] at high
      have low := covers.1
      omega
  · intro pages s out reach g mem i small
    obtain ⟨⟨_, inv, _⟩, total⟩ := runInv_of_reach (fun _ _ _ order _ inv => inv.alloc order) reach
      ⟨free, run, pairs⟩
    dsimp only at total
    have managed : g.block.base + i ∈ managedPages init.totalPhysPages := by
      rw [← total]
      refine (inv.partition.cover _).mp ⟨g.block, ?_, Nat.le_add_right _ _, ?_⟩
      · exact mem_append_right _ (mem_map_of_mem mem)
      · exact Nat.add_lt_add_left small _
    have inside := pages _ managed
    rw [PageInside, pfnToPhys_add, ← inv.ptr g mem] at inside
    exact inside

/-- The page frames from 3 MiB up to 9 MiB are the only ones that can do: those behind the heap
reach past the end of memory. -/
lemma managed_inside_iff (memEnd : Nat) (regions : List Region) :
    (∀ pfn ∈ managedPages (memEnd / pageSize), PageInside memEnd regions pfn) ↔
      memEnd / pageSize ≤ 512 ∨ (2304 ≤ memEnd / pageSize ∧ memEnd / pageSize ≤ 8192 ∧
          ∀ pfn, 512 ≤ pfn → pfn < 2048 → ∃ r ∈ regions, r.HoldsPage (pfnToPhys pfn)) := by
  have below (pfn : Nat) : pfnToPhys pfn + pageSize ≤ memEnd ↔ pfn + 257 ≤ memEnd / pageSize := by
    unfold pfnToPhys physMemBase pageSize
    omega
  simp only [mem_managedPages, PageInside, below]
  generalize memEnd / pageSize = n
  constructor
  · intro inside
    by_cases few : n ≤ 512
    · exact .inl few
    have last : 2048 < n ∧ n ≤ 8192 := by
      by_contra outside
      have top := (inside (n - 1) (by omega)).1
      omega
    refine .inr ⟨(inside 2047 (by omega)).1, last.2, fun pfn low high => ?_⟩
    exact (inside pfn (by omega)).2
  · rintro (few | ⟨enough, small, held⟩) pfn ⟨high, low, outside⟩
    · omega
    · exact ⟨by omega, held pfn low (by omega)⟩

/-- Every page that `alloc_pages` ever returns lies below `phys_mem_end` and inside an available
region, if and only if there is no managed page at all, or the detected size is from 9 MiB up to 32
MiB and every page from 3 MiB up to 9 MiB lies inside an available region. -/
theorem returned_inside_iff {ram : Store} {mbInfo fuel totalRam : Nat}
    (detected : detectRam ram mbInfo fuel = some totalRam) :
    ∃ regions init, availableRegions ram mbInfo fuel = some regions ∧
      physMemInit { ram := ram } mbInfo fuel = some init ∧ init.physMemEnd = totalRam ∧
      (AlwaysInside regions init ↔
        totalRam / pageSize ≤ 512 ∨
          (2304 ≤ totalRam / pageSize ∧ totalRam / pageSize ≤ 8192 ∧
            ∀ pfn, 512 ≤ pfn → pfn < 2048 → ∃ r ∈ regions, r.HoldsPage (pfnToPhys pfn))) := by
  obtain ⟨regions, map⟩ := exists_regions detected
  obtain ⟨init, free, call, run, pairs, pages, memEnd⟩ := physMemInit_spec detected
  refine ⟨regions, init, map, call, memEnd, ?_⟩
  rw [alwaysInside_iff run pairs, pages, memEnd]
  exact managed_inside_iff totalRam regions

/-- A Multiboot 2 information at 4 KiB with a map of two available regions: up to 639 KiB, and
from 1 MiB up to 64 MiB. -/
def bootRam : Store :=
  [(0x1000, 80), (0x1008, 6), (0x100C, 64), (0x1010, 24),
    (0x1020, 0x9FC00), (0x1028, 1), (0x1030, 0x100000), (0x1038, 0x3F00000), (0x1040, 1),
    (0x104C, 8)].foldl (fun ram field => leWrite ram field.1 4 field.2) fun _ => 0

def bootRegions : List Region := [⟨0, 0x9FC00⟩, ⟨0x100000, 0x3F00000⟩]

lemma availableRegions_bootRam : availableRegions bootRam 0x1000 4 = some bootRegions := by
  decide +kernel

lemma detectRam_bootRam : detectRam bootRam 0x1000 4 = some 0x4000000 := by
  decide +kernel

/-- Single pages are allocated until the last page frame, 16383, is handed out: its page starts at
65 MiB less 4 KiB, behind the end of memory and of every region. -/
theorem page_behind_memory : availableRegions bootRam 0x1000 4 = some bootRegions ∧
    ∃ init, physMemInit { ram := bootRam } 0x1000 4 = some init ∧ init.physMemEnd = 0x4000000 ∧
      ∃ s out, ReflTransGen (Step allocPages) (init, []) (s, out) ∧
        ∃ g ∈ out, ¬g.Inside init.physMemEnd bootRegions := by
  refine ⟨availableRegions_bootRam, ?_⟩
  obtain ⟨init, free, call, run, pairs, pages, memEnd⟩ := physMemInit_spec detectRam_bootRam
  refine ⟨init, call, memEnd, ?_⟩
  have outside : ¬PageInside init.physMemEnd bootRegions 16383 := by
    rw [memEnd]
    exact fun inside => absurd inside.1 (by decide)
  have managed : 16383 ∈ managedPages init.totalPhysPages := by
    rw [pages]
    exact mem_managedPages.mpr (by decide)
  by_contra all
  have always : AlwaysInside bootRegions init := by
    intro s out reach g mem
    by_contra escapes
    exact all ⟨s, out, reach, g, mem, escapes⟩
  exact outside ((alwaysInside_iff run pairs).mp always 16383 managed)

theorem returned_inside_iff_bootRam : detectRam bootRam 0x1000 4 = some 0x4000000 ∧
    ∃ regions init, availableRegions bootRam 0x1000 4 = some regions ∧
      physMemInit { ram := bootRam } 0x1000 4 = some init ∧ init.physMemEnd = 0x4000000 ∧
      (AlwaysInside regions init ↔
        0x4000000 / pageSize ≤ 512 ∨
          (2304 ≤ 0x4000000 / pageSize ∧ 0x4000000 / pageSize ≤ 8192 ∧
            ∀ pfn, 512 ≤ pfn → pfn < 2048 → ∃ r ∈ regions, r.HoldsPage (pfnToPhys pfn))) :=
  ⟨detectRam_bootRam, returned_inside_iff detectRam_bootRam⟩

end AuroraOS.Mem
