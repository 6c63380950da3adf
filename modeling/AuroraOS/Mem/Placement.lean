import AuroraOS.Mem.MemoryMap

/-!
# The page allocator in the memory it manages

The static data of `mem.c` stand in the kernel image, which is loaded at 1 MiB.  `phys_mem_init`
reserves 2 MiB there, but `page_array` alone has 3 MiB, so part of the data stand in pages that
`alloc_pages` hands out and clears.  A `Layout` says where the linker has put the data.  The
partition of the managed pages is kept if those in use are outside the managed pages (`Apart`), and
lost if, as in a debug build, the rest of the data stand behind `page_array`.
-/

namespace AuroraOS.Mem

open Lib List Relation

/-- The addresses of the zero-initialised data of `mem.c`.  `phys_mem_base` has an initial value and
stands with the other such data at the start of the image, below 3 MiB. -/
structure Layout where
  pageArray : Nat
  freeArea : Nat
  totalPhysPages : Nat
  physMemEnd : Nat
  statTotalPages : Nat
  statUsedPages : Nat
deriving DecidableEq, Repr

def sizeofPage : Nat := 48

/-- A descriptor at the address `a`, the fields whose addresses are `hit` cleared. -/
def Page.cleared (hit : Nat → Bool) (a : Nat) (p : Page) : Page where
  flags := if hit a then {} else p.flags
  order := if hit (a + 4) then 0 else p.order
  refCount := if hit (a + 8) then 0 else p.refCount
  physAddr := if hit (a + 16) then 0 else p.physAddr
  next := if hit (a + 32) then none else p.next
  slabCache := if hit (a + 40) then none else p.slabCache

lemma Page.cleared_used {hit : Nat → Bool} {a : Nat} {p : Page} (used : p.flags.free = false) :
    (p.cleared hit a).flags.free = false := by
  change (if hit a then ({} : PageFlags) else p.flags).free = false
  split
  · rfl
  · exact used

/-- An address in the `2 ^ order` pages from `pa` on. -/
def inPages (pa order a : Nat) : Bool := decide (pa ≤ a ∧ a < pa + pageSize * 2 ^ order)

namespace Layout

variable (l : Layout)

/-- The static data with the fields whose addresses are `hit` cleared. -/
def cleared (hit : Nat → Bool) (s : Kmem) : Kmem :=
  { s with
    pages := fun pfn => if pfn < buddyMaxPages then
      (s.pages pfn).cleared hit (l.pageArray + sizeofPage * pfn) else s.pages pfn
    freeArea := fun k => if hit (l.freeArea + 8 * k) then none else s.freeArea k
    totalPhysPages := if hit l.totalPhysPages then 0 else s.totalPhysPages
    physMemEnd := if hit l.physMemEnd then 0 else s.physMemEnd
    statTotalPages := if hit l.statTotalPages then 0 else s.statTotalPages
    statUsedPages := if hit l.statUsedPages then 0 else s.statUsedPages }

/-- `alloc_pages` in this layout: its `memset` clears the data that stand in the pages it hands out.
A field is in them as a whole or not at all, being aligned to its size.  The address 0 is `NULL`. -/
def allocPages (s : Kmem) (order : Nat) : Option (Option Nat × Kmem) := do
  match ← Mem.allocPages s order with
  | (none, s) => some (none, s)
  | (some pa, s) =>
    some (if pa = 0 then none else some pa, l.cleared (inPages pa order) s)

/-- One call in this layout. -/
abbrev Step : Kmem × List Grant → Kmem × List Grant → Prop := Mem.Step l.allocPages

/-- The data in use with `total` pages, as addresses and lengths: of `page_array` the descriptors of
these pages. -/
def inUse (total : Nat) : List (Nat × Nat) :=
  [(l.pageArray, sizeofPage * total), (l.freeArea, 8 * (maxOrder + 1)), (l.totalPhysPages, 8),
    (l.physMemEnd, 8), (l.statTotalPages, 8), (l.statUsedPages, 8)]

/-- None of the data in use stands in a page that is handed out. -/
def Apart (total : Nat) : Prop :=
  ∀ r ∈ l.inUse total, ∀ x, r.1 ≤ x → x < r.1 + r.2 → physToPfn x ∉ managedPages total

end Layout

/-! ## What clearing keeps -/

/-- The states agree in all that the invariants speak of; a descriptor of no page may have been
cleared. -/
structure Agrees (s t : Kmem) : Prop where
  total : t.totalPhysPages = s.totalPhysPages
  statTotal : t.statTotalPages = s.statTotalPages
  statUsed : t.statUsedPages = s.statUsedPages
  lists : ∀ k ≤ maxOrder, t.freeArea k = s.freeArea k
  pages : ∀ pfn < s.totalPhysPages, t.pages pfn = s.pages pfn
  others : ∀ pfn, (s.pages pfn).flags.free = false → (t.pages pfn).flags.free = false

section Agrees

variable {U : Finset Nat} {s t : Kmem} {free : Nat → List Nat} {held : List Block}
  {out : List Grant}

lemma Core.of_agrees (core : Core U s free held) (agrees : Agrees s t) : Core U t free held := by
  have listed : ∀ k ≤ maxOrder, ∀ p ∈ free k, t.pages p = s.pages p := fun k kle p mem =>
    agrees.pages p (core.bound p
      (core.tiling.base_mem (mem_append_left _ (mem_gather_of_listed kle mem))))
  refine ⟨fun k kle => ?_, core.tiling, fun k kle p mem => ?_, fun p outside => ?_,
    fun p inside => ?_, fun p inside => ?_, ?_⟩
  · rw [agrees.lists k kle]
    refine (core.chain k kle).congr fun p mem => ?_
    rw [Kmem.nextOf, Kmem.nextOf, listed k kle p mem]
  · exact (core.head k kle p mem).of_pages (listed k kle p mem)
  · exact agrees.others p (core.notFree p outside)
  · rw [agrees.pages p (core.bound p inside)]
    exact core.notReserved p inside
  · rw [agrees.total]
    exact core.bound p inside
  · rw [agrees.total]
    exact core.total

lemma RunInv.of_agrees (run : RunInv s free out) (agrees : Agrees s t) : RunInv t free out := by
  have same : ∀ b ∈ out.map Grant.block, t.pages b.base = s.pages b.base := fun b mem =>
    agrees.pages b.base (run.inv.core.bound b.base
      (run.inv.core.tiling.base_mem (mem_append_right _ mem)))
  refine ⟨⟨?_, fun b mem => ?_, ?_, ?_⟩, run.ptr, fun g mem => ?_⟩
  · rw [agrees.total]
    exact run.inv.core.of_agrees agrees
  · exact (run.inv.heads b mem).of_desc (congrArg Page.unlinked (same b mem))
  · rw [agrees.statTotal, agrees.total]
    exact run.inv.statTotal
  · rw [agrees.statUsed]
    exact run.inv.statUsed
  · rw [same _ (mem_map_of_mem mem)]
    exact run.plain g mem

/-- The pages of a grant are managed. -/
lemma RunInv.managed_of_granted {g : Grant} (run : RunInv s free out) (granted : g ∈ out) {x : Nat}
    (inside : inPages g.ptr g.order x = true) : physToPfn x ∈ managedPages s.totalPhysPages := by
  obtain ⟨low, high⟩ := of_decide_eq_true inside
  refine (run.inv.core.tiling.cover _).mpr
    ⟨g.block, mem_append_right _ (mem_map_of_mem granted), ?_⟩
  have place := run.ptr g granted
  rw [pfnToPhys, physMemBase, pageSize] at place
  rw [pageSize] at high
  rw [Block.Covers, physToPfn, physMemBase, pageSize, if_neg (by omega),
    show g.block.order = g.order from rfl]
  omega

variable {l : Layout}

/-- Clearing addresses at which nothing in use stands changes nothing in use. -/
lemma Layout.agrees_cleared {hit : Nat → Bool} (small : s.totalPhysPages ≤ buddyMaxPages)
    (missed : ∀ r ∈ l.inUse s.totalPhysPages, ∀ off < r.2, hit (r.1 + off) = false) :
    Agrees s (l.cleared hit s) := by
  simp only [Layout.inUse, mem_cons, not_mem_nil, or_false, forall_eq_or_imp, forall_eq] at missed
  obtain ⟨pages, lists, total, -, statTotal, statUsed⟩ := missed
  refine ⟨?_, ?_, ?_, fun k kle => ?_, fun pfn below => ?_, fun pfn used => ?_⟩
  · exact if_neg (by rw [show hit l.totalPhysPages = false from total 0 (by decide)]; decide)
  · exact if_neg (by rw [show hit l.statTotalPages = false from statTotal 0 (by decide)]; decide)
  · exact if_neg (by rw [show hit l.statUsedPages = false from statUsed 0 (by decide)]; decide)
  · exact if_neg (by rw [lists (8 * k) (by omega)]; decide)
  · have field : ∀ off < sizeofPage, hit (l.pageArray + sizeofPage * pfn + off) = false := by
      intro off inside
      rw [Nat.add_assoc]
      exact pages _ (by unfold sizeofPage at *; omega)
    have first := field 0 (by decide)
    rw [Nat.add_zero] at first
    simp only [Layout.cleared, if_pos (Nat.lt_of_lt_of_le below small), Page.cleared, first,
      field 4 (by decide), field 8 (by decide), field 16 (by decide), field 32 (by decide),
      field 40 (by decide), Bool.false_eq_true, if_false]
  · simp only [Layout.cleared]
    split
    · exact Page.cleared_used used
    · exact used

/-- Where the data in use are apart from the managed pages, clearing the pages of a grant changes
none of them. -/
lemma Layout.Apart.agrees (apart : l.Apart s.totalPhysPages) {g : Grant} (run : RunInv s free out)
    (granted : g ∈ out) : Agrees s (l.cleared (inPages g.ptr g.order) s) := by
  refine Layout.agrees_cleared run.inv.core.total fun r mem off inside => ?_
  rw [Bool.eq_false_iff]
  exact fun hit => apart r mem _ (Nat.le_add_right ..) (Nat.add_lt_add_left inside _)
    (run.managed_of_granted granted hit)

end Agrees

/-! ## Runs -/

variable {l : Layout} {s : Kmem} {free : Nat → List Nat} {out : List Grant}

/-- `RunInv.alloc` in a layout with the data in use apart. -/
lemma RunInv.allocPlaced (run : RunInv s free out) (apart : l.Apart s.totalPhysPages)
    (order : Nat) : AllocSpec l.allocPages s free out order := by
  rcases run.alloc order with ⟨ptr, s', free', call, inv, thin, total⟩ | ⟨failed, empty⟩
  · rw [← total] at apart
    have agrees := apart.agrees inv (mem_cons_self ..)
    refine .inl ⟨ptr, _, free', ?_, inv.of_agrees agrees, thin, agrees.total.trans total⟩
    have positive : ptr ≠ 0 := by
      have place := inv.ptr _ (mem_cons_self ..)
      rw [pfnToPhys, physMemBase] at place
      change ptr = _ at place
      omega
    rw [Layout.allocPages, call]
    simp [positive]
  · refine .inr ⟨?_, empty⟩
    rw [Layout.allocPages, failed]
    rfl

lemma Layout.runInv_of_reach {a b : Kmem × List Grant} (apart : l.Apart a.1.totalPhysPages)
    (reach : ReflTransGen l.Step a b) (inv : ∃ free, RunInv a.1 free a.2 ∧ PairFree 0 free) :
    (∃ free, RunInv b.1 free b.2 ∧ PairFree 0 free) ∧ b.1.totalPhysPages = a.1.totalPhysPages :=
  Mem.runInv_of_reach (fun _ _ _ order same run => run.allocPlaced (by rwa [same]) order) reach inv

/-- In every state reachable from `phys_mem_init` by allocations of any order and frees of
outstanding grants the blocks partition the managed pages, and no call hangs, if the data in use
are apart from the managed pages. -/
theorem reachable_blockPartition {ram : Store} {mbInfo fuel totalRam : Nat}
    (detected : detectRam ram mbInfo fuel = some totalRam)
    (apart : l.Apart (totalRam / pageSize)) :
    ∃ init, physMemInit { ram := ram } mbInfo fuel = some init ∧
      init.totalPhysPages = totalRam / pageSize ∧
      ∀ s out, ReflTransGen l.Step (init, []) (s, out) →
        (∃ free, BlockPartition s free out) ∧
        (∀ order, ∃ result s', l.allocPages s order = some (result, s')) ∧
        ∀ g ∈ out, ∃ s', freePages s g.ptr g.order = some s' := by
  obtain ⟨init, free, run, inv, pairs, pages, -⟩ := physMemInit_spec detected
  rw [← pages] at apart
  refine ⟨init, run, pages, fun s out reach => ?_⟩
  obtain ⟨⟨free', inv', -⟩, total⟩ := Layout.runInv_of_reach apart reach ⟨free, inv, pairs⟩
  refine ⟨⟨free', inv'.partition⟩, fun order => ?_, fun g granted => ?_⟩
  · rcases inv'.allocPlaced (l := l) (by rwa [total]) order with ⟨ptr, s', _, call, -⟩ | ⟨failed, -⟩
    · exact ⟨some ptr, s', call⟩
    · exact ⟨none, s, failed⟩
  · obtain ⟨s', _, call, -⟩ := inv'.release granted
    exact ⟨s', call⟩

/-- In every state reachable from `phys_mem_init` no two buddies of one order below the largest are
listed, and `alloc_pages` fails only where no aligned run of the requested size is unused, if the
data in use are apart from the managed pages. -/
theorem reachable_maximal {ram : Store} {mbInfo fuel totalRam : Nat}
    (detected : detectRam ram mbInfo fuel = some totalRam)
    (apart : l.Apart (totalRam / pageSize)) :
    ∃ init, physMemInit { ram := ram } mbInfo fuel = some init ∧
      ∀ s out, ReflTransGen l.Step (init, []) (s, out) →
        (∃ free : Nat → List Nat,
          (∀ k ≤ maxOrder, Chain s.nextOf (s.freeArea k) (free k)) ∧
          ∀ k < maxOrder, ∀ p ∈ free k, p ^^^ 2 ^ k ∉ free k) ∧
        ∀ order ≤ maxOrder, ∀ s', l.allocPages s order = some (none, s') →
          ¬∃ base, 2 ^ order ∣ base ∧
            ∀ pfn, base ≤ pfn → pfn < base + 2 ^ order → Unused init out pfn := by
  obtain ⟨init, free, run, inv, pairs, pages, -⟩ := physMemInit_spec detected
  rw [← pages] at apart
  refine ⟨init, run, fun s out reach => ?_⟩
  obtain ⟨⟨free', inv', pairs'⟩, total⟩ := Layout.runInv_of_reach apart reach ⟨free, inv, pairs⟩
  refine ⟨⟨free', inv'.inv.core.chain, fun k => pairs' k (Nat.zero_le _)⟩, ?_⟩
  intro order fits s' failed hole
  obtain ⟨base, aligned, unused⟩ := hole
  have here : ∀ pfn, base ≤ pfn → pfn < base + 2 ^ order → Unused s out pfn := by
    intro pfn low high
    rw [Unused, show s.totalPhysPages = init.totalPhysPages from total]
    exact unused pfn low high
  obtain ⟨b, listed, large, -⟩ := inv'.exists_listed_of_run pairs' fits aligned here
  obtain ⟨bound, listed⟩ := mem_gather.mp listed
  rcases inv'.allocPlaced (l := l) (by rwa [total]) order with ⟨ptr, t, _, call, -⟩ | ⟨-, empty⟩
  · cases failed.symm.trans call
  · exact ne_nil_of_mem listed (empty b.order large (Nat.le_of_lt_succ bound))

/-! ## Two layouts -/

/-- With a block of its order listed `alloc_pages` takes the first one. -/
lemma allocPages_first {order p : Nat} (fits : order ≤ maxOrder) (first : s.freeArea order = some p)
    (place : (s.pages p).physAddr = pfnToPhys p) (low : pfnToPhys p < kernelPhysMax) :
    ∃ s', allocPages s order = some (some (pfnToPhys p), s') := by
  have found : findOrder s order = some order := by
    obtain ⟨n, enough⟩ : ∃ n, maxOrder + 1 - order = n + 1 := ⟨maxOrder - order, by omega⟩
    rw [findOrder, enough, range'_succ, find?_cons_of_pos (by rw [first]; rfl)]
  have reach : ¬pfnToPhys p ≥ kernelPhysMax := not_le.mpr low
  rw [allocPages, if_neg (not_lt.mpr fits), found]
  simp only [Nat.sub_self, splitDown, takeBlock, first, listDel, Option.bind_eq_bind,
    Option.bind_some, Kmem.setPage_pages_self, Kmem.setNext, Kmem.setFreeArea_pages, if_true, place,
    if_neg reach]
  exact ⟨_, rfl⟩

/-- Without grants the buddy of a listed block is not managed as a whole. -/
lemma RunInv.buddy_unmanaged {k p : Nat} (run : RunInv s free []) (pairs : PairFree 0 free)
    (klt : k < maxOrder) (mem : p ∈ free k) : ∃ pfn, p ^^^ 2 ^ k ≤ pfn ∧
      pfn < (p ^^^ 2 ^ k) + 2 ^ k ∧ pfn ∉ managedPages s.totalPhysPages := by
  by_contra! managed
  have tiling := run.inv.core.tiling
  have here := mem_append_left [] (mem_gather_of_listed klt.le mem)
  -- the buddy starts a block of order `k` at most, and is in one of order `k` at least
  obtain ⟨b, listed, large, covers⟩ := run.exists_listed_of_run pairs klt.le
    (dvd_xor_two_pow (tiling.aligned _ here)) fun pfn low high => ⟨managed pfn low high, nofun⟩
  obtain ⟨i, small, owner⟩ := tiling.exists_head_of_buddy here
    (managed _ le_rfl (Nat.lt_add_of_pos_right (Nat.two_pow_pos k)))
  obtain rfl := tiling.eq_of_covers (mem_append_left _ listed) owner covers
    (Block.covers_base ⟨_, i⟩)
  obtain rfl : i = k := le_antisymm small large
  exact pairs i (Nat.zero_le _) klt p mem (mem_gather.mp listed).2

/-- The block that starts at 3 MiB, before the heap, is the only one of 2 MiB: every other run of
that size has an unused buddy. -/
lemma RunInv.first_of_64MiB (run : RunInv s free []) (pairs : PairFree 0 free)
    (total : s.totalPhysPages = 16384) : 512 ∈ free 9 ∧ s.freeArea 9 = some 512 := by
  have tiling := run.inv.core.tiling
  have managed : ∀ p, p ∈ managedPages s.totalPhysPages ↔
      p < 16384 ∧ 512 ≤ p ∧ ¬(2048 ≤ p ∧ p < 8192) := fun p => by rw [mem_managedPages, total]
  have inside : ∀ b ∈ gather (maxOrder + 1) free, ∀ p, b.Covers p →
      p ∈ managedPages s.totalPhysPages := fun b mem p covers =>
    (tiling.cover p).mpr ⟨b, mem_append_left _ mem, covers⟩
  have listed : 512 ∈ free 9 := by
    have unused : ∀ pfn, 512 ≤ pfn → pfn < 512 + 2 ^ 9 → Unused s [] pfn := fun pfn low high =>
      ⟨(managed pfn).mpr (by omega), nofun⟩
    obtain ⟨⟨p, k⟩, mem, large, low, high⟩ :=
      run.exists_listed_of_run pairs (by decide) (by decide) unused
    obtain ⟨bound, listed⟩ := mem_gather.mp mem
    have aligned : 2 ^ k ∣ p := tiling.aligned _ (mem_append_left _ mem)
    have start := (managed p).mp (inside _ mem p (Block.covers_base _))
    simp only [maxOrder] at bound large low high listed
    obtain rfl : p = 512 := by omega
    obtain rfl | rfl : k = 9 ∨ k = 10 := by omega
    · exact listed
    · exact absurd aligned (by decide)
  have only : ∀ p ∈ free 9, p = 512 := by
    intro p mem
    have here := mem_append_left [] (mem_gather_of_listed (k := 9) (by decide) mem)
    have start := (managed p).mp ((tiling.cover p).mpr ⟨_, here, Block.covers_base _⟩)
    obtain ⟨pfn, low, high, outside⟩ := run.buddy_unmanaged pairs (by decide) mem
    have aligned : 2 ^ 9 ∣ p := tiling.aligned _ here
    obtain ⟨-, ⟨m, rfl⟩, pair⟩ := xor_two_pow_cases aligned
    by_contra other
    exact outside ((managed pfn).mpr (by omega))
  have chain := run.inv.core.chain 9 (by decide)
  refine ⟨listed, ?_⟩
  cases lists : free 9 with
  | nil =>
    rw [lists] at listed
    cases listed
  | cons p rest =>
    rw [lists] at chain
    rw [chain.1, only p (by rw [lists]; exact mem_cons_self ..)]

/-- The first call: 2 MiB from the boot information `bootRam`, which gives 64 MiB. -/
lemma first_call (l : Layout) : ∃ init s, physMemInit { ram := bootRam } 0x1000 4 = some init ∧
    init.totalPhysPages = 16384 ∧
    l.allocPages init 9 = some (some 0x300000, l.cleared (inPages 0x300000 9) s) := by
  obtain ⟨init, free, call, run, pairs, pages, -⟩ := physMemInit_spec detectRam_bootRam
  have total : init.totalPhysPages = 16384 := pages.trans (by decide)
  obtain ⟨listed, first⟩ := run.first_of_64MiB pairs total
  obtain ⟨s, taken⟩ := allocPages_first (by decide) first
    (run.inv.core.head 9 (by decide) 512 listed).physAddr (by decide)
  refine ⟨init, s, call, total, ?_⟩
  rw [Layout.allocPages, taken]
  rfl

/-- A release build: `page_array` stands behind the other data. -/
def dataFirst : Layout where
  statUsedPages := 0x164640
  statTotalPages := 0x164648
  physMemEnd := 0x164650
  freeArea := 0x164660
  totalPhysPages := 0x1646B8
  pageArray := 0x1646C0

/-- With 64 MiB the descriptors in use end at 0x2246C0. -/
lemma dataFirst_apart : dataFirst.Apart (0x4000000 / pageSize) := by
  intro r mem x low high
  have inside : 0x164640 ≤ x ∧ x < 0x2246C0 := by
    simp only [Layout.inUse, dataFirst, mem_cons, not_mem_nil, or_false] at mem
    rcases mem with rfl | rfl | rfl | rfl | rfl | rfl <;>
      simp only [sizeofPage, pageSize, maxOrder] at low high <;> omega
  rw [mem_managedPages, physToPfn, physMemBase, pageSize, if_neg (by omega)]
  omega

/-- With 64 MiB the 4 MiB behind the first block are managed and unused. -/
lemma behind_unused (total : s.totalPhysPages = 16384) (pfn : Nat) (low : 1024 ≤ pfn)
    (high : pfn < 1024 + 2 ^ 10) : Unused s [⟨0x300000, 9⟩] pfn := by
  refine ⟨?_, fun g mem covers => ?_⟩
  · rw [total, mem_managedPages]
    omega
  · obtain rfl := mem_singleton.mp mem
    have inside : 512 ≤ pfn ∧ pfn < 512 + 512 := covers
    omega

/-- With 64 MiB, 2 MiB are handed out and given back; the blocks are a partition each time. -/
theorem reachable_blockPartition_dataFirst :
    ∃ init s t, physMemInit { ram := bootRam } 0x1000 4 = some init ∧
      dataFirst.allocPages init 9 = some (some 0x300000, s) ∧
      (∃ free, BlockPartition s free [⟨0x300000, 9⟩]) ∧
      freePages s 0x300000 9 = some t ∧ ∃ free, BlockPartition t free [] := by
  obtain ⟨init, run, -, reach⟩ := reachable_blockPartition detectRam_bootRam dataFirst_apart
  obtain ⟨init', s, run', -, call⟩ := first_call dataFirst
  cases run.symm.trans run'
  have step : ReflTransGen dataFirst.Step (init, []) _ := .single (.alloc call)
  obtain ⟨partition, -, frees⟩ := reach _ _ step
  obtain ⟨t, release⟩ := frees ⟨0x300000, 9⟩ (mem_cons_self ..)
  refine ⟨init, _, t, run, call, partition, release, ?_⟩
  have back := (reach _ _ (step.tail (.free (mem_cons_self ..) release))).1
  rwa [erase_cons_head] at back

/-- With 64 MiB, after 2 MiB have been handed out no two buddies are listed, and 4 MiB more do not
fail. -/
theorem reachable_maximal_dataFirst :
    ∃ init s, physMemInit { ram := bootRam } 0x1000 4 = some init ∧
      dataFirst.allocPages init 9 = some (some 0x300000, s) ∧
      (∃ free : Nat → List Nat, (∀ k ≤ maxOrder, Chain s.nextOf (s.freeArea k) (free k)) ∧
        ∀ k < maxOrder, ∀ p ∈ free k, p ^^^ 2 ^ k ∉ free k) ∧
      ∀ s', dataFirst.allocPages s 10 ≠ some (none, s') := by
  obtain ⟨init, run, reach⟩ := reachable_maximal detectRam_bootRam dataFirst_apart
  obtain ⟨init', s, run', total, call⟩ := first_call dataFirst
  cases run.symm.trans run'
  obtain ⟨lists, fails⟩ := reach _ _ (.single (.alloc call))
  refine ⟨init, _, run, call, lists, fun s' none => ?_⟩
  exact fails 10 (by decide) s' none ⟨1024, by decide, behind_unused total⟩

/-- A debug build: the other data stand behind `page_array`. -/
def arrayFirst : Layout where
  pageArray := 0x178460
  totalPhysPages := 0x478460
  physMemEnd := 0x478468
  freeArea := 0x478480
  statTotalPages := 0x4784D8
  statUsedPages := 0x4784E0

/-- The first call clears the lists: they are all empty. -/
lemma arrayFirst_lists (s : Kmem) {k : Nat} (kle : k ≤ maxOrder) :
    (arrayFirst.cleared (inPages 0x300000 9) s).freeArea k = none := by
  unfold maxOrder at kle
  refine if_pos (decide_eq_true ?_)
  simp only [arrayFirst, pageSize]
  omega

/-- After one call no block is listed, and the block that was handed out is not counted as used. -/
theorem lists_lost : ∃ init s, physMemInit { ram := bootRam } 0x1000 4 = some init ∧
    ReflTransGen arrayFirst.Step (init, []) (s, [⟨0x300000, 9⟩]) ∧
    (∀ k ≤ maxOrder, s.freeArea k = none) ∧ s.statUsedPages = 0 ∧
    ¬∃ free, BlockPartition s free [⟨0x300000, 9⟩] := by
  obtain ⟨init, s, run, -, call⟩ := first_call arrayFirst
  have used : (arrayFirst.cleared (inPages 0x300000 9) s).statUsedPages = 0 := rfl
  refine ⟨init, _, run, .single (.alloc call), fun k => arrayFirst_lists s, used, ?_⟩
  rintro ⟨free, partition⟩
  cases used.symm.trans partition.used

/-- After one call 4 MiB are refused, though those from 5 MiB on are unused. -/
theorem unused_refused : ∃ init s, physMemInit { ram := bootRam } 0x1000 4 = some init ∧
    ReflTransGen arrayFirst.Step (init, []) (s, [⟨0x300000, 9⟩]) ∧
    arrayFirst.allocPages s 10 = some (none, s) ∧
    ∀ pfn, 1024 ≤ pfn → pfn < 1024 + 2 ^ 10 → Unused init [⟨0x300000, 9⟩] pfn := by
  obtain ⟨init, s, run, total, call⟩ := first_call arrayFirst
  refine ⟨init, _, run, .single (.alloc call), ?_, behind_unused total⟩
  have none : findOrder (arrayFirst.cleared (inPages 0x300000 9) s) 10 = none := by
    rw [findOrder, show maxOrder + 1 - 10 = 1 from rfl, range'_one, find?_cons_of_neg, find?_nil]
    rw [arrayFirst_lists s (by decide)]
    decide
  rw [Layout.allocPages, allocPages, if_neg (by decide), none]
  rfl

end AuroraOS.Mem
