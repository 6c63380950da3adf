import AuroraOS.Mem.BuddyAlloc
import AuroraOS.Mem.BuddyInit
import AuroraOS.Mem.Multiboot

/-!
# Runs of the page allocator

From `phys_mem_init` on, any sequence of `alloc_pages` and of `free_pages` on outstanding blocks
keeps a partition of the managed pages in which no two buddies are free.
-/

namespace AuroraOS.Mem

open Lib List Relation

/-! ## The allocator invariant -/

structure LiveHead (s : Kmem) (b : Block) : Prop where
  fits : b.order ≤ maxOrder
  used : (s.pages b.base).flags.free = false
  physAddr : (s.pages b.base).physAddr = pfnToPhys b.base

variable {s : Kmem}

lemma LiveHead.of_desc {s' : Kmem} {b : Block} (head : LiveHead s b)
    (same : s'.desc b.base = s.desc b.base) : LiveHead s' b :=
  ⟨head.fits, by rw [Kmem.flags_of_desc same]; exact head.used,
    (Kmem.physAddr_of_desc same).trans head.physAddr⟩

/-- Between calls the blocks out of the lists are the outstanding ones, and the
counters agree with them. -/
structure BuddyInv (U : Finset Nat) (s : Kmem) (free : Nat → List Nat) (live : List Block) :
    Prop where
  core : Core U s free live
  heads : ∀ b ∈ live, LiveHead s b
  statTotal : s.statTotalPages = U.card
  statUsed : s.statUsedPages = (live.map Block.size).sum

namespace BuddyInv

variable {U : Finset Nat} {s s' : Kmem} {free : Nat → List Nat} {live : List Block}
  {b : Block} {order : Nat}

variable (inv : BuddyInv U s free live)
include inv

lemma heads_of_frame {start : Kmem} (frame : Frame U live start s') (same : start.desc = s.desc) :
    ∀ c ∈ live, LiveHead s' c := by
  intro c mem
  refine (inv.heads c mem).of_desc ?_
  rw [frame.desc c.base fun _ => ⟨c, mem, c.covers_base⟩, same]

lemma of_perm {live' : List Block} (same : live.Perm live') : BuddyInv U s free live' :=
  ⟨inv.core.of_perm same, fun b mem => inv.heads b (same.mem_iff.mpr mem),
    inv.statTotal, inv.statUsed.trans (same.map _).sum_nat⟩

lemma allocated {free' : Nat → List Nat}
    (fits : b.order ≤ maxOrder) (done : Allocated U s live b s' free') :
    BuddyInv U s' free' (b :: live) where
  core := done.core
  heads c mem := by
    rcases mem_cons.mp mem with rfl | mem
    · exact ⟨fits, by rw [done.head.flags], done.head.physAddr⟩
    · exact inv.heads_of_frame done.frame rfl c mem
  statTotal := (Kmem.statTotal_of_rest done.frame.rest).trans inv.statTotal
  statUsed := by
    have used : s'.statUsedPages = s.statUsedPages + 2 ^ b.order :=
      Kmem.statUsed_of_rest done.frame.rest
    rw [used, inv.statUsed, map_cons, sum_cons, add_comm]
    rfl

omit inv

lemma freed (inv : BuddyInv U s free (b :: live)) (plain : (s.pages b.base).flags = {}) :
    ∃ s' free', freePages s (pfnToPhys b.base) b.order = some s' ∧
      BuddyInv U s' free' live ∧ Frame U live (s.releaseUsed b.order) s' ∧
      ∀ lo, PairFree lo free → PairFree lo free' := by
  have head := inv.heads b (mem_cons_self ..)
  obtain ⟨s', free', run, core, frame, pairs⟩ :=
    freePages_spec inv.core head.fits plain head.physAddr fun c mem =>
      (inv.heads c (mem_cons_of_mem _ mem)).used
  refine ⟨s', free', run, ⟨core, ?_, ?_, ?_⟩, frame, pairs⟩
  · intro c mem
    refine (inv.heads c (mem_cons_of_mem _ mem)).of_desc ?_
    exact frame.desc c.base fun _ => ⟨c, mem, c.covers_base⟩
  · exact (Kmem.statTotal_of_rest frame.rest).trans inv.statTotal
  have used : s'.statUsedPages = (s.releaseUsed b.order).statUsedPages :=
    Kmem.statUsed_of_rest frame.rest
  have before := inv.statUsed
  rw [map_cons, sum_cons, Block.size] at before
  have enough : s.statUsedPages ≥ 2 ^ b.order := by omega
  have released : (s.releaseUsed b.order).statUsedPages = s.statUsedPages - 2 ^ b.order := by
    simp only [Kmem.releaseUsed]
    rw [if_pos enough]
  omega

end BuddyInv

/-! ## Runs -/

/-- What a caller of `alloc_pages` holds: the address and the order it asked for. -/
structure Grant where
  ptr : Nat
  order : Nat
deriving DecidableEq, Repr

def Grant.block (g : Grant) : Block := ⟨physToPfn g.ptr, g.order⟩

/-- One call, with `allocate` as `alloc_pages`: an allocation of any order, or a free of an
outstanding grant. -/
inductive Step (allocate : Kmem → Nat → Option (Option Nat × Kmem)) :
    Kmem × List Grant → Kmem × List Grant → Prop
  | alloc {s s' : Kmem} {out : List Grant} {order ptr : Nat}
      (run : allocate s order = some (some ptr, s')) :
      Step allocate (s, out) (s', ⟨ptr, order⟩ :: out)
  | fail {s s' : Kmem} {out : List Grant} {order : Nat}
      (run : allocate s order = some (none, s')) : Step allocate (s, out) (s', out)
  | free {s s' : Kmem} {out : List Grant} {g : Grant} (granted : g ∈ out)
      (run : freePages s g.ptr g.order = some s') : Step allocate (s, out) (s', out.erase g)

structure BlockPartition (s : Kmem) (free : Nat → List Nat) (out : List Grant) : Prop where
  listed : ∀ k ≤ maxOrder, Chain s.nextOf (s.freeArea k) (free k)
  disjoint : (gather (maxOrder + 1) free ++ out.map Grant.block).Pairwise Block.Apart
  aligned : ∀ b ∈ gather (maxOrder + 1) free ++ out.map Grant.block, 2 ^ b.order ∣ b.base
  unreserved : ∀ b ∈ gather (maxOrder + 1) free ++ out.map Grant.block,
    ∀ pfn, b.Covers pfn → (s.pages pfn).flags.reserved = false
  cover : ∀ pfn, (∃ b ∈ gather (maxOrder + 1) free ++ out.map Grant.block, b.Covers pfn) ↔
    pfn ∈ managedPages s.totalPhysPages
  counted : s.statTotalPages = (managedPages s.totalPhysPages).card
  used : s.statUsedPages = (out.map fun g => 2 ^ g.order).sum

structure RunInv (s : Kmem) (free : Nat → List Nat) (out : List Grant) : Prop where
  inv : BuddyInv (managedPages s.totalPhysPages) s free (out.map Grant.block)
  ptr : ∀ g ∈ out, g.ptr = pfnToPhys g.block.base
  plain : ∀ g ∈ out, (s.pages g.block.base).flags = {}

/-- What `alloc_pages` does in a run: it hands out a block and keeps the invariant, or it fails and
no block of the order or a larger one is listed. -/
def AllocSpec (allocate : Kmem → Nat → Option (Option Nat × Kmem)) (s : Kmem)
    (free : Nat → List Nat) (out : List Grant) (order : Nat) : Prop :=
  (∃ ptr s' free', allocate s order = some (some ptr, s') ∧
    RunInv s' free' (⟨ptr, order⟩ :: out) ∧ Thinned free free' ∧
    s'.totalPhysPages = s.totalPhysPages) ∨
  (allocate s order = some (none, s) ∧ ∀ k, order ≤ k → k ≤ maxOrder → free k = [])

namespace RunInv

variable {s s' : Kmem} {free : Nat → List Nat} {out : List Grant}

lemma partition (run : RunInv s free out) : BlockPartition s free out where
  listed := run.inv.core.chain
  disjoint := run.inv.core.tiling.apart
  aligned := run.inv.core.tiling.aligned
  unreserved b mem pfn covers :=
    run.inv.core.notReserved pfn ((run.inv.core.tiling.cover pfn).mpr ⟨b, mem, covers⟩)
  cover pfn := (run.inv.core.tiling.cover pfn).symm
  counted := run.inv.statTotal
  used := by
    rw [run.inv.statUsed, List.map_map]
    rfl

lemma plain_of_frame {U : Finset Nat} {start : Kmem} {live : List Block} {g : Grant}
    (frame : Frame U live start s') (same : start.desc = s.desc) (mem : g.block ∈ live)
    (plain : (s.pages g.block.base).flags = {}) : (s'.pages g.block.base).flags = {} := by
  have desc := frame.desc g.block.base fun _ => ⟨g.block, mem, g.block.covers_base⟩
  rw [same] at desc
  rw [Kmem.flags_of_desc desc]
  exact plain

lemma alloc (run : RunInv s free out) (order : Nat) : AllocSpec allocPages s free out order := by
  rcases allocPages_lists run.inv.core order with
    ⟨p, s', free', fits, call, done, thin⟩ | failed
  · left
    have block : (⟨pfnToPhys p, order⟩ : Grant).block = ⟨p, order⟩ := by
      simp [Grant.block, physToPfn_pfnToPhys]
    have total : s'.totalPhysPages = s.totalPhysPages := (Kmem.total_of_rest done.frame.rest :)
    refine ⟨pfnToPhys p, s', free', call, ⟨?_, ?_, ?_⟩, thin, total⟩
    · rw [total, map_cons, block]
      exact run.inv.allocated fits done
    · intro g mem
      rcases mem_cons.mp mem with rfl | mem
      · rw [block]
      · exact run.ptr g mem
    · intro g mem
      rcases mem_cons.mp mem with rfl | mem
      · rw [block]
        exact done.head.flags
      · exact plain_of_frame done.frame rfl (mem_map_of_mem mem) (run.plain g mem)
  · exact .inr failed

lemma release {g : Grant} (run : RunInv s free out) (granted : g ∈ out) :
    ∃ s' free', freePages s g.ptr g.order = some s' ∧ RunInv s' free' (out.erase g) ∧
      (∀ lo, PairFree lo free → PairFree lo free') ∧ s'.totalPhysPages = s.totalPhysPages := by
  have moved := (perm_cons_erase granted).map Grant.block
  obtain ⟨s', free', call, inv, frame, pairs⟩ :=
    (run.inv.of_perm moved).freed (run.plain g granted)
  rw [← run.ptr g granted] at call
  have total : s'.totalPhysPages = s.totalPhysPages := (Kmem.total_of_rest frame.rest :)
  refine ⟨s', free', call, ⟨by rw [total]; exact inv, ?_, ?_⟩, pairs, total⟩
  · exact fun h mem => run.ptr h (mem_of_mem_erase mem)
  · intro h mem
    exact plain_of_frame frame rfl (mem_map_of_mem mem) (run.plain h (mem_of_mem_erase mem))

end RunInv

section Steps

variable {allocate : Kmem → Nat → Option (Option Nat × Kmem)} {a b : Kmem × List Grant}
  (spec : ∀ s free out order, s.totalPhysPages = a.1.totalPhysPages → RunInv s free out →
    AllocSpec allocate s free out order)
include spec

/-- A step keeps the invariant of a run and the number of pages, and leaves no two buddies
listed. -/
lemma Step.runInv (step : Step allocate a b)
    (inv : ∃ free, RunInv a.1 free a.2 ∧ PairFree 0 free) :
    (∃ free, RunInv b.1 free b.2 ∧ PairFree 0 free) ∧ b.1.totalPhysPages = a.1.totalPhysPages := by
  obtain ⟨free, inv, pairs⟩ := inv
  cases step with
  | @alloc s s' out order ptr run =>
    rcases spec s free out order rfl inv with
      ⟨ptr', t, free', call, inv', thin, total⟩ | ⟨failed, -⟩
    · cases run.symm.trans call
      exact ⟨⟨free', inv', pairs.thinned thin⟩, total⟩
    · cases run.symm.trans failed
  | @fail s s' out order run =>
    rcases spec s free out order rfl inv with ⟨ptr', t, free', call, -⟩ | ⟨failed, -⟩
    · cases run.symm.trans call
    · cases run.symm.trans failed
      exact ⟨⟨free, inv, pairs⟩, rfl⟩
  | @free s s' out g granted run =>
    obtain ⟨t, free', call, inv', kept, total⟩ := inv.release granted
    cases run.symm.trans call
    exact ⟨⟨free', inv', kept 0 pairs⟩, total⟩

lemma runInv_of_reach (reach : ReflTransGen (Step allocate) a b)
    (inv : ∃ free, RunInv a.1 free a.2 ∧ PairFree 0 free) :
    (∃ free, RunInv b.1 free b.2 ∧ PairFree 0 free) ∧ b.1.totalPhysPages = a.1.totalPhysPages := by
  induction reach with
  | refl => exact ⟨inv, rfl⟩
  | tail _ step ih =>
    obtain ⟨kept, total⟩ := step.runInv (fun s free out order same =>
      spec s free out order (same.trans ih.2)) ih.1
    exact ⟨kept, total.trans ih.2⟩

end Steps

/-- `phys_mem_init` returns once the memory size is known, with no grant outstanding. -/
lemma physMemInit_spec {ram : Store} {mbInfo fuel totalRam : Nat}
    (detected : detectRam ram mbInfo fuel = some totalRam) :
    ∃ s free, physMemInit { ram := ram } mbInfo fuel = some s ∧ RunInv s free [] ∧
      PairFree 0 free ∧ s.totalPhysPages = totalRam / pageSize ∧ s.physMemEnd = totalRam := by
  have bound := detectRam_le detected
  obtain ⟨s, free, init, core, pairs, total, used, pages, memEnd⟩ :=
    physMemInitWith_spec (s := { ram := ram }) rfl bound
  rw [← pages] at core total
  refine ⟨s, free, ?_, ⟨⟨core, by simp, total, by simpa using used⟩, by simp, by simp⟩, pairs,
    pages, memEnd⟩
  simp [physMemInit, detected, init]

/-! ## Maximal merging -/

/-- A managed page that no grant covers. -/
def Unused (s : Kmem) (out : List Grant) (pfn : Nat) : Prop :=
  pfn ∈ managedPages s.totalPhysPages ∧ ∀ g ∈ out, ¬g.block.Covers pfn

variable {free : Nat → List Nat} {out : List Grant}

lemma RunInv.listed_of_unused {pfn : Nat} (run : RunInv s free out) (unused : Unused s out pfn) :
    ∃ b ∈ gather (maxOrder + 1) free, b.Covers pfn := by
  obtain ⟨b, mem, covers⟩ := (run.inv.core.tiling.cover pfn).mp unused.1
  rcases mem_append.mp mem with listed | kept
  · exact ⟨b, listed, covers⟩
  · obtain ⟨g, granted, rfl⟩ := mem_map.mp kept
    exact absurd covers (unused.2 g granted)

/-- With no two buddies listed, an unused aligned run starts in a listed block of its order or
more. -/
lemma RunInv.exists_listed_of_run
    {order base : Nat} (run : RunInv s free out) (pairs : PairFree 0 free)
    (fits : order ≤ maxOrder) (aligned : 2 ^ order ∣ base)
    (unused : ∀ pfn, base ≤ pfn → pfn < base + 2 ^ order → Unused s out pfn) :
    ∃ b ∈ gather (maxOrder + 1) free, order ≤ b.order ∧ b.Covers base :=
  run.inv.core.tiling.exists_order_ge (subset_append_left _ _) aligned
    (fun pfn low high => run.listed_of_unused (unused pfn low high))
    fun p j below mem buddy =>
      pairs j (Nat.zero_le _) (by omega) p (mem_gather.mp mem).2 (mem_gather.mp buddy).2

end AuroraOS.Mem
