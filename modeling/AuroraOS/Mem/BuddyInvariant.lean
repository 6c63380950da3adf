import AuroraOS.Lib.Dyadic
import AuroraOS.Mem.Buddy
import Mathlib.Data.Finset.Card

/-!
# The block invariant of the buddy allocator

`Core U s free held` is the invariant while some blocks are out of the free lists: the lists hold
the bases `free 0 .. free MAX_ORDER`, and together with the `held` blocks they tile the managed page
set `U`.

Merging leaves stale `FREE` flags in the descriptors of inner pages.  `Core.buddy_free` is why this
is harmless: the buddy of a free block is never an inner page.
-/

namespace AuroraOS.Mem

open Lib Function List Finset Kmem

/-! ## What an operation leaves alone -/

def Page.unlinked (p : Page) : Page := { p with next := none }

def Kmem.desc (s : Kmem) (pfn : Nat) : Page := (s.pages pfn).unlinked

def Kmem.rest (s : Kmem) : Kmem :=
  { s with pages := fun _ => {}, freeArea := fun _ => none }

section Setters

variable (s : Kmem) (pfn order : Nat) (link : Option Nat) (f : Page → Page)

@[simp] lemma Kmem.setPage_rest : (s.setPage pfn f).rest = s.rest := rfl
@[simp] lemma Kmem.setPage_freeArea : (s.setPage pfn f).freeArea = s.freeArea := rfl
@[simp] lemma Kmem.setFreeArea_rest : (s.setFreeArea order link).rest = s.rest := rfl
@[simp] lemma Kmem.setFreeArea_pages : (s.setFreeArea order link).pages = s.pages := rfl
@[simp] lemma Kmem.setFreeArea_desc : (s.setFreeArea order link).desc = s.desc := rfl
@[simp] lemma Kmem.setFreeArea_nextOf : (s.setFreeArea order link).nextOf = s.nextOf := rfl
@[simp] lemma Kmem.setFreeArea_freeArea :
    (s.setFreeArea order link).freeArea = update s.freeArea order link := rfl
@[simp] lemma Kmem.setNext_rest : (s.setNext pfn link).rest = s.rest := rfl
@[simp] lemma Kmem.setNext_freeArea : (s.setNext pfn link).freeArea = s.freeArea := rfl

variable {s : Kmem} {pfn : Nat} {f : Page → Page}

lemma Kmem.setPage_pages_of_ne {q : Nat} (ne : q ≠ pfn) :
    (s.setPage pfn f).pages q = s.pages q := by
  simp [setPage, ne]

@[simp] lemma Kmem.setPage_pages_self : (s.setPage pfn f).pages pfn = f (s.pages pfn) := by
  simp [setPage]

@[simp] lemma Kmem.setNext_nextOf : (s.setNext pfn link).nextOf = update s.nextOf pfn link := by
  funext q
  by_cases same : q = pfn
  · subst same; simp [nextOf, setNext]
  · simp [nextOf, setNext, setPage, same]

@[simp] lemma Kmem.setNext_desc : (s.setNext pfn link).desc = s.desc := by
  funext q
  by_cases same : q = pfn
  · subst same; simp [desc, setNext, Page.unlinked]
  · simp [desc, setNext, setPage, same]

lemma Kmem.setPage_nextOf
    (keeps : ∀ p, (f p).next = p.next) : (s.setPage pfn f).nextOf = s.nextOf := by
  funext q
  by_cases same : q = pfn
  · subst same; simp [nextOf, keeps]
  · simp [nextOf, setPage, same]

lemma Kmem.setPage_desc_of_ne {q : Nat} (ne : q ≠ pfn) : (s.setPage pfn f).desc q = s.desc q := by
  simp [desc, setPage_pages_of_ne ne]

end Setters

variable {s s' : Kmem} {q k p : Nat}

lemma Kmem.flags_of_desc (same : s'.desc q = s.desc q) :
    (s'.pages q).flags = (s.pages q).flags := by
  have field := congrArg Page.flags same
  exact field

lemma Kmem.order_of_desc (same : s'.desc q = s.desc q) :
    (s'.pages q).order = (s.pages q).order := by
  have field := congrArg Page.order same
  exact field

lemma Kmem.physAddr_of_desc (same : s'.desc q = s.desc q) :
    (s'.pages q).physAddr = (s.pages q).physAddr := by
  have field := congrArg Page.physAddr same
  exact field

variable (same : s'.rest = s.rest)
include same

lemma Kmem.total_of_rest : s'.totalPhysPages = s.totalPhysPages := by
  have field := congrArg totalPhysPages same
  exact field

lemma Kmem.statTotal_of_rest : s'.statTotalPages = s.statTotalPages := by
  have field := congrArg statTotalPages same
  exact field

lemma Kmem.statUsed_of_rest : s'.statUsedPages = s.statUsedPages := by
  have field := congrArg statUsedPages same
  exact field

omit same

/-- `s'` differs from `s` only in the free lists and in descriptors of pages of
`U` that no block of `held` covers. -/
structure Frame (U : Finset Nat) (held : List Block) (s s' : Kmem) : Prop where
  rest : s'.rest = s.rest
  desc : ∀ q, (q ∈ U → ∃ b ∈ held, b.Covers q) → s'.desc q = s.desc q

namespace Frame

variable {U : Finset Nat} {held : List Block} {s s' s'' : Kmem}

lemma refl (U : Finset Nat) (held : List Block) (s : Kmem) : Frame U held s s :=
  ⟨rfl, fun _ _ => rfl⟩

lemma trans (first : Frame U held s s') (second : Frame U held s' s'') : Frame U held s s'' :=
  ⟨second.rest.trans first.rest, fun q kept =>
    (second.desc q kept).trans (first.desc q kept)⟩

lemma mono {fewer : List Block} (frame : Frame U held s s') (sub : fewer ⊆ held) :
    Frame U fewer s s' :=
  ⟨frame.rest, fun q kept => frame.desc q fun inside => by
    obtain ⟨b, mem, covers⟩ := kept inside
    exact ⟨b, sub mem, covers⟩⟩

end Frame

/-! ## The invariant -/

structure FreeHead (s : Kmem) (k p : Nat) : Prop where
  flags : (s.pages p).flags = pageFlagFree
  order : (s.pages p).order = k
  physAddr : (s.pages p).physAddr = pfnToPhys p

lemma FreeHead.of_desc (head : FreeHead s k p) (same : s'.desc p = s.desc p) : FreeHead s' k p :=
  ⟨(flags_of_desc same).trans head.flags, (order_of_desc same).trans head.order,
    (physAddr_of_desc same).trans head.physAddr⟩

lemma FreeHead.of_pages (head : FreeHead s k p) (same : s'.pages p = s.pages p) :
    FreeHead s' k p := head.of_desc (congrArg Page.unlinked same)

variable {free : Nat → List Nat}

lemma mem_gather_of_listed (kle : k ≤ maxOrder)
    (mem : p ∈ free k) : (⟨p, k⟩ : Block) ∈ gather (maxOrder + 1) free :=
  mem_gather.mpr ⟨Nat.lt_succ_of_le kle, mem⟩

/-- The free lists `free` and the blocks `held` tile the managed pages `U`. -/
structure Core (U : Finset Nat) (s : Kmem) (free : Nat → List Nat) (held : List Block) :
    Prop where
  chain : ∀ k ≤ maxOrder, Chain s.nextOf (s.freeArea k) (free k)
  tiling : Tiling U (gather (maxOrder + 1) free ++ held)
  head : ∀ k ≤ maxOrder, ∀ p ∈ free k, FreeHead s k p
  notFree : ∀ p, p ∉ U → (s.pages p).flags.free = false
  notReserved : ∀ p ∈ U, (s.pages p).flags.reserved = false
  bound : ∀ p ∈ U, p < s.totalPhysPages
  total : s.totalPhysPages ≤ buddyMaxPages

def listedCount (free : Nat → List Nat) : Nat := (gather (maxOrder + 1) free).length

namespace Core

variable {U : Finset Nat} {s : Kmem} {free : Nat → List Nat} {held : List Block}
  {k p : Nat}

variable {held' : List Block}

lemma retile (core : Core U s free held)
    (tiling : Tiling U (gather (maxOrder + 1) free ++ held')) : Core U s free held' :=
  { core with tiling := tiling }

lemma of_perm (core : Core U s free held) (same : held.Perm held') : Core U s free held' :=
  core.retile (core.tiling.perm (same.append_left _))

lemma order_unique (core : Core U s free held) {j : Nat} (kle : k ≤ maxOrder)
    (jle : j ≤ maxOrder) (hk : p ∈ free k) (hj : p ∈ free j) : k = j :=
  congrArg Block.order
    (core.tiling.eq_of_base_eq (mem_append_left _ (mem_gather_of_listed kle hk))
      (mem_append_left _ (mem_gather_of_listed jle hj)) rfl)

variable {b : Block}

lemma held_notMem (core : Core U s free (b :: held)) (kle : k ≤ maxOrder) : b.base ∉ free k := by
  intro mem
  have nodup := core.tiling.bases_nodup
  rw [List.map_append, List.map_cons, List.nodup_append] at nodup
  have inGather := mem_map_of_mem (f := Block.base) (mem_gather_of_listed kle mem)
  exact nodup.2.2 b.base inGather b.base (by simp) rfl

lemma held_base_mem (core : Core U s free (b :: held)) : b.base ∈ U :=
  core.tiling.base_mem (by simp)

lemma free_sublist (free : Nat → List Nat) (kle : k ≤ maxOrder) :
    (free k).Sublist ((gather (maxOrder + 1) free).map Block.base) := by
  have piece : (free k).map (fun q => (⟨q, k⟩ : Block)) ∈
      (List.range (maxOrder + 1)).map fun j => (free j).map fun q => (⟨q, j⟩ : Block) :=
    List.mem_map_of_mem (List.mem_range.mpr (Nat.lt_succ_of_le kle))
  have mapped := (sublist_flatten_of_mem piece).map Block.base
  rw [List.map_map, show Block.base ∘ (fun q => (⟨q, k⟩ : Block)) = id from rfl, map_id] at mapped
  exact mapped

lemma free_nodup (core : Core U s free held) (kle : k ≤ maxOrder) : (free k).Nodup := by
  have nodup := core.tiling.bases_nodup
  rw [map_append, nodup_append] at nodup
  exact nodup.1.sublist (free_sublist free kle)

lemma listedCount_le (core : Core U s free held) : listedCount free ≤ buddyMaxPages := by
  have nodup := core.tiling.bases_nodup
  rw [map_append, nodup_append] at nodup
  have sub : ((gather (maxOrder + 1) free).map Block.base).toFinset ⊆ range buddyMaxPages := by
    intro q mem
    obtain ⟨b, listed, rfl⟩ := mem_map.mp (mem_toFinset.mp mem)
    have inU : b.base ∈ U := core.tiling.base_mem (mem_append_left _ listed)
    exact Finset.mem_range.mpr (lt_of_lt_of_le (core.bound _ inU) core.total)
  have card := card_le_card sub
  rwa [toFinset_card_of_nodup nodup.1, card_range, length_map] at card

lemma free_length_le (core : Core U s free held) (kle : k ≤ maxOrder) :
    (free k).length ≤ buddyMaxPages := by
  have short := (free_sublist free kle).length_le
  rw [length_map] at short
  exact short.trans core.listedCount_le

/-! ## Moving a block between the lists and the held blocks -/

variable {s' : Kmem}

variable (core : Core U s free held)
include core

lemma relink {free' : Nat → List Nat} (desc : s'.desc = s.desc) (rest : s'.rest = s.rest)
    (chain : ∀ k ≤ maxOrder, Chain s'.nextOf (s'.freeArea k) (free' k))
    (tiling : Tiling U (gather (maxOrder + 1) free' ++ held'))
    (head : ∀ k ≤ maxOrder, ∀ p ∈ free' k, FreeHead s k p) : Core U s' free' held' where
  chain := chain
  tiling := tiling
  head k kle p mem := (head k kle p mem).of_desc (congrFun desc p)
  notFree p outside := by
    rw [flags_of_desc (congrFun desc p)]
    exact core.notFree p outside
  notReserved p inside := by
    rw [flags_of_desc (congrFun desc p)]
    exact core.notReserved p inside
  bound p inside := by
    rw [total_of_rest rest]
    exact core.bound p inside
  total := by
    rw [total_of_rest rest]
    exact core.total

omit core in
lemma listAdd (core : Core U s free (⟨p, k⟩ :: held)) (kle : k ≤ maxOrder)
    (ready : FreeHead s k p) :
    Core U (listAdd s k p) (update free k (p :: free k)) held ∧
      (Mem.listAdd s k p).desc = s.desc ∧ (Mem.listAdd s k p).rest = s.rest := by
  have fresh : ∀ j ≤ maxOrder, p ∉ free j := fun j jle => core.held_notMem jle
  have desc : (Mem.listAdd s k p).desc = s.desc := by simp [Mem.listAdd]
  have rest : (Mem.listAdd s k p).rest = s.rest := by simp [Mem.listAdd]
  refine ⟨core.relink desc rest ?_ ?_ ?_, desc, rest⟩
  · intro j jle
    simp only [Mem.listAdd, setFreeArea_nextOf, setNext_nextOf,
      setFreeArea_freeArea, setNext_freeArea]
    by_cases this : j = k
    · subst this
      rw [update_self, update_self]
      exact (core.chain j jle).push (fresh j jle)
    · rw [update_of_ne this, update_of_ne this]
      exact (core.chain j jle).update_of_notMem _ (fresh j jle)
  · have moved := gather_perm_push p free (Nat.lt_succ_of_le kle)
    refine core.tiling.perm ?_
    refine perm_middle.trans ?_
    exact (moved.append_right held).symm
  · intro j jle q mem
    by_cases this : j = k
    · subst this
      rw [update_self] at mem
      rcases mem_cons.mp mem with rfl | mem
      · exact ready
      · exact core.head j jle q mem
    · rw [update_of_ne this] at mem
      exact core.head j jle q mem

/-- Taking `p` off its list: what is left to show is the new chain of that list. -/
lemma unlisted (kle : k ≤ maxOrder)
    (mem : p ∈ free k) (desc : s'.desc = s.desc) (rest : s'.rest = s.rest)
    (chain : Chain s'.nextOf (s'.freeArea k) ((free k).erase p))
    (others : ∀ j ≤ maxOrder, j ≠ k → Chain s'.nextOf (s'.freeArea j) (free j)) :
    Core U s' (update free k ((free k).erase p)) (⟨p, k⟩ :: held) := by
  refine core.relink desc rest ?_ ?_ ?_
  · intro j jle
    by_cases this : j = k
    · subst this
      rw [update_self]
      exact chain
    · rw [update_of_ne this]
      exact others j jle this
  · refine core.tiling.perm ?_
    have out := gather_perm_cons (Nat.lt_succ_of_le kle) (perm_cons_erase mem)
    exact (out.append_right held).trans perm_middle.symm
  · intro j jle q inside
    by_cases this : j = k
    · subst this
      rw [update_self] at inside
      exact core.head j jle q (mem_of_mem_erase inside)
    · rw [update_of_ne this] at inside
      exact core.head j jle q inside

lemma listDel (kle : k ≤ maxOrder) (mem : p ∈ free k) : ∃ s', listDel s k p = some s' ∧
      Core U s' (update free k ((free k).erase p)) (⟨p, k⟩ :: held) ∧
      s'.desc = s.desc ∧ s'.rest = s.rest := by
  have nodup := core.free_nodup kle
  have chain := core.chain k kle
  have foreign : ∀ j ≤ maxOrder, j ≠ k → ∀ q ∈ free k, q ∉ free j :=
    fun j jle different q inK inJ => different (core.order_unique jle kle inJ inK)
  obtain ⟨front, back, split⟩ := append_of_mem mem
  rcases eq_nil_or_concat front with rfl | ⟨front, prev, rfl⟩
  · -- `p` is the head of its list
    rw [nil_append] at split
    have headIs : s.freeArea k = some p := by
      rw [split] at chain
      exact chain.1
    refine ⟨(s.setFreeArea k (s.nextOf p)).setNext p none, by simp [Mem.listDel, headIs], ?_,
      by simp, by simp⟩
    refine core.unlisted kle mem (by simp) (by simp) ?_ ?_
    · rw [split] at chain nodup ⊢
      simpa using chain.pop nodup
    · intro j jle different
      simp only [setNext_nextOf, setNext_freeArea,
        setFreeArea_freeArea, update_of_ne different]
      exact (core.chain j jle).update_of_notMem _ (foreign j jle different p mem)
  · -- `p` has a predecessor, which the walk finds
    have shape : free k = front ++ prev :: p :: back := by simpa using split
    rw [shape] at chain nodup
    have prevMem : prev ∈ free k := by simp [shape]
    have prevNe : prev ≠ p := by
      rintro rfl
      have tail := (nodup_append.mp nodup).2.1
      simp at tail
    have headIsNot : s.freeArea k ≠ some p := by
      intro headIs
      cases front with
      | nil => exact prevNe (Option.some.inj (chain.1.symm.trans headIs))
      | cons x front =>
        have same : x = p := Option.some.inj (chain.1.symm.trans headIs)
        simp [same] at nodup
    have short : front.length < buddyMaxPages + 1 := by
      have bound := core.free_length_le kle
      simp only [shape, length_append] at bound
      omega
    have walk := chain.findPrev_eq nodup short
    refine ⟨(s.setNext prev (s.nextOf p)).setNext p none,
      by simp [Mem.listDel, headIsNot, walk], ?_, by simp, by simp⟩
    refine core.unlisted kle mem (by simp) (by simp) ?_ ?_
    · have erased : (free k).erase p = front ++ prev :: back := by
        have notFront : p ∉ front := fun inside => by
          have parts := nodup_append.mp nodup
          exact parts.2.2 p inside p (by simp) rfl
        rw [shape, erase_append_right _ notFront]
        simp [prevNe]
      rw [erased]
      simpa using chain.unlink nodup
    · intro j jle different
      simp only [setNext_nextOf]
      refine ((core.chain j jle).update_of_notMem _ ?_).update_of_notMem _ ?_
      · exact foreign j jle different prev prevMem
      · exact foreign j jle different p mem

lemma congr (pages : s'.pages = s.pages)
    (areas : s'.freeArea = s.freeArea) (total : s'.totalPhysPages = s.totalPhysPages) :
    Core U s' free held where
  chain k kle := by
    have links : s'.nextOf = s.nextOf := by funext q; simp [nextOf, pages]
    rw [links, areas]
    exact core.chain k kle
  tiling := core.tiling
  head k kle p mem := (core.head k kle p mem).of_pages (congrFun pages p)
  notFree p outside := by rw [pages]; exact core.notFree p outside
  notReserved p inside := by rw [pages]; exact core.notReserved p inside
  bound p inside := by rw [total]; exact core.bound p inside
  total := by rw [total]; exact core.total

lemma ne_of_listed {j q : Nat} (inside : b ∈ held)
    (covers : b.Covers p) (jle : j ≤ maxOrder) (mem : q ∈ free j) : q ≠ p := by
  rintro rfl
  have listed := mem_gather_of_listed jle mem
  have parts := pairwise_append.mp core.tiling.apart
  exact (parts.2.2 _ listed _ inside).not_covers (Block.covers_base _) covers

lemma setPage {f : Page → Page} (inside : b ∈ held)
    (covers : b.Covers p) (keeps : ∀ q, (f q).next = q.next)
    (usable : (f (s.pages p)).flags.reserved = false) : Core U (s.setPage p f) free held := by
  have pMem : p ∈ U := (core.tiling.cover p).mpr ⟨b, by simp [inside], covers⟩
  have other : ∀ q, q ≠ p → (s.setPage p f).pages q = s.pages q :=
    fun q ne => setPage_pages_of_ne ne
  refine ⟨?_, core.tiling, ?_, ?_, ?_, core.bound, core.total⟩
  · intro k kle
    rw [setPage_nextOf keeps]
    exact core.chain k kle
  · intro k kle q mem
    exact (core.head k kle q mem).of_pages (other q (core.ne_of_listed inside covers kle mem))
  · intro q outside
    rw [other q fun same => outside (same ▸ pMem)]
    exact core.notFree q outside
  · intro q inU
    by_cases same : q = p
    · subst same
      rwa [setPage_pages_self]
    · rw [other q same]
      exact core.notReserved q inU

lemma setFreeHead (order : Nat) (inside : b ∈ held) (covers : b.Covers p) :
    Core U (s.setFreeHead p order) free held ∧ FreeHead (s.setFreeHead p order) order p :=
  ⟨core.setPage inside covers (fun _ => rfl) rfl,
    ⟨by simp [Kmem.setFreeHead], by simp [Kmem.setFreeHead], by simp [Kmem.setFreeHead]⟩⟩

/-! ## Splitting and merging -/

/-- A set `FREE` flag at the buddy of a listed block is the flag of a listed
block of the recorded order, whatever the stale inner descriptors hold. -/
lemma buddy_free (kle : k ≤ maxOrder) (mem : p ∈ free k)
    (heldUsed : ∀ b ∈ held, (s.pages b.base).flags.free = false)
    (flag : (s.pages (p ^^^ 2 ^ k)).flags.free ≠ false)
    (order : (s.pages (p ^^^ 2 ^ k)).order = k) : p ^^^ 2 ^ k ∈ free k := by
  have inside : p ^^^ 2 ^ k ∈ U := by
    by_contra outside
    exact flag (core.notFree _ outside)
  obtain ⟨j, -, owner⟩ := core.tiling.exists_head_of_buddy
    (mem_append_left _ (mem_gather_of_listed kle mem)) inside
  rcases mem_append.mp owner with listed | kept
  · obtain ⟨jlt, inJ⟩ := mem_gather.mp listed
    have jle : j ≤ maxOrder := Nat.le_of_lt_succ jlt
    have recorded := (core.head j jle _ inJ).order
    have same : j = k := recorded.symm.trans order
    exact same ▸ inJ
  · exact absurd (heldUsed _ kept) flag

omit core

/-- A page of a held block is covered by no other held block, so its descriptor
is not part of their frame. -/
lemma frame_setPage (core : Core U s free (b :: held)) (covers : b.Covers p)
    (f : Page → Page) : Frame U held s (s.setPage p f) := by
  refine ⟨rfl, fun q kept => setPage_desc_of_ne ?_⟩
  rintro rfl
  have inside : q ∈ U := (core.tiling.cover q).mpr ⟨b, by simp, covers⟩
  obtain ⟨c, mem, cCovers⟩ := kept inside
  have apart := (pairwise_append.mp core.tiling.apart).2.1
  exact ((pairwise_cons.mp apart).1 c mem).not_covers covers cCovers

lemma frame_of_relink (desc : s'.desc = s.desc) (rest : s'.rest = s.rest) :
    Frame U held s s' := ⟨rest, fun q _ => congrFun desc q⟩

lemma length_erase (kle : k ≤ maxOrder) (mem : p ∈ free k) : (gather (maxOrder + 1) free).length =
      (gather (maxOrder + 1) (update free k ((free k).erase p))).length + 1 := by
  have out := gather_perm_cons (Nat.lt_succ_of_le kle) (perm_cons_erase mem)
  simpa using out.length_eq

lemma length_push (p : Nat) (free : Nat → List Nat) (kle : k ≤ maxOrder) :
    (gather (maxOrder + 1) (update free k (p :: free k))).length =
      (gather (maxOrder + 1) free).length + 1 := by
  simpa using (gather_perm_push p free (Nat.lt_succ_of_le kle)).length_eq

lemma update_erase_sublist (free : Nat → List Nat) (k p j : Nat) :
    (update free k ((free k).erase p) j).Sublist (free j) := by
  rcases eq_or_ne j k with rfl | other
  · rw [update_self]
    exact erase_sublist
  · rw [update_of_ne other]

/-- One turn of `buddy_merge`: two listed buddies become one listed block. -/
lemma merge_step (core : Core U s free held) (klt : k < maxOrder) (mem : p ∈ free k)
    (buddy : p ^^^ 2 ^ k ∈ free k) :
    ∃ s₁ s₂ free', let low := if p < p ^^^ 2 ^ k then p else p ^^^ 2 ^ k
      Mem.listDel s k p = some s₁ ∧ Mem.listDel s₁ k (p ^^^ 2 ^ k) = some s₂ ∧
      Core U (Mem.listAdd (s₂.setFreeHead low (k + 1)) (k + 1) low) free' held ∧
      Frame U held s (Mem.listAdd (s₂.setFreeHead low (k + 1)) (k + 1) low) ∧
      low ∈ free' (k + 1) ∧
      (gather (maxOrder + 1) free').length < (gather (maxOrder + 1) free).length ∧
      (∀ j, j ≠ k + 1 → (free' j).Sublist (free j)) ∧
      ∀ j ≤ maxOrder, ∀ q ∈ free' j,
        (j = k + 1 ∧ q = low) ∨ (q ∈ free j ∧ q ≠ p ∧ q ≠ p ^^^ 2 ^ k) := by
  have kle : k ≤ maxOrder := klt.le
  have aligned : 2 ^ k ∣ p :=
    core.tiling.aligned _ (mem_append_left _ (mem_gather_of_listed kle mem))
  obtain ⟨low, lowAligned, swap⟩ := xor_two_pow_cases aligned
  have lowIs : (if p < p ^^^ 2 ^ k then p else p ^^^ 2 ^ k) = low := by
    rcases swap with ⟨hp, hq⟩ | ⟨hp, hq⟩
    · rw [if_pos (by omega), hp]
    · rw [if_neg (by omega), hq]
  have different : p ^^^ 2 ^ k ≠ p := xor_two_pow_ne p k
  obtain ⟨s₁, del₁, core₁, desc₁, rest₁⟩ := core.listDel kle mem
  have erase₁ := length_erase kle mem
  have buddy₁ : p ^^^ 2 ^ k ∈ update free k ((free k).erase p) k := by
    rw [update_self]
    exact (mem_erase_of_ne different).mpr buddy
  have sub₁ := update_erase_sublist free k p
  generalize update free k ((free k).erase p) = free₁ at core₁ erase₁ buddy₁ sub₁
  obtain ⟨s₂, del₂, core₂, desc₂, rest₂⟩ := core₁.listDel kle buddy₁
  have erase₂ := length_erase kle buddy₁
  have sub₂ := update_erase_sublist free₁ k (p ^^^ 2 ^ k)
  generalize update free₁ k ((free₁ k).erase (p ^^^ 2 ^ k)) = free₂ at core₂ erase₂ sub₂
  -- the two halves are now held; retile them as one block
  have core₃ : Core U s₂ free₂ (⟨low, k + 1⟩ :: held) := by
    refine core₂.retile (Tiling.perm ((Tiling.halves lowAligned).mpr ?_) perm_middle.symm)
    have back : (held ++ gather (maxOrder + 1) free₂).Perm
        (gather (maxOrder + 1) free₂ ++ held) := perm_append_comm
    refine core₂.tiling.perm (perm_append_comm.trans ?_)
    rcases swap with ⟨hp, hq⟩ | ⟨hp, hq⟩
    · rw [hq, hp]
      exact (Perm.swap _ _ _).trans ((back.cons _).cons _)
    · rw [hq, hp]
      exact (back.cons _).cons _
  have covers : (⟨low, k + 1⟩ : Block).Covers low := Block.covers_base ⟨low, k + 1⟩
  obtain ⟨core₄, ready⟩ := core₃.setFreeHead (k + 1) (mem_cons_self ..) covers
  obtain ⟨core₅, desc₅, rest₅⟩ := core₄.listAdd klt ready
  have push := length_push low free₂ (show k + 1 ≤ maxOrder from klt)
  refine ⟨s₁, s₂, update free₂ (k + 1) (low :: free₂ (k + 1)), ?_⟩
  simp only [lowIs]
  refine ⟨del₁, del₂, core₅, ?_, by simp, by omega, ?_, ?_⟩
  · have upTo₂ : Frame U held s s₂ :=
      frame_of_relink (desc₂.trans desc₁) (rest₂.trans rest₁)
    have head : Frame U held s₂ (s₂.setFreeHead low (k + 1)) := core₃.frame_setPage covers _
    exact (upTo₂.trans head).trans (frame_of_relink desc₅ rest₅)
  · intro j other
    rw [update_of_ne other]
    exact (sub₂ j).trans (sub₁ j)
  · intro j jle q listed
    have kept : q ∈ free₂ j → q ∈ free j ∧ q ≠ p ∧ q ≠ p ^^^ 2 ^ k := fun inside =>
      ⟨((sub₂ j).trans (sub₁ j)).subset inside,
        core₂.ne_of_listed (by simp) (Block.covers_base ⟨p, k⟩) jle inside,
        core₂.ne_of_listed (mem_cons_self ..) (Block.covers_base ⟨p ^^^ 2 ^ k, k⟩) jle inside⟩
    rcases eq_or_ne j (k + 1) with rfl | other
    · rw [update_self] at listed
      rcases mem_cons.mp listed with rfl | inside
      · exact .inl ⟨rfl, rfl⟩
      · exact .inr (kept inside)
    · rw [update_of_ne other] at listed
      exact .inr (kept listed)

end Core

/-- What `buddy_merge` guarantees on the listed block `p`: the same managed pages, held blocks and
frame, and a result `r` that is again listed; either nothing changed or there are fewer blocks. -/
structure Merged (U : Finset Nat) (s : Kmem) (free : Nat → List Nat) (held : List Block)
    (p r : Nat) (s' : Kmem) (free' : Nat → List Nat) : Prop where
  core : Core U s' free' held
  frame : Frame U held s s'
  listed : ∃ k ≤ maxOrder, r ∈ free' k
  progress : (r = p ∧ s' = s ∧ free' = free) ∨
    (gather (maxOrder + 1) free').length < (gather (maxOrder + 1) free).length

variable {U : Finset Nat} {held : List Block}

lemma Merged.refl (core : Core U s free held) (kle : k ≤ maxOrder) (mem : p ∈ free k) :
    Merged U s free held p p s free :=
  ⟨core, Frame.refl _ _ _, ⟨k, kle, mem⟩, .inl ⟨rfl, rfl, rfl⟩⟩

/-- No two buddies of one order from `lo` up are both listed. -/
def PairFree (lo : Nat) (free : Nat → List Nat) : Prop :=
  ∀ j, lo ≤ j → j < maxOrder → ∀ q ∈ free j, q ^^^ 2 ^ j ∉ free j

/-- Every listed pair of buddies of an order from `lo` up has the block `p` of order `k`. -/
def PairFreeBut (lo : Nat) (free : Nat → List Nat) (k p : Nat) : Prop :=
  ∀ j, lo ≤ j → j < maxOrder → ∀ q ∈ free j, q ^^^ 2 ^ j ∈ free j →
    j = k ∧ (q = p ∨ q ^^^ 2 ^ j = p)

lemma PairFree.but {lo : Nat} (pairs : PairFree lo free) (k p : Nat) : PairFreeBut lo free k p :=
  fun j low below q listed buddy => absurd buddy (pairs j low below q listed)

/-- The lists after `buddy_merge` on the block `p` of order `k`: listed buddies that are left have
nothing to do with `p`, and the result is not `p` when the buddy merged first lies below it. -/
structure Settled (s : Kmem) (free : Nat → List Nat) (k p r : Nat) (s' : Kmem)
    (free' : Nat → List Nat) : Prop where
  pairs : ∀ lo, PairFreeBut lo free k p → PairFree lo free'
  bottom : (free' 0).Sublist (free 0)
  base : r ≤ p
  moved : k < maxOrder → p ^^^ 2 ^ k ∈ free k → p ^^^ 2 ^ k < p → r ≠ p
  alone : (k < maxOrder → p ^^^ 2 ^ k ∉ free k) → r = p ∧ s' = s ∧ free' = free

lemma Settled.refl
    (lonely : k < maxOrder → p ^^^ 2 ^ k ∉ free k) : Settled s free k p p s free where
  pairs lo but j low below q listed buddy := by
    obtain ⟨rfl, either⟩ := but j low below q listed buddy
    rcases either with rfl | rfl
    · exact lonely below buddy
    · rw [Nat.xor_xor_cancel_right] at lonely
      exact lonely below listed
  bottom := Sublist.refl _
  base := le_rfl
  moved below buddy _ := absurd buddy (lonely below)
  alone _ := ⟨rfl, rfl, rfl⟩

namespace Core

variable {U : Finset Nat} {s : Kmem} {free : Nat → List Nat} {held : List Block} {k p : Nat}

lemma buddy_listed (core : Core U s free held) (kle : k ≤ maxOrder)
    (buddy : p ^^^ 2 ^ k ∈ free k) :
    p ^^^ 2 ^ k < buddyMaxPages ∧ (s.pages (p ^^^ 2 ^ k)).flags.free = true ∧
      (s.pages (p ^^^ 2 ^ k)).order = k := by
  have head := core.head k kle _ buddy
  have inside : p ^^^ 2 ^ k ∈ U :=
    core.tiling.base_mem (mem_append_left _ (mem_gather_of_listed kle buddy))
  exact ⟨lt_of_lt_of_le (core.bound _ inside) core.total, by rw [head.flags]; rfl, head.order⟩

lemma buddyMergeLoop_alone (fuel : Nat) (core : Core U s free held) (kle : k ≤ maxOrder)
    (mem : p ∈ free k) (heldUsed : ∀ b ∈ held, (s.pages b.base).flags.free = false)
    (lonely : k < maxOrder → p ^^^ 2 ^ k ∉ free k) :
    buddyMergeLoop (fuel + 1) s p = some (p, s) := by
  have order := (core.head k kle p mem).order
  rw [buddyMergeLoop]
  simp only [order, getBuddy]
  rcases lt_or_ge k maxOrder with below | top
  · rw [if_neg (not_le.mpr below)]
    have refused : (s.pages (p ^^^ 2 ^ k)).flags.free ≠ false →
        (s.pages (p ^^^ 2 ^ k)).order ≠ k := fun flag same =>
      lonely below (core.buddy_free kle mem heldUsed flag same)
    by_cases far : p ^^^ 2 ^ k ≥ buddyMaxPages
    · rw [if_pos far]
    rw [if_neg far]
    by_cases used : (s.pages (p ^^^ 2 ^ k)).flags.free = false
    · simp only [used, ↓reduceIte]
    · simp [refused used]
  · rw [if_pos top]

end Core

/-- `buddy_merge` returns, and keeps the invariant: induction on the fuel, which
the growing order does not exhaust. -/
lemma buddyMergeLoop_spec (fuel : Nat) (core : Core U s free held) (kle : k ≤ maxOrder)
    (mem : p ∈ free k) (heldUsed : ∀ b ∈ held, (s.pages b.base).flags.free = false)
    (enough : maxOrder - k < fuel) :
    ∃ r s' free', buddyMergeLoop fuel s p = some (r, s') ∧
      Merged U s free held p r s' free' ∧ Settled s free k p r s' free' := by
  induction fuel generalizing s free k p with
  | zero => omega
  | succ fuel ih =>
    by_cases lonely : k < maxOrder → p ^^^ 2 ^ k ∉ free k
    · exact ⟨p, s, free, core.buddyMergeLoop_alone fuel kle mem heldUsed lonely,
        Merged.refl core kle mem, Settled.refl lonely⟩
    obtain ⟨below, buddy⟩ := Classical.not_imp.mp lonely
    have buddy := not_not.mp buddy
    obtain ⟨near, flag, same⟩ := core.buddy_listed kle buddy
    obtain ⟨s₁, s₂, free₁, del₁, del₂, core₁, frame₁, listed₁, fewer, sub₁, members₁⟩ :=
      core.merge_step below mem buddy
    have lowLe : (if p < p ^^^ 2 ^ k then p else p ^^^ 2 ^ k) ≤ p ∧
        (if p < p ^^^ 2 ^ k then p else p ^^^ 2 ^ k) ≤ p ^^^ 2 ^ k := by
      split <;> omega
    have turn : buddyMergeLoop (fuel + 1) s p =
        let low := if p < p ^^^ 2 ^ k then p else p ^^^ 2 ^ k
        buddyMergeLoop fuel (listAdd (s₂.setFreeHead low (k + 1)) (k + 1) low) low := by
      rw [buddyMergeLoop]
      simp only [(core.head k kle p mem).order, getBuddy]
      rw [if_neg (not_le.mpr below), if_neg (not_le.mpr near)]
      simp [flag, same, del₁, del₂]
    generalize (if p < p ^^^ 2 ^ k then p else p ^^^ 2 ^ k) = low at *
    have heldUsed₁ : ∀ b ∈ held,
        ((listAdd (s₂.setFreeHead low (k + 1)) (k + 1) low).pages b.base).flags.free = false := by
      intro b inside
      have kept := frame₁.desc b.base fun _ => ⟨b, inside, b.covers_base⟩
      rw [flags_of_desc kept]
      exact heldUsed b inside
    obtain ⟨r, s', free', run, merged, settled⟩ :=
      ih core₁ (by omega : k + 1 ≤ maxOrder) listed₁ heldUsed₁ (by omega)
    refine ⟨r, s', free', turn.trans run,
      ⟨merged.core, frame₁.trans merged.frame, merged.listed, ?_⟩, ?_⟩
    · rcases merged.progress with ⟨-, -, unchanged⟩ | less
      · exact .inr (unchanged ▸ fewer)
      · exact .inr (less.trans fewer)
    refine ⟨fun lo but => settled.pairs lo ?_, settled.bottom.trans (sub₁ 0 (by omega)),
      settled.base.trans lowLe.1, fun _ _ lower => ?_, fun none => absurd buddy (none below)⟩
    · -- the only new block is the merged one, and both halves are gone
      intro j low' jlt q listed pair
      rcases members₁ j jlt.le q listed with ⟨top, rfl⟩ | ⟨old, ne, -⟩
      · exact ⟨top, .inl rfl⟩
      rcases members₁ j jlt.le _ pair with ⟨top, is⟩ | ⟨old', ne', -⟩
      · exact ⟨top, .inr is⟩
      obtain ⟨-, either⟩ := but j low' jlt q old old'
      rcases either with here | here
      · exact absurd here ne
      · exact absurd here ne'
    · have base := settled.base
      omega

lemma buddyMerge_settles (core : Core U s free held) (kle : k ≤ maxOrder)
    (mem : p ∈ free k) (heldUsed : ∀ b ∈ held, (s.pages b.base).flags.free = false) :
    ∃ r s' free', buddyMerge s p = some (r, s') ∧ Merged U s free held p r s' free' ∧
      Settled s free k p r s' free' :=
  buddyMergeLoop_spec (maxOrder + 1) core kle mem heldUsed (by omega)

end AuroraOS.Mem
