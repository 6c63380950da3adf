import AuroraOS.Mem.BuddyInvariant

/-!
# `alloc_pages` and `free_pages` keep the block invariant

`alloc_pages` moves one block from the free lists to the held blocks, after splitting larger blocks
down to the requested order; `free_pages` lists a held block again and merges it upwards.
-/

namespace AuroraOS.Mem

open Lib Function List

variable {U : Finset Nat} {s s' : Kmem} {free : Nat → List Nat} {held : List Block}
  {k p : Nat}

namespace Core

lemma freeArea_eq_none_iff (core : Core U s free held) (kle : k ≤ maxOrder) :
    s.freeArea k = none ↔ free k = [] :=
  (core.chain k kle).eq_nil_iff.symm

lemma exists_head (core : Core U s free held) (kle : k ≤ maxOrder) (some : free k ≠ []) :
    ∃ p, s.freeArea k = .some p ∧ p ∈ free k := by
  have chain := core.chain k kle
  cases shape : free k with
  | nil => exact absurd shape some
  | cons p rest =>
    rw [shape] at chain
    exact ⟨p, chain.1, by simp⟩

lemma buddySplit (core : Core U s free held) (klt : k < maxOrder) (nonempty : free (k + 1) ≠ []) :
    ∃ p s' free', Mem.buddySplit s (k + 1) = some (some p, s') ∧ Core U s' free' held ∧
      Frame U held s s' ∧ p ∈ free (k + 1) ∧ free' k = (p + 2 ^ k) :: p :: free k ∧
      free' (k + 1) = (free (k + 1)).erase p ∧
      ∀ j, j ≠ k → j ≠ k + 1 → free' j = free j := by
  have kle : k ≤ maxOrder := klt.le
  obtain ⟨p, headIs, mem⟩ := core.exists_head klt nonempty
  obtain ⟨s₁, del, core₁, desc₁, rest₁⟩ := core.listDel klt mem
  have taken : update free (k + 1) ((free (k + 1)).erase p) (k + 1) =
      (free (k + 1)).erase p := update_self ..
  have others : ∀ j, j ≠ k + 1 → update free (k + 1) ((free (k + 1)).erase p) j = free j :=
    fun j other => update_of_ne other _ _
  generalize update free (k + 1) ((free (k + 1)).erase p) = free₁ at core₁ taken others
  have halves : Core U s₁ free₁ (⟨p, k⟩ :: ⟨p + 2 ^ k, k⟩ :: held) := by
    refine core₁.retile ?_
    have whole := core₁.tiling.perm perm_middle
    have split := (Tiling.halves (whole.aligned _ mem_cons_self)).mp whole
    exact split.perm ((perm_middle.symm.cons _).trans perm_middle.symm)
  have low : (⟨p, k⟩ : Block).Covers p := Block.covers_base ⟨p, k⟩
  have high : (⟨p + 2 ^ k, k⟩ : Block).Covers (p + 2 ^ k) :=
    Block.covers_base ⟨p + 2 ^ k, k⟩
  obtain ⟨core₂, ready₂⟩ := halves.setFreeHead k (mem_cons_self ..) low
  obtain ⟨core₃, ready₃⟩ :=
    core₂.setFreeHead k (mem_cons_of_mem _ (mem_cons_self ..)) high
  have apart : p + 2 ^ k ≠ p := by
    have size := Nat.two_pow_pos k
    omega
  have ready₄ : FreeHead ((s₁.setFreeHead p k).setFreeHead (p + 2 ^ k) k) k p :=
    ready₂.of_desc (Kmem.setPage_desc_of_ne apart.symm)
  obtain ⟨core₄, desc₄, rest₄⟩ := core₃.listAdd kle ready₄
  obtain ⟨core₅, desc₅, rest₅⟩ := core₄.listAdd kle (ready₃.of_desc (congrFun desc₄ _))
  refine ⟨p, _, _, ?_, core₅, ?_, mem, by simp [others k], by simp [taken], ?_⟩
  · have inRange : ¬(k + 1 = 0 ∨ k + 1 > maxOrder) := by omega
    rw [Mem.buddySplit, if_neg inRange, headIs]
    simp [del]
  · have upTo₁ : Frame U held s s₁ := frame_of_relink desc₁ rest₁
    have upTo₂ : Frame U held s₁ (s₁.setFreeHead p k) :=
      (halves.frame_setPage low _).mono (subset_cons_self _ _)
    have swapped := core₂.of_perm (Perm.swap _ _ _)
    have upTo₃ : Frame U held (s₁.setFreeHead p k)
        ((s₁.setFreeHead p k).setFreeHead (p + 2 ^ k) k) :=
      (swapped.frame_setPage high _).mono (subset_cons_self _ _)
    have upTo₃ := (upTo₁.trans upTo₂).trans upTo₃
    exact upTo₃.trans (frame_of_relink (desc₅.trans desc₄) (rest₅.trans rest₄))
  · intro j low high
    rw [update_of_ne low, update_of_ne low, others j high]

end Core

/-- The lists after the splitting loop of `alloc_pages` has gone down `depth` orders to
`order` through empty lists: of the two halves of each split one is split further. -/
structure SplitLists (order depth : Nat) (free free' : Nat → List Nat) : Prop where
  outside : ∀ j, j < order ∨ order + depth < j → free' j = free j
  top : (free' (order + depth)).Sublist (free (order + depth))
  taken : 0 < depth → (free' (order + depth)).length + 1 = (free (order + depth)).length
  between : ∀ j, order < j → j < order + depth → (free' j).length ≤ 1
  last : 0 < depth → (free' order).length ≤ 2

variable {order depth lo : Nat} {free free₁ free' : Nat → List Nat}

lemma SplitLists.succ {p : Nat}
    (lists : SplitLists order depth free₁ free') (empty : free (order + depth) = [])
    (mem : p ∈ free (order + depth + 1))
    (halves : free₁ (order + depth) = (p + 2 ^ (order + depth)) :: p :: free (order + depth))
    (whole : free₁ (order + depth + 1) = (free (order + depth + 1)).erase p)
    (others : ∀ j, j ≠ order + depth → j ≠ order + depth + 1 → free₁ j = free j) :
    SplitLists order (depth + 1) free free' := by
  have above : free' (order + (depth + 1)) = (free (order + (depth + 1))).erase p :=
    (lists.outside _ (by omega)).trans whole
  have pair : (free₁ (order + depth)).length = 2 := by simp [halves, empty]
  refine ⟨fun j range => ?_, ?_, fun _ => ?_, fun j low high => ?_, fun _ => ?_⟩
  · exact (lists.outside j (by omega)).trans (others j (by omega) (by omega))
  · rw [above]
    exact erase_sublist
  · rw [above]
    exact length_erase_add_one mem
  · rcases lt_or_ge j (order + depth) with below | last
    · exact lists.between j low below
    · obtain rfl : j = order + depth := by omega
      have taken := lists.taken (by omega)
      omega
  · rcases Nat.eq_zero_or_pos depth with rfl | deep
    · exact lists.top.length_le.trans pair.le
    · exact lists.last deep

lemma Core.splitDown (order depth : Nat) (core : Core U s free held)
    (fits : order + depth ≤ maxOrder) (nonempty : free (order + depth) ≠ [])
    (empty : ∀ j, order ≤ j → j < order + depth → free j = []) :
    ∃ s' free', Mem.splitDown order depth s = some s' ∧ Core U s' free' held ∧
      Frame U held s s' ∧ free' order ≠ [] ∧ SplitLists order depth free free' := by
  induction depth generalizing s free with
  | zero =>
    exact ⟨s, free, rfl, core, Frame.refl _ _ _, nonempty, fun _ _ => rfl,
      Sublist.refl _, by simp, by omega, by simp⟩
  | succ depth ih =>
    obtain ⟨p, s₁, free₁, split, core₁, frame₁, mem, halves, whole, others⟩ :=
      core.buddySplit (k := order + depth) (by omega) nonempty
    obtain ⟨s', free', run, core', frame', nonempty', lists⟩ :=
      ih core₁ (by omega) (by simp [halves]) fun j low high =>
        (others j (by omega) (by omega)).trans (empty j low (by omega))
    refine ⟨s', free', ?_, core', frame₁.trans frame', nonempty',
      lists.succ (empty _ (by omega) (by omega)) mem halves whole others⟩
    have split' : Mem.buddySplit s (order + (depth + 1)) = some (some p, s₁) := split
    simp [Mem.splitDown, split', run]

lemma Core.pfnToPhys_lt (core : Core U s free held) (inside : p ∈ U) :
    pfnToPhys p < kernelPhysMax := by
  have bound := lt_of_lt_of_le (core.bound p inside) core.total
  simp only [buddyMaxPages] at bound
  simp only [pfnToPhys, physMemBase, pageSize, kernelPhysMax]
  omega

lemma physMemBase_le_pfnToPhys (p : Nat) : physMemBase ≤ pfnToPhys p :=
  Nat.le_add_right _ _

lemma physToPfn_pfnToPhys (p : Nat) : physToPfn (pfnToPhys p) = p := by
  have above : ¬pfnToPhys p < physMemBase := not_lt.mpr (physMemBase_le_pfnToPhys p)
  rw [physToPfn, if_neg above, pfnToPhys, Nat.add_sub_cancel_left]
  exact Nat.mul_div_cancel p (by decide)

/-! ## Allocation -/

structure UsedHead (s : Kmem) (b : Block) : Prop where
  flags : (s.pages b.base).flags = {}
  order : (s.pages b.base).order = b.order
  refCount : (s.pages b.base).refCount = 1
  physAddr : (s.pages b.base).physAddr = pfnToPhys b.base

/-- The memory and the counters after `alloc_pages` has handed out `b`. -/
def Kmem.charged (s : Kmem) (b : Block) : Kmem :=
  { s with
    statUsedPages := s.statUsedPages + 2 ^ b.order
    ram := fill s.ram (pfnToPhys b.base) (pageSize * 2 ^ b.order) 0 }

structure Allocated (U : Finset Nat) (s : Kmem) (held : List Block) (b : Block) (s' : Kmem)
    (free' : Nat → List Nat) : Prop where
  core : Core U s' free' (b :: held)
  frame : Frame U held (s.charged b) s'
  head : UsedHead s' b

lemma Frame.charged (frame : Frame U held s s') (b : Block) :
    Frame U held (s.charged b) (s'.charged b) := by
  refine ⟨?_, frame.desc⟩
  have charge : ∀ t : Kmem, (t.charged b).rest = t.rest.charged b := fun _ => rfl
  rw [charge, charge, frame.rest]

lemma takeBlock_spec (core : Core U s free held) (fits : order ≤ maxOrder)
    (nonempty : free order ≠ []) :
    ∃ p s' free', takeBlock s order = some (some (pfnToPhys p), s') ∧
      Allocated U s held ⟨p, order⟩ s' free' ∧ (∀ j, (free' j).Sublist (free j)) ∧
      (free' order).length + 1 = (free order).length := by
  obtain ⟨p, headIs, mem⟩ := core.exists_head fits nonempty
  have ready := core.head order fits p mem
  obtain ⟨s₁, del, core₁, desc₁, rest₁⟩ := core.listDel fits mem
  have ready₁ := ready.of_desc (congrFun desc₁ p)
  have inside : p ∈ U := core₁.held_base_mem
  have covers : (⟨p, order⟩ : Block).Covers p := Block.covers_base ⟨p, order⟩
  have sub := Core.update_erase_sublist free order p
  have short : (update free order ((free order).erase p) order).length + 1 =
      (free order).length := by
    rw [update_self]
    exact length_erase_add_one mem
  generalize update free order ((free order).erase p) = free₁ at core₁ sub short
  let mark : Page → Page := fun q =>
    { q with flags := { q.flags with free := false }, order := order, refCount := 1 }
  have core₂ : Core U (s₁.setPage p mark) free₁ (⟨p, order⟩ :: held) :=
    core₁.setPage (mem_cons_self ..) covers (fun _ => rfl) (by
      exact core₁.notReserved p inside)
  have addr : ((s₁.setPage p mark).pages p).physAddr = pfnToPhys p := by
    rw [Kmem.setPage_pages_self]
    exact ready₁.physAddr
  have mapped : ¬pfnToPhys p ≥ kernelPhysMax := not_le.mpr (core.pfnToPhys_lt inside)
  refine ⟨p, (s₁.setPage p mark).charged ⟨p, order⟩, free₁, ?_, ⟨?_, ?_, ?_⟩, sub, short⟩
  · simp only [takeBlock, headIs, del, Option.bind_eq_bind, Option.bind_some]
    rw [if_neg (by rw [← addr] at mapped; exact mapped)]
    simp only [Kmem.charged, ← addr, mark]
  · exact core₂.congr rfl rfl rfl
  · have frame : Frame U held s (s₁.setPage p mark) :=
      (Core.frame_of_relink desc₁ rest₁).trans (core₁.frame_setPage covers mark)
    exact frame.charged _
  · have head : ((s₁.setPage p mark).charged ⟨p, order⟩).pages p = mark (s₁.pages p) := by
      simp [Kmem.charged]
    refine ⟨?_, by rw [head], by rw [head], ?_⟩
    · rw [head]
      simp only [mark, ready₁.flags]
      rfl
    · rw [head]
      exact ready₁.physAddr

lemma findOrder_cases (core : Core U s free held) (order : Nat) :
    (findOrder s order = none ∧ ∀ k, order ≤ k → k ≤ maxOrder → free k = []) ∨
      ∃ k, findOrder s order = some k ∧ order ≤ k ∧ k ≤ maxOrder ∧ free k ≠ [] ∧
        ∀ j, order ≤ j → j < k → free j = [] := by
  cases found : findOrder s order with
  | none =>
    left
    refine ⟨rfl, fun k above kle => ?_⟩
    have empty := find?_eq_none.mp found k (mem_range'_1.mpr (by omega))
    exact (core.freeArea_eq_none_iff kle).mp (by simpa using empty)
  | some k =>
    right
    obtain ⟨head, range, skipped⟩ := find?_range'_eq_some.mp found
    have bounds := mem_range'_1.mp range
    have kle : k ≤ maxOrder := by omega
    refine ⟨k, rfl, bounds.1, kle, fun empty => ?_, fun j low below => ?_⟩
    · simp [(core.freeArea_eq_none_iff kle).mpr empty] at head
    · exact (core.freeArea_eq_none_iff (by omega)).mp (by simpa using skipped j low below)

/-- Every list is part of what it was, or has at most one block. -/
def Thinned (free free' : Nat → List Nat) : Prop :=
  ∀ j, free' j ⊆ free j ∨ (free' j).length ≤ 1

/-- Handing out a block after the splits thins the lists: the block taken at the end is one
of the two of the last split. -/
lemma SplitLists.thinned
    (lists : SplitLists order depth free free₁) (sub : ∀ j, (free' j).Sublist (free₁ j))
    (short : (free' order).length + 1 = (free₁ order).length) : Thinned free free' := by
  intro j
  by_cases same : j < order ∨ order + depth < j
  · exact .inl (lists.outside j same ▸ (sub j).subset)
  rcases eq_or_ne j (order + depth) with rfl | lower
  · exact .inl ((sub _).trans lists.top).subset
  rcases eq_or_ne j order with rfl | between
  · have two := lists.last (by omega)
    exact .inr (by omega)
  · exact .inr ((sub j).length_le.trans (lists.between j (by omega) (by omega)))

lemma PairFree.thinned (pairs : PairFree lo free)
    (thin : Thinned free free') : PairFree lo free' := by
  intro j low below q listed buddy
  rcases thin j with sub | single
  · exact pairs j low below q (sub listed) (sub buddy)
  · obtain ⟨x, is⟩ := length_eq_one_iff.mp (le_antisymm single (length_pos_of_mem listed))
    rw [is, mem_singleton] at listed buddy
    exact xor_two_pow_ne q j (buddy.trans listed.symm)

/-- `alloc_pages` returns: it hands out a block of the requested order, or changes nothing
and no block of this order or a larger one is free. -/
lemma allocPages_lists (core : Core U s free held) (order : Nat) :
    (∃ p s' free', order ≤ maxOrder ∧ allocPages s order = some (some (pfnToPhys p), s') ∧
      Allocated U s held ⟨p, order⟩ s' free' ∧ Thinned free free') ∨
    (allocPages s order = some (none, s) ∧ ∀ k, order ≤ k → k ≤ maxOrder → free k = []) := by
  by_cases large : order > maxOrder
  · exact .inr ⟨by rw [allocPages, if_pos large], fun k above kle => by omega⟩
  rw [allocPages, if_neg large]
  rcases findOrder_cases core order with
    ⟨missing, empty⟩ | ⟨k, found, above, kle, nonempty, skipped⟩
  · exact .inr ⟨by rw [missing], empty⟩
  left
  have depth : order + (k - order) = k := by omega
  obtain ⟨s₁, free₁, split, core₁, frame₁, nonempty₁, lists⟩ :=
    core.splitDown order (k - order) (by omega) (by rwa [depth]) (by rwa [depth])
  obtain ⟨p, s', free', take, done, sub, short⟩ := takeBlock_spec core₁ (by omega) nonempty₁
  refine ⟨p, s', free', by omega, ?_,
    ⟨done.core, (frame₁.charged _).trans done.frame, done.head⟩, lists.thinned sub short⟩
  simp [found, split, take]

/-! ## Release -/

lemma PairFree.push (pairs : PairFree lo free) (k p : Nat) :
    PairFreeBut lo (update free k (p :: free k)) k p := by
  intro j low below q listed buddy
  rcases eq_or_ne j k with rfl | other
  · rw [update_self, mem_cons] at listed buddy
    rcases listed with rfl | listed
    · exact ⟨rfl, .inl rfl⟩
    · rcases buddy with same | buddy
      · exact ⟨rfl, .inr same⟩
      · exact absurd buddy (pairs j low below q listed)
  · rw [update_of_ne other] at listed buddy
    exact absurd buddy (pairs j low below q listed)

/-- `free_pages` on a held block whose head is marked used: the block returns to
the lists, merged with every free buddy. -/
lemma freePages_spec {b : Block} (core : Core U s free (b :: held)) (fits : b.order ≤ maxOrder)
    (flags : (s.pages b.base).flags = {}) (physAddr : (s.pages b.base).physAddr = pfnToPhys b.base)
    (heldUsed : ∀ c ∈ held, (s.pages c.base).flags.free = false) :
    ∃ s' free', freePages s (pfnToPhys b.base) b.order = some s' ∧ Core U s' free' held ∧
      Frame U held (s.releaseUsed b.order) s' ∧
      ∀ lo, PairFree lo free → PairFree lo free' := by
  obtain ⟨p, k⟩ := b
  have inside : p ∈ U := core.held_base_mem
  have covers : (⟨p, k⟩ : Block).Covers p := Block.covers_base ⟨p, k⟩
  let mark : Page → Page := fun q =>
    { q with flags := { q.flags with free := true }, order := k, refCount := 0 }
  have core₁ : Core U (s.setPage p mark) free (⟨p, k⟩ :: held) :=
    core.setPage (mem_cons_self ..) covers (fun _ => rfl) (by simp [mark, flags])
  have ready : FreeHead (s.setPage p mark) k p :=
    ⟨by simp [mark, flags, pageFlagFree], by simp [mark], by simp [mark, physAddr]⟩
  obtain ⟨core₂, desc₂, rest₂⟩ := core₁.listAdd fits ready
  have core₃ : Core U ((listAdd (s.setPage p mark) k p).releaseUsed k) _ held :=
    core₂.congr rfl rfl rfl
  have frame₃ : Frame U held (s.releaseUsed k)
      ((listAdd (s.setPage p mark) k p).releaseUsed k) := by
    have frame : Frame U held s (listAdd (s.setPage p mark) k p) :=
      (core.frame_setPage covers mark).trans (Core.frame_of_relink desc₂ rest₂)
    exact ⟨by
      have release : ∀ t : Kmem, (t.releaseUsed k).rest = t.rest.releaseUsed k := fun _ => rfl
      rw [release, release, frame.rest], frame.desc⟩
  have heldUsed₃ : ∀ c ∈ held,
      (((listAdd (s.setPage p mark) k p).releaseUsed k).pages c.base).flags.free = false := by
    intro c mem
    rw [Kmem.flags_of_desc (frame₃.desc c.base fun _ => ⟨c, mem, c.covers_base⟩)]
    exact heldUsed c mem
  have listed : p ∈ update free k (p :: free k) k := by simp
  obtain ⟨r, s', free', run, merged, settled⟩ :=
    buddyMerge_settles core₃ fits listed heldUsed₃
  refine ⟨s', free', ?_, merged.core, frame₃.trans merged.frame,
    fun lo pairs => settled.pairs lo (pairs.push k p)⟩
  have above : ¬pfnToPhys p < physMemBase := not_lt.mpr (physMemBase_le_pfnToPhys p)
  have nonzero : pfnToPhys p ≠ 0 := by
    have low := physMemBase_le_pfnToPhys p
    simp only [physMemBase] at low
    omega
  have bound := core.bound p inside
  have managed : ¬(p = 2 ^ 64 - 1 ∨ p ≥ s.totalPhysPages) := by
    have total := core.total
    simp only [buddyMaxPages] at total
    omega
  rw [freePages, if_neg nonzero, if_neg (by simpa using fits), if_neg above]
  simp only [physToPfn_pfnToPhys]
  rw [if_neg managed, if_neg (by simp [flags]), if_neg (by simp [flags])]
  simp only [mark] at run
  simp [run]

end AuroraOS.Mem
