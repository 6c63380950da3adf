import AuroraOS.Mem.BuddyInvariant

/-!
# `phys_mem_init` establishes the block invariant

The initial marking lists every usable page as a block of order 0, the last one first, so
`buddy_coalesce_all` meets the upper of two buddies first; the merge then moves the base, which is
what the restart test looks at.
-/

namespace AuroraOS.Mem

open Lib List Option Finset Function

variable {U : Finset Nat} {s : Kmem} {free : Nat → List Nat} {held : List Block}

/-! ## Coalescing -/

/-- What coalescing keeps: the invariant and everything but descriptors and lists. -/
structure Coalesced (U : Finset Nat) (s : Kmem) (free : Nat → List Nat) (s' : Kmem)
    (free' : Nat → List Nat) : Prop where
  core : Core U s' free' []
  frame : Frame U [] s s'
  count : listedCount free' ≤ listedCount free

lemma Coalesced.refl (core : Core U s free []) : Coalesced U s free s free :=
  ⟨core, Frame.refl _ _ _, le_rfl⟩

lemma Coalesced.trans {s' s'' : Kmem} {free' free'' : Nat → List Nat}
    (first : Coalesced U s free s' free') (second : Coalesced U s' free' s'' free'') :
    Coalesced U s free s'' free'' :=
  ⟨second.core, first.frame.trans second.frame, second.count.trans first.count⟩

/-- The lists before the first merge: single pages only, from the last one down. -/
structure Descending (free : Nat → List Nat) : Prop where
  sorted : (free 0).Pairwise (· > ·)
  single : ∀ k, 0 < k → free k = []

variable {q p : Nat}

lemma Descending.push (down : Descending free) (above : ∀ p ∈ free 0, p < q) :
    Descending (update free 0 (q :: free 0)) := by
  refine ⟨?_, fun k pos => ?_⟩
  · exact pairwise_cons.mpr ⟨above, down.sorted⟩
  · rw [update_of_ne pos.ne']
    exact down.single k pos

variable {front back : List Nat}

lemma buddy_cases (shape : free 0 = front ++ p :: back)
    (buddy : p ^^^ 2 ^ 0 ∈ free 0) : p ^^^ 2 ^ 0 ∈ front ∨ p ^^^ 2 ^ 0 ∈ back := by
  rw [shape, List.mem_append, List.mem_cons] at buddy
  rcases buddy with before | same | after
  · exact .inl before
  · exact absurd same (xor_two_pow_ne p 0)
  · exact .inr after

variable {cursor : Option Nat}

variable (fuel : Nat) (core : Core U s free [])
include fuel core

/-- One walk over the single pages, listed from the last one down, meets the upper of two buddies
first, so a merge always changes the base and the walk starts again. -/
lemma coalesceWalk_bottom (shape : free 0 = front ++ back)
    (chain : Chain s.nextOf cursor back) (sorted : (free 0).Pairwise (· > ·))
    (pairs : PairFree 1 free) (lonely : ∀ q ∈ front, q ^^^ 2 ^ 0 ∉ free 0)
    (enough : back.length < fuel) :
    ∃ merged s' free', coalesceWalk fuel s cursor = some (merged, s') ∧
      Coalesced U s free s' free' ∧ (free' 0).Sublist (free 0) ∧ PairFree 1 free' ∧
      (merged = true → listedCount free' < listedCount free) ∧
      (merged = false → PairFree 0 free') := by
  induction fuel generalizing cursor front back with
  | zero => omega
  | succ fuel ih =>
    cases back with
    | nil =>
      have ended : cursor = none := chain
      subst ended
      refine ⟨false, s, free, rfl, Coalesced.refl core, Sublist.refl _, pairs,
        by simp, fun _ j low below q listed => ?_⟩
      rcases Nat.eq_zero_or_pos j with rfl | pos
      · rw [shape, append_nil] at listed
        exact lonely q listed
      · exact pairs j pos below q listed
    | cons p back =>
      obtain ⟨rfl, rest⟩ := chain
      have mem : p ∈ free 0 := by simp [shape]
      have flag : (s.pages p).flags.free ≠ false := by
        rw [(core.head 0 (Nat.zero_le _) p mem).flags]
        simp [pageFlagFree]
      obtain ⟨r, s₁, free₁, run, merged, settled⟩ :=
        buddyMerge_settles core (Nat.zero_le _) mem (by simp)
      have step : coalesceWalk (fuel + 1) s (some p) =
          if r ≠ p then some (true, s₁) else coalesceWalk fuel s₁ (s₁.nextOf p) := by
        simp [coalesceWalk, flag, run]
      simp only [length_cons] at enough
      by_cases buddy : p ^^^ 2 ^ 0 ∈ free 0
      · have lower : p ^^^ 2 ^ 0 < p := by
          rcases buddy_cases shape buddy with before | after
          · have back := lonely _ before
            rw [Nat.xor_xor_cancel_right] at back
            exact absurd mem back
          · rw [shape] at sorted
            exact (pairwise_cons.mp (pairwise_append.mp sorted).2.1).1 _ after
        have moved := settled.moved (by decide) buddy lower
        have less : listedCount free₁ < listedCount free := by
          rcases merged.progress with ⟨same, -, -⟩ | less
          · exact absurd same moved
          · exact less
        exact ⟨true, s₁, free₁, by rw [step, if_pos moved],
          ⟨merged.core, merged.frame, less.le⟩, settled.bottom,
          settled.pairs 1 (pairs.but 0 p), fun _ => less, by simp⟩
      · obtain ⟨rfl, rfl, rfl⟩ := settled.alone fun _ => buddy
        rw [step, if_neg (not_not.mpr rfl)]
        have moved : free₁ 0 = (front ++ [r]) ++ back := by simp [shape]
        refine ih moved rest ?_ (by omega)
        intro q inside
        rcases mem_append.mp inside with before | last
        · exact lonely q before
        · rwa [List.mem_singleton.mp last]

/-- The restarts of order 0 end with no two buddies listed at any order. -/
lemma coalesceOrder_bottom (sorted : (free 0).Pairwise (· > ·)) (pairs : PairFree 1 free)
    (enough : listedCount free < fuel) :
    ∃ s' free', coalesceOrder 0 fuel s = some s' ∧ Coalesced U s free s' free' ∧
      PairFree 0 free' := by
  induction fuel generalizing s free with
  | zero => omega
  | succ fuel ih =>
    have short := core.free_length_le (Nat.zero_le maxOrder)
    obtain ⟨merged, s₁, free₁, walk, done, sub, pairs₁, fewer, last⟩ :=
      coalesceWalk_bottom coalesceFuel core (nil_append (free 0)).symm
        (core.chain 0 (Nat.zero_le _)) sorted pairs (by simp)
        (short.trans_lt (by decide))
    cases merged with
    | false => exact ⟨s₁, free₁, by simp [coalesceOrder, walk], done, last rfl⟩
    | true =>
      have less := fewer rfl
      obtain ⟨s', free', run, again, pairs'⟩ :=
        ih done.core (sorted.sublist sub) pairs₁ (by omega)
      exact ⟨s', free', by simp [coalesceOrder, walk, run], done.trans again, pairs'⟩

lemma coalesceWalk_idle {k : Nat} (kle : k ≤ maxOrder) (pairs : PairFree 0 free)
    (chain : Chain s.nextOf cursor back) (inside : ∀ q ∈ back, q ∈ free k)
    (enough : back.length < fuel) : coalesceWalk fuel s cursor = some (false, s) := by
  induction fuel generalizing cursor back with
  | zero => omega
  | succ fuel ih =>
    cases back with
    | nil =>
      have ended : cursor = none := chain
      subst ended
      rfl
    | cons p back =>
      obtain ⟨rfl, rest⟩ := chain
      have mem := inside p (mem_cons_self ..)
      have run : buddyMerge s p = some (p, s) :=
        core.buddyMergeLoop_alone maxOrder kle mem (by simp) fun below =>
          pairs k (Nat.zero_le _) below p mem
      simp only [length_cons] at enough
      have tail := ih rest (fun q later => inside q (mem_cons_of_mem _ later)) (by omega)
      simp [coalesceWalk, run, tail]

omit fuel core

lemma coalesceOrder_idle {order : Nat} (fits : order ≤ maxOrder) (fuel : Nat)
    (core : Core U s free []) (pairs : PairFree 0 free) :
    coalesceOrder order (fuel + 1) s = some s := by
  have short := core.free_length_le fits
  have walk := coalesceWalk_idle coalesceFuel core fits pairs (core.chain order fits)
    (fun _ => id) (short.trans_lt (by decide))
  simp [coalesceOrder, walk]

/-- `buddy_coalesce_all` ends on the lists `buddy_mark_available` builds, keeps the
invariant and leaves no two buddies listed; the pass over order 0 does all of it. -/
lemma buddyCoalesceAll_spec (core : Core U s free []) (down : Descending free) :
    ∃ s' free', buddyCoalesceAll s = some s' ∧ Coalesced U s free s' free' ∧ PairFree 0 free' := by
  have count := core.listedCount_le
  have empty : PairFree 1 free := fun j pos _ q listed => by
    simp [down.single j pos] at listed
  obtain ⟨s', free', run, done, pairs⟩ :=
    coalesceOrder_bottom (buddyMaxPages + 1) core down.sorted empty (by omega)
  have idle : ∀ orders : List Nat, (∀ order ∈ orders, order ≤ maxOrder) →
      orders.foldlM (fun s order => coalesceOrder order (buddyMaxPages + 1) s) s' = some s' := by
    intro orders fits
    induction orders with
    | nil => rfl
    | cons order rest ih =>
      have here := coalesceOrder_idle (fits order (mem_cons_self ..)) buddyMaxPages done.core pairs
      rw [foldlM_cons, here, bind_eq_bind, bind_some]
      exact ih fun o mem => fits o (mem_cons_of_mem _ mem)
  have orders : List.range maxOrder = 0 :: List.range' 1 (maxOrder - 1) := by decide
  refine ⟨s', free', ?_, done, pairs⟩
  rw [buddyCoalesceAll, orders, foldlM_cons, run, bind_eq_bind, bind_some]
  exact idle _ (by decide)

/-! ## Marking pages -/

lemma foldl_markReserved (n a : Nat) (s : Kmem) :
    ((range' a n).foldl markReserved s).rest = s.rest ∧
    ((range' a n).foldl markReserved s).freeArea = s.freeArea ∧
    ∀ q, (((range' a n).foldl markReserved s).pages q).flags = { (s.pages q).flags with
        reserved := (s.pages q).flags.reserved || decide (a ≤ q ∧ q < a + n) } := by
  induction n generalizing a s with
  | zero =>
    refine ⟨rfl, rfl, fun q => ?_⟩
    have empty : decide (a ≤ q ∧ q < a + 0) = false := decide_eq_false (by omega)
    simp only [empty, Bool.or_false, range'_zero, foldl_nil]
  | succ n ih =>
    obtain ⟨rest, areas, flags⟩ := ih (a + 1) (markReserved s a)
    rw [range'_succ, foldl_cons]
    refine ⟨rest, areas, fun q => ?_⟩
    rw [flags q]
    by_cases this : q = a
    · subst this
      simp [markReserved]
    · have range : (a + 1 ≤ q ∧ q < a + 1 + n) ↔ (a ≤ q ∧ q < a + (n + 1)) := by omega
      simp only [markReserved, Kmem.setPage_pages_of_ne this, range]

lemma Core.adopt {f : Page → Page} (core : Core U s free held) (fresh : q ∉ U)
    (bound : q < s.totalPhysPages) (usable : (f (s.pages q)).flags.reserved = false) :
    Core (insert q U) (s.setPage q f) free (⟨q, 0⟩ :: held) := by
  have other : ∀ p, p ≠ q → (s.setPage q f).pages p = s.pages p :=
    fun p ne => Kmem.setPage_pages_of_ne ne
  have managed : ∀ k ≤ maxOrder, ∀ p ∈ free k, p ≠ q := by
    rintro k kle p mem rfl
    exact fresh (core.tiling.base_mem (mem_append_left _ (mem_gather_of_listed kle mem)))
  refine ⟨?_, ?_, ?_, ?_, ?_, ?_, core.total⟩
  · intro k kle
    refine (core.chain k kle).congr fun p mem => ?_
    simp [Kmem.nextOf, other p (managed k kle p mem)]
  · refine Tiling.perm (Tiling.tail_iff_cons ?_ core.tiling ?_ ?_) perm_middle.symm
    · intro p
      have single : (⟨q, 0⟩ : Block).Covers p ↔ p = q := by
        simp only [Block.Covers]
        omega
      rw [mem_insert, single, or_comm]
    · exact one_dvd q
    · intro c mem
      have outside : ¬c.Covers q := fun covers =>
        fresh ((core.tiling.cover q).mpr ⟨c, mem, covers⟩)
      unfold Block.Covers at outside
      unfold Block.Apart
      simp only
      omega
  · intro k kle p mem
    exact (core.head k kle p mem).of_pages (other p (managed k kle p mem))
  · intro p outside
    rw [mem_insert, not_or] at outside
    rw [other p outside.1]
    exact core.notFree p outside.2
  · intro p inside
    by_cases this : p = q
    · subst this
      rwa [Kmem.setPage_pages_self]
    · rw [other p this]
      exact core.notReserved p (mem_of_mem_insert_of_ne inside this)
  · intro p inside
    rcases mem_insert.mp inside with rfl | inside
    · exact bound
    · exact core.bound p inside

/-- The state while `buddy_mark_available` runs: `U` is what it has listed. -/
structure Marking (U : Finset Nat) (s : Kmem) (free : Nat → List Nat) : Prop where
  core : Core U s free []
  counted : s.statTotalPages = U.card

/-- One turn of `buddy_mark_available` lists the page unless it is reserved. -/
lemma markAvailable_step (marking : Marking U s free) (down : Descending free)
    (below : ∀ p ∈ U, p < q) (bound : q < s.totalPhysPages) :
    ∃ U' free', Marking U' (markAvailable s q) free' ∧ Descending free' ∧
      ∀ p, p ∈ U' ↔ p ∈ U ∨ p = q ∧ (s.pages p).flags.reserved = false := by
  cases flag : (s.pages q).flags.reserved with
  | true =>
    have same : markAvailable s q = s := by simp [markAvailable, flag]
    rw [same]
    refine ⟨U, free, marking, down, fun p => (or_iff_left ?_).symm⟩
    rintro ⟨rfl, usable⟩
    cases flag.symm.trans usable
  | false =>
    have fresh : q ∉ U := fun inside => lt_irrefl q (below q inside)
    let page : Page :=
      { flags := pageFlagFree, order := 0, refCount := 0, physAddr := pfnToPhys q,
        next := none, slabCache := none }
    have core := marking.core.adopt (f := fun _ => page) fresh bound rfl
    have ready : FreeHead (s.setPage q fun _ => page) 0 q :=
      ⟨by simp [page], by simp [page], by simp [page]⟩
    obtain ⟨core', -, rest⟩ := core.listAdd (Nat.zero_le _) ready
    have total : (listAdd (s.setPage q fun _ => page) 0 q).statTotalPages = s.statTotalPages :=
      Kmem.statTotal_of_rest rest
    have shape : markAvailable s q =
        { listAdd (s.setPage q fun _ => page) 0 q with
          statTotalPages := (listAdd (s.setPage q fun _ => page) 0 q).statTotalPages + 1 } := by
      simp [markAvailable, flag, page]
    rw [shape]
    refine ⟨insert q U, _, ⟨core'.congr rfl rfl rfl, ?_⟩, down.push fun p listed => ?_, fun p => ?_⟩
    · rw [card_insert_of_notMem fresh, ← marking.counted]
      exact congrArg (· + 1) total
    · exact below p (marking.core.tiling.base_mem
        (mem_append_left _ (mem_gather_of_listed (Nat.zero_le _) listed)))
    · rw [mem_insert, or_comm]
      exact or_congr Iff.rfl ⟨fun is => ⟨is, is ▸ flag⟩, And.left⟩

lemma markAvailable_pages_of_ne {s : Kmem} (ne : p ≠ q) :
    (markAvailable s q).pages p = s.pages p := by
  unfold markAvailable
  split
  · rfl
  · simp [listAdd, Kmem.setNext, Kmem.setPage, ne]

lemma markAvailable_rest (s : Kmem) (q : Nat) :
    ∃ total, (markAvailable s q).rest = { s.rest with statTotalPages := total } := by
  unfold markAvailable
  split
  · exact ⟨_, rfl⟩
  · exact ⟨_, rfl⟩

lemma foldl_markAvailable (n a : Nat) (marking : Marking U s free) (below : ∀ q ∈ U, q < a)
    (down : Descending free) (fits : n ≤ s.totalPhysPages - a) :
    ∃ U' free', Marking U' ((range' a n).foldl markAvailable s) free' ∧ Descending free' ∧
      (∀ q, q ∈ U' ↔ q ∈ U ∨ (a ≤ q ∧ q < a + n ∧ (s.pages q).flags.reserved = false)) ∧
      ∃ total, ((range' a n).foldl markAvailable s).rest =
        { s.rest with statTotalPages := total } := by
  induction n generalizing a s U free with
  | zero =>
    refine ⟨U, free, marking, down, fun q => (or_iff_left ?_).symm, s.statTotalPages, rfl⟩
    rintro ⟨low, high, -⟩
    omega
  | succ n ih =>
    rw [range'_succ, foldl_cons]
    obtain ⟨total, rest⟩ := markAvailable_rest s a
    have pages : (markAvailable s a).totalPhysPages = s.totalPhysPages :=
      (congrArg Kmem.totalPhysPages rest :)
    obtain ⟨U₁, free₁, marking₁, down₁, members₁⟩ :=
      markAvailable_step marking down below (by omega)
    have below₁ : ∀ q ∈ U₁, q < a + 1 := by
      intro q inside
      rcases (members₁ q).mp inside with old | ⟨rfl, -⟩
      · exact Nat.lt_succ_of_lt (below q old)
      · exact Nat.lt_succ_self q
    obtain ⟨U', free', marking', down', members, total', rest'⟩ :=
      ih (a + 1) marking₁ below₁ down₁ (by omega)
    refine ⟨U', free', marking', down', fun q => ?_, total', rest'.trans (by rw [rest])⟩
    rw [members q, members₁ q]
    by_cases this : q = a
    · subst this
      simp
    · have range : (a + 1 ≤ q ∧ q < a + 1 + n) ↔ (a ≤ q ∧ q < a + (n + 1)) := by omega
      simp only [markAvailable_pages_of_ne this, this, false_and, or_false, ← and_assoc, range]

lemma buddyMarkReserved_spec (s : Kmem) (a e : Nat) : (buddyMarkReserved s a e).rest = s.rest ∧
    (buddyMarkReserved s a e).freeArea = s.freeArea ∧
    ∀ q, ((buddyMarkReserved s a e).pages q).flags.free = (s.pages q).flags.free ∧
      (((buddyMarkReserved s a e).pages q).flags.reserved = true ↔
        (s.pages q).flags.reserved = true ∨ (a ≤ q ∧ q < e ∧ q < buddyMaxPages)) := by
  unfold buddyMarkReserved
  by_cases beyond : a ≥ buddyMaxPages
  · rw [if_pos beyond]
    refine ⟨rfl, rfl, fun q => ⟨rfl, ?_⟩⟩
    have empty : ¬(a ≤ q ∧ q < e ∧ q < buddyMaxPages) := by omega
    simp only [empty, or_false]
  · rw [if_neg beyond]
    obtain ⟨rest, areas, flags⟩ :=
      foldl_markReserved ((if e > buddyMaxPages then buddyMaxPages else e) - a) a s
    refine ⟨rest, areas, fun q => ?_⟩
    rw [flags q]
    refine ⟨rfl, ?_⟩
    simp only [Bool.or_eq_true, decide_eq_true_eq]
    refine or_congr Iff.rfl ?_
    split <;> omega

lemma buddyMarkAvailable_spec {a : Nat} (marking : Marking ∅ s free)
    (down : Descending free) (fits : s.totalPhysPages ≤ buddyMaxPages) :
    ∃ U' free', Marking U' (buddyMarkAvailable s a s.totalPhysPages) free' ∧ Descending free' ∧
      (∀ q, q ∈ U' ↔ a ≤ q ∧ q < s.totalPhysPages ∧ (s.pages q).flags.reserved = false) ∧
      ∃ total, (buddyMarkAvailable s a s.totalPhysPages).rest =
        { s.rest with statTotalPages := total } := by
  unfold buddyMarkAvailable
  by_cases beyond : a ≥ buddyMaxPages
  · rw [if_pos beyond]
    refine ⟨∅, free, marking, down, fun q => ?_, s.statTotalPages, rfl⟩
    simp only [notMem_empty, false_iff]
    omega
  · rw [if_neg beyond, if_neg (not_lt.mpr fits)]
    obtain ⟨U', free', marking', down', members, kept⟩ :=
      foldl_markAvailable (s.totalPhysPages - a) a marking (by simp) down le_rfl
    refine ⟨U', free', marking', down', fun q => ?_, kept⟩
    rw [members q]
    simp only [notMem_empty, false_or]
    refine and_congr_right fun low => ?_
    refine and_congr ?_ Iff.rfl
    omega

/-! ## The initial state -/

/-- The pages `phys_mem_init` counts in `stat_total_pages`: all but the 2 MiB from 1 MiB on, where
the kernel image starts, and the kernel heap from 9 MiB up to 33 MiB. -/
def managedPages (total : Nat) : Finset Nat :=
  (Finset.range total).filter fun pfn => 512 ≤ pfn ∧ ¬(2048 ≤ pfn ∧ pfn < 8192)

lemma mem_managedPages {total pfn : Nat} :
    pfn ∈ managedPages total ↔ pfn < total ∧ 512 ≤ pfn ∧ ¬(2048 ≤ pfn ∧ pfn < 8192) := by
  simp only [managedPages, Finset.mem_filter, Finset.mem_range]

/-- `phys_mem_init` lists the managed pages, and coalesces them, for every memory size. -/
lemma physMemInitWith_spec {totalRam : Nat} (boot : s.statTotalPages = 0)
    (fits : totalRam ≤ 256 * 1024 * 1024) :
    ∃ s' free, physMemInitWith s totalRam = some s' ∧
      Core (managedPages (totalRam / pageSize)) s' free [] ∧ PairFree 0 free ∧
      s'.statTotalPages = (managedPages (totalRam / pageSize)).card ∧
      s'.statUsedPages = s.statUsedPages ∧ s'.totalPhysPages = totalRam / pageSize ∧
      s'.physMemEnd = totalRam := by
  let s₀ : Kmem :=
    { s with pages := fun _ => {}, freeArea := fun _ => none, physMemEnd := totalRam,
             totalPhysPages := totalRam / pageSize }
  have small : totalRam / pageSize ≤ buddyMaxPages := Nat.div_le_div_right fits
  let heapEnd := if 32 * 1024 * 1024 / pageSize > totalRam / pageSize then
    totalRam / pageSize else 32 * 1024 * 1024 / pageSize
  obtain ⟨rest₁, areas₁, flags₁⟩ := buddyMarkReserved_spec s₀ 0 (2 * 1024 * 1024 / pageSize)
  generalize kernel : buddyMarkReserved s₀ 0 (2 * 1024 * 1024 / pageSize) = s₁
    at rest₁ areas₁ flags₁
  obtain ⟨rest₂, areas₂, flags₂⟩ :=
    buddyMarkReserved_spec s₁ (8 * 1024 * 1024 / pageSize) heapEnd
  generalize heap : buddyMarkReserved s₁ (8 * 1024 * 1024 / pageSize) heapEnd = s₂
    at rest₂ areas₂ flags₂
  have total₁ : s₁.totalPhysPages = totalRam / pageSize := Kmem.total_of_rest rest₁
  have total₂ : s₂.totalPhysPages = totalRam / pageSize :=
    (Kmem.total_of_rest rest₂).trans total₁
  have rest : s₂.rest = s₀.rest := rest₂.trans rest₁
  have unmarked : ∀ q, (s₂.pages q).flags.free = false := fun q =>
    (flags₂ q).1.trans (flags₁ q).1
  have empty : Core ∅ s₂ (fun _ => []) [] := by
    have areas : s₂.freeArea = fun _ => none := areas₂.trans areas₁
    refine ⟨fun k _ => by simp [areas], ?_, by simp, fun p _ => unmarked p, by simp, by simp, ?_⟩
    · have nothing : gather (maxOrder + 1) (fun _ => []) = [] := by simp [gather]
      rw [nothing]
      exact ⟨by simp, by simp, by simp⟩
    · rw [total₂]
      exact small
  have start : Marking ∅ s₂ fun _ => [] := by
    refine ⟨empty, ?_⟩
    exact (Kmem.statTotal_of_rest rest).trans boot
  obtain ⟨U, free, marking, down, members, total, marked⟩ :=
    buddyMarkAvailable_spec (a := 2 * 1024 * 1024 / pageSize) start ⟨by simp, by simp⟩
      (by rw [total₂]; exact small)
  have managed : U = managedPages (totalRam / pageSize) := by
    ext q
    have reserved := (flags₂ q).2
    rw [(flags₁ q).2] at reserved
    have limit : q < heapEnd ↔ q < totalRam / pageSize ∧ q < 32 * 1024 * 1024 / pageSize := by
      simp only [heapEnd]
      split <;> omega
    rw [members q, mem_managedPages, total₂, ← Bool.not_eq_true, reserved, limit]
    simp only [s₀, Bool.false_eq_true, false_or, pageSize, buddyMaxPages] at small ⊢
    omega
  subst managed
  obtain ⟨s', free', run, done, pairs⟩ := buddyCoalesceAll_spec marking.core down
  have kept : s'.rest = { s₀.rest with statTotalPages := total } := by
    rw [done.frame.rest, marked, rest]
  refine ⟨s', free', ?_, done.core, pairs, ?_, (congrArg Kmem.statUsedPages kept :),
    (congrArg Kmem.totalPhysPages kept :), (congrArg Kmem.physMemEnd kept :)⟩
  · have init : physMemInitWith s totalRam = buddyCoalesceAll
        (buddyMarkAvailable s₂ (2 * 1024 * 1024 / pageSize) s₂.totalPhysPages) := by
      rw [← heap]
      simp only [heapEnd, ← total₁]
      rw [← kernel]
      rfl
    rw [init]
    exact run
  · exact (Kmem.statTotal_of_rest done.frame.rest).trans marking.counted

end AuroraOS.Mem
