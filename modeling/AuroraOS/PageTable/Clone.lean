import AuroraOS.PageTable.Frames
import AuroraOS.PageTable.Shape

/-!
# `clone_current_pml4`

Both sides of the clone end with the same leaf entries, none of them writable, and the copy stands
on new pages.
-/

namespace AuroraOS.PageTable

open Lib Mem List Finset

/-! ## Entries -/

variable {i a : Nat} {e : Entry}

lemma cowEntry_present (e : Entry) : has (cowEntry e) ptePresent = true := by
  have bit : ptePresent.getLsbD 0 = true := by decide
  rw [has_present, cowEntry]
  split <;> split <;> simp only [BitVec.getLsbD_or, bit, Bool.or_true, Bool.true_or]

lemma getLsbD_page (aligned : pageSize ∣ a) (low : i < 12) :
    (BitVec.ofNat 64 a).getLsbD i = false := by
  obtain ⟨k, rfl⟩ := aligned
  rw [BitVec.getLsbD_ofNat]
  have shifted : (2 ^ 12 * k).testBit i = false := by
    rw [Nat.testBit_two_pow_mul]
    simp [not_le.mpr low]
  simp only [pageSize]
  rw [show 4096 * k = 2 ^ 12 * k by rfl, shifted, Bool.and_false]

lemma tableEntry (flags : Entry) (page : pageSize ∣ a) (low : a < kernelPhysMax)
    (present : flags.getLsbD 0 = true) (small : flags.getLsbD 7 = false)
    (high : ∀ i : Fin 64, 12 ≤ (i : Nat) → flags.getLsbD i = false) :
    has (BitVec.ofNat 64 a ||| flags) ptePresent = true ∧
    has (BitVec.ofNat 64 a ||| flags) ptePs = false ∧
    pteAddr (BitVec.ofNat 64 a ||| flags) = a := by
  refine ⟨?_, ?_, ?_⟩
  · rw [has_present, BitVec.getLsbD_or, present, Bool.or_true]
  · rw [has_ps, BitVec.getLsbD_or, getLsbD_page page (by decide), small, Bool.or_false]
  · apply pteAddr_ofNat_or page
    · simp only [kernelPhysMax] at low
      omega
    · exact fun i above below => high ⟨i, by omega⟩ above

/-! ## What a part of the clone changes -/

/-- From `s` to `s'` the pages `held'` were taken, and only the pages `touched` were written. -/
structure Progress (U : Finset Nat) (held held' : List Block) (s s' : Kmem)
    (touched : Finset Nat) : Prop where
  managed : Managed U s' held'
  grows : held ⊆ held'
  ram : ∀ b, pageSize ∣ b → b ∉ touched → SamePage s.ram s'.ram b

namespace Progress

variable {U : Finset Nat} {held held' held'' : List Block} {s s' s'' : Kmem}
  {touched : Finset Nat}

lemma refl (managed : Managed U s held) : Progress U held held s s ∅ :=
  ⟨managed, Subset.refl _, fun _ _ _ _ _ _ => rfl⟩

lemma trans {touched' : Finset Nat} (first : Progress U held held' s s' touched)
    (second : Progress U held' held'' s' s'' touched') :
    Progress U held held'' s s'' (touched ∪ touched') where
  managed := second.managed
  grows := fun _ mem => second.grows (first.grows mem)
  ram b aligned outside := by
    rw [mem_union, not_or] at outside
    exact (first.ram b aligned outside.1).trans (second.ram b aligned outside.2)

lemma widen (progress : Progress U held held' s s' touched) (touched' : Finset Nat)
    (sub : touched ⊆ touched') : Progress U held held' s s' touched' :=
  { progress with
    ram := fun b aligned outside => progress.ram b aligned fun mem => outside (sub mem) }

lemma setEntry (managed : Managed U s held) {table i : Nat} {e : Entry}
    (aligned : pageSize ∣ table) (inside : i < 512) :
    Progress U held held s (setEntry s table i e) {table} where
  managed := managed_ram managed _
  grows := Subset.refl _
  ram b alignedB outside := by
    apply samePage_writeEntry aligned alignedB _ inside
    intro same
    exact outside (Finset.mem_singleton.mpr same.symm)

lemma pageRefInc (managed : Managed U s held) (a : Nat) :
    Progress U held held s (pageRefInc s a) ∅ := by
  rw [PageTable.pageRefInc]
  split
  · exact .refl managed
  · exact ⟨managed_setRef managed _ _, Subset.refl _, fun _ _ _ _ _ _ => rfl⟩

lemma fresh {p : Nat} (fresh : FreshPage U held s p s') :
    Progress U held (⟨p, 0⟩ :: held) s s' {pfnToPhys p} where
  managed := fresh.managed
  grows := subset_cons_self _ _
  ram b aligned outside := fresh.other b aligned fun same => outside (Finset.mem_singleton.mpr same)

end Progress

/-! ## The leaves of a PT -/

lemma leafEntry_zero : leafEntry 0 = none := by decide

lemma links_zero {n : Nat} : links n 0 = false := by
  rw [links, show has 0 ptePresent = false by decide, Bool.false_and]

lemma leafEntry_of_present (present : has e ptePresent = true) :
    leafEntry e = some e := if_pos present

lemma leafEntry_of_absent (absent : has e ptePresent = false) :
    leafEntry e = none := if_neg (by rw [absent]; exact Bool.false_ne_true)

section Leaves

variable {U : Finset Nat} {held : List Block} {s t : Kmem} {src dst l : Nat} {D : Finset Nat}

structure LeafStep (U : Finset Nat) (held : List Block) (src dst l : Nat) (s t : Kmem) : Prop where
  progress : Progress U held held s t {src, dst}
  source : leafEntry (readEntry t.ram src l) = (leafEntry (readEntry s.ram src l)).map cowEntry
  copy : leafEntry (readEntry t.ram dst l) = (leafEntry (readEntry s.ram src l)).map cowEntry
  other : ∀ k < 512, l ≠ k → readEntry t.ram src k = readEntry s.ram src k ∧
    readEntry t.ram dst k = readEntry s.ram dst k

lemma cloneLeaf_spec (managed : Managed U s held) (srcPage : TablePage src)
    (dstPage : TablePage dst) (apart : src ≠ dst) (inside : l < 512) :
    LeafStep U held src dst l s (cloneLeaf src dst s l) := by
  have dstSafe : ∀ (m : Store) (e : Entry), SamePage m (writeEntry m dst l e) src := fun m e =>
    samePage_writeEntry dstPage.aligned srcPage.aligned apart.symm inside
  have srcSafe : ∀ (m : Store) (e : Entry), SamePage m (writeEntry m src l e) dst := fun m e =>
    samePage_writeEntry srcPage.aligned dstPage.aligned apart inside
  have current : entry s src l = readEntry s.ram src l := rfl
  rw [cloneLeaf, current]
  cases present : has (readEntry s.ram src l) ptePresent with
  | false =>
    have absent := leafEntry_of_absent present
    have written := Progress.setEntry (e := 0) managed dstPage.aligned inside
    refine ⟨written.widen {src, dst} (by simp), ?_, ?_, ?_⟩
    · refine (congrArg leafEntry (readEntry_congr (dstSafe s.ram 0) inside)).trans ?_
      rw [absent]
      rfl
    · refine (congrArg leafEntry readEntry_writeEntry_same).trans ?_
      rw [absent]
      exact leafEntry_zero
    · exact fun k small other => ⟨readEntry_congr (dstSafe s.ram 0) small,
        readEntry_writeEntry_other other⟩
  | true =>
    have leafIs := leafEntry_of_present present
    have cow := leafEntry_of_present (cowEntry_present (readEntry s.ram src l))
    have counting := Progress.pageRefInc managed (pteAddr (readEntry s.ram src l))
    have ramKept : (pageRefInc s (pteAddr (readEntry s.ram src l))).ram = s.ram := by
      rw [pageRefInc]
      split <;> rfl
    generalize same : readEntry s.ram src l = e at *
    have first := Progress.setEntry (e := cowEntry e) counting.managed srcPage.aligned inside
    have second := Progress.setEntry (e := cowEntry e) first.managed dstPage.aligned inside
    refine ⟨?_, ?_, ?_, ?_⟩
    · exact ((counting.trans first).trans second).widen {src, dst} (by
        intro b mem
        simpa using mem)
    · rw [same, leafIs, Option.map_some, ← cow]
      exact congrArg leafEntry ((readEntry_congr (dstSafe _ _) inside).trans
        readEntry_writeEntry_same)
    · rw [same, leafIs, Option.map_some, ← cow]
      exact congrArg leafEntry readEntry_writeEntry_same
    · intro k small other
      rw [← ramKept]
      exact ⟨(readEntry_congr (dstSafe _ _) small).trans (readEntry_writeEntry_other other),
        (readEntry_writeEntry_other other).trans (readEntry_congr (srcSafe _ _) small)⟩

structure LeavesDone (U : Finset Nat) (held : List Block) (src dst : Nat) (D : Finset Nat)
    (s t : Kmem) : Prop where
  progress : Progress U held held s t {src, dst}
  bound : ∀ l ∈ D, l < 512
  todo : ∀ l < 512, l ∉ D → readEntry t.ram src l = readEntry s.ram src l
  source : ∀ l ∈ D, leafEntry (readEntry t.ram src l) =
    (leafEntry (readEntry s.ram src l)).map cowEntry
  copy : ∀ l ∈ D, leafEntry (readEntry t.ram dst l) =
    (leafEntry (readEntry s.ram src l)).map cowEntry

lemma LeavesDone.start (src dst : Nat) (managed : Managed U s held) :
    LeavesDone U held src dst ∅ s s where
  progress := (Progress.refl managed).widen _ (empty_subset _)
  bound l mem := absurd mem (notMem_empty l)
  todo _ _ _ := rfl
  source l mem := absurd mem (notMem_empty l)
  copy l mem := absurd mem (notMem_empty l)

lemma LeavesDone.step {t' : Kmem} (done : LeavesDone U held src dst D s t)
    (turn : LeafStep U held src dst l t t') (inside : l < 512) (new : l ∉ D) :
    LeavesDone U held src dst (insert l D) s t' := by
  have current := done.todo l inside new
  have ne : ∀ k ∈ D, l ≠ k := fun k mem same => new (same ▸ mem)
  refine ⟨?_, ?_, ?_, ?_, ?_⟩
  · exact (done.progress.trans turn.progress).widen {src, dst} (by simp)
  · intro k mem
    rcases mem_insert.mp mem with rfl | mem
    · exact inside
    · exact done.bound k mem
  · intro k small outside
    rw [mem_insert, not_or] at outside
    rw [(turn.other k small (Ne.symm outside.1)).1, done.todo k small outside.2]
  · intro k mem
    rcases mem_insert.mp mem with rfl | mem
    · rw [turn.source, current]
    · rw [(turn.other k (done.bound k mem) (ne k mem)).1, done.source k mem]
  · intro k mem
    rcases mem_insert.mp mem with rfl | mem
    · rw [turn.copy, current]
    · rw [(turn.other k (done.bound k mem) (ne k mem)).2, done.copy k mem]

lemma LeavesDone.foldl {n : Nat} (managed : Managed U s held) (srcPage : TablePage src)
    (dstPage : TablePage dst) (apart : src ≠ dst) (bound : n ≤ 512) :
    LeavesDone U held src dst (Finset.range n) s ((List.range n).foldl (cloneLeaf src dst) s) := by
  induction n with
  | zero => exact .start src dst managed
  | succ n ih =>
    have done := ih (by omega)
    rw [List.range_succ, foldl_append, Finset.range_add_one]
    exact done.step (cloneLeaf_spec done.progress.managed srcPage dstPage apart bound) bound
      notMem_range_self

end Leaves

end AuroraOS.PageTable
