import AuroraOS.PageTable.Clone
import Mathlib.Algebra.Order.BigOperators.Group.Finset

/-!
# The loops of `clone_current_pml4`

The induction over the levels.  `Cloned` is the result for the tree below one table,
`ClonedIn` the invariant of the loop over the entries of an upper table: the entries `D`
are done, and the table of the copy stands on pages that were not in use before.
-/

namespace AuroraOS.PageTable

open Lib Mem Function List Option Finset

/-! ## Two trees with the same leaves -/

/-- In `m'` the trees at `src` and at `dst` have the leaves that the tree at `src` had in
`m`, all of them read-only.  The 2 MiB pages stay with the source. -/
structure Twins (n src dst : Nat) (pages copies : Finset Nat) (m m' : Store) : Prop where
  source : Shape m' n src pages
  copy : Shape m' n dst copies
  sourceLeaf : ∀ x, leaf m' n src x = (leaf m n src x).map cowEntry
  copyLeaf : ∀ x, leaf m' n dst x = (leaf m n src x).map cowEntry
  sourceLarge : ∀ x, large m' n src x = large m n src x
  copyLarge : ∀ x, large m' n dst x = none

/-- One entry of two upper tables: the copy has a table where the source has one, and is closed to
user mode. -/
structure EntryTwins (n src dst i : Nat) (pages copies : Finset Nat) (m m' : Store) : Prop where
  closed : has (readEntry m' dst i) pteUser = false
  loose : links n (readEntry m src i) = false →
    has (readEntry m' dst i) ptePresent = false ∧ copies = ∅
  linked : links n (readEntry m src i) = true →
    links n (readEntry m' dst i) = true ∧
      Twins n (pteAddr (readEntry m src i)) (pteAddr (readEntry m' dst i)) pages copies m m'

section Twins

variable {n src dst i : Nat} {pages copies : Finset Nat} {m m' m'' : Store}

lemma Twins.later (twins : Twins n src dst pages copies m m')
    (samePages : ∀ b ∈ pages, SamePage m' m'' b) (sameCopies : ∀ b ∈ copies, SamePage m' m'' b) :
    Twins n src dst pages copies m m'' where
  source := twins.source.congr samePages
  copy := twins.copy.congr sameCopies
  sourceLeaf x := (twins.source.leaf_congr samePages x).trans (twins.sourceLeaf x)
  copyLeaf x := (twins.copy.leaf_congr sameCopies x).trans (twins.copyLeaf x)
  sourceLarge x := (large_kept (twins.source.look_congr samePages x)).trans (twins.sourceLarge x)
  copyLarge x := (large_kept (twins.copy.look_congr sameCopies x)).trans (twins.copyLarge x)

lemma Twins.earlier (twins : Twins n src dst pages copies m' m'') (shape : Shape m n src pages)
    (same : ∀ b ∈ pages, SamePage m m' b) : Twins n src dst pages copies m m'' where
  source := twins.source
  copy := twins.copy
  sourceLeaf x := by rw [twins.sourceLeaf x, shape.leaf_congr same x]
  copyLeaf x := by rw [twins.copyLeaf x, shape.leaf_congr same x]
  sourceLarge x := (twins.sourceLarge x).trans (large_kept (shape.look_congr same x))
  copyLarge := twins.copyLarge

lemma EntryTwins.later (twins : EntryTwins n src dst i pages copies m m')
    (sameEntry : readEntry m'' dst i = readEntry m' dst i)
    (samePages : ∀ b ∈ pages, SamePage m' m'' b) (sameCopies : ∀ b ∈ copies, SamePage m' m'' b) :
    EntryTwins n src dst i pages copies m m'' where
  closed := by
    rw [sameEntry]
    exact twins.closed
  loose unlinked := by
    rw [sameEntry]
    exact twins.loose unlinked
  linked there := by
    rw [sameEntry]
    obtain ⟨leads, below⟩ := twins.linked there
    exact ⟨leads, below.later samePages sameCopies⟩

end Twins

/-! ## Loops that can fail -/

/-- A loop over distinct indices keeps an invariant of the indices done, or ends in the
reason why a turn of it fails. -/
lemma loopOrFail_rule (body : Nat → Kmem → Option (Bool × Kmem)) (Inv : Finset Nat → Kmem → Prop)
    (Fail : Prop) (ls : List Nat) (nodup : ls.Nodup)
    (step : ∀ i ∈ ls, ∀ D t, i ∉ D → Inv D t →
      (∃ t', body i t = some (true, t') ∧ Inv (insert i D) t') ∨
      (∃ t', body i t = some (false, t') ∧ Fail))
    {D : Finset Nat} {t : Kmem} (apart : ∀ i ∈ ls, i ∉ D) (inv : Inv D t) :
    (∃ t', loopOrFail body ls t = some (true, t') ∧ Inv (D ∪ ls.toFinset) t') ∨
    (∃ t', loopOrFail body ls t = some (false, t') ∧ Fail) := by
  induction ls generalizing D t with
  | nil => exact .inl ⟨t, rfl, by simpa using inv⟩
  | cons i ls ih =>
    obtain ⟨first, nodup⟩ := nodup_cons.mp nodup
    rcases step i (mem_cons_self ..) D t (apart i (mem_cons_self ..)) inv with
      ⟨t', call, inv'⟩ | ⟨t', call, fail⟩
    · have rest := ih nodup (fun k mem => step k (mem_cons_of_mem _ mem))
        (fun k mem old => by
          rcases mem_insert.mp old with rfl | old
          · exact first mem
          · exact apart k (mem_cons_of_mem _ mem) old) inv'
      rw [loopOrFail, call, toFinset_cons, union_insert, ← insert_union]
      exact rest
    · refine .inr ⟨t', ?_, fail⟩
      rw [loopOrFail, call]
      rfl

/-! ## One entry of an upper table -/

structure Cloned (U : Finset Nat) (held held' : List Block) (n src dst : Nat)
    (pages copies : Finset Nat) (s t : Kmem) : Prop where
  progress : Progress U held held' s t (pages ∪ copies)
  size : heldPages held' + 1 = heldPages held + pages.card
  twins : Twins n src dst pages copies s.ram t.ram
  new : ∀ b ∈ copies, b = dst ∨ ¬ Kept U held b
  kept : ∀ b ∈ copies, Kept U held' b

/-- What the clone of the tables below an entry starts from. -/
structure Target (U : Finset Nat) (held : List Block) (pages : Finset Nat) (dst : Nat) : Prop where
  used : ∀ b ∈ pages, Kept U held b
  page : TablePage dst
  kept : Kept U held dst
  apart : dst ∉ pages

lemma FreshPage.target {U : Finset Nat} {held : List Block} {p : Nat} {pages : Finset Nat}
    {s s' : Kmem} (fresh : FreshPage U held s p s') (used : ∀ b ∈ pages, Kept U held b) :
    Target U (⟨p, 0⟩ :: held) pages (pfnToPhys p) where
  used b mem := (used b mem).mono (subset_cons_self _ _)
  page := ⟨pfnToPhys_aligned p, fresh.managed.reachable fresh.inside⟩
  kept := by
    rw [kept_pfnToPhys]
    exact fun _ => ⟨⟨p, 0⟩, mem_cons_self .., Block.covers_base ⟨p, 0⟩⟩
  apart mem := fresh.not_kept (used _ mem)

lemma forall_insert_update {D C : Finset Nat} {i : Nat} {copies : Nat → Finset Nat}
    (P : Nat → Finset Nat → Prop) (new : i ∉ D) (here : P i C) (there : ∀ k ∈ D, P k (copies k)) :
    ∀ k ∈ insert i D, P k (update copies i C k) := by
  intro k mem
  rcases mem_insert.mp mem with rfl | mem
  · rwa [update_self]
  · rw [update_of_ne (ne_of_mem_of_not_mem mem new)]
    exact there k mem

def ClonesBelow (n : Nat) (below : Nat → Nat → Kmem → Option (Bool × Kmem)) : Prop :=
  ∀ U held s src dst pages, Managed U s held → Shape s.ram n src pages →
    Target U held pages dst →
    (∃ t held' copies, below src dst s = some (true, t) ∧
      Cloned U held held' n src dst pages copies s t) ∨
    (∃ t, below src dst s = some (false, t) ∧ U.card < heldPages held + pages.card)

/-- The loop over the entries of an upper table with the entries `D` done. -/
structure ClonedIn (U : Finset Nat) (held held' : List Block) (n src dst : Nat) (D : Finset Nat)
    (sub copies : Nat → Finset Nat) (s t : Kmem) : Prop where
  progress : Progress U held held' s t (insert dst (D.biUnion sub ∪ D.biUnion copies))
  size : heldPages held' = heldPages held + ∑ i ∈ D, (sub i).card
  entries : ∀ i ∈ D, EntryTwins n src dst i (sub i) (copies i) s.ram t.ram
  new : ∀ i ∈ D, ∀ b ∈ copies i, ¬ Kept U held b
  kept : ∀ i ∈ D, ∀ b ∈ copies i, Kept U held' b
  apart : ∀ i ∈ D, ∀ k ∈ D, i ≠ k → Disjoint (copies i) (copies k)

section Entries

variable {U I D : Finset Nat} {held held' : List Block} {n src dst i : Nat}
  {sub copies : Nat → Finset Nat} {s t : Kmem}

lemma card_pagesOf (node : Node n (Shape s.ram n) I s.ram src sub) :
    (pagesOf I src sub).card = ∑ i ∈ I, (sub i).card + 1 := by
  rw [pagesOf, card_insert_of_notMem, card_biUnion]
  · exact fun i mem k mem' different => node.apart i mem k mem' different
  · intro mem
    obtain ⟨i, inI, inSub⟩ := mem_biUnion.mp mem
    exact node.self i inI inSub

lemma heldPages_page (p : Nat) : heldPages (⟨p, 0⟩ :: held) = 1 + heldPages held := rfl

lemma Progress.same {A B : Finset Nat} {b : Nat}
    (progress : Progress U held held' s t (insert dst (A ∪ B))) (aligned : pageSize ∣ b)
    (other : b ≠ dst) (left : b ∉ A) (right : b ∉ B) : SamePage s.ram t.ram b := by
  apply progress.ram b aligned
  rw [mem_insert, mem_union]
  exact not_or.mpr ⟨other, not_or.mpr ⟨left, right⟩⟩

/-- The loop writes to no page in use before, but for `dst` and the tables below what is done. -/
lemma ClonedIn.same {b : Nat} (done : ClonedIn U held held' n src dst D sub copies s t)
    (aligned : pageSize ∣ b) (other : b ≠ dst) (outside : ∀ k ∈ D, b ∉ sub k)
    (used : Kept U held b) : SamePage s.ram t.ram b := by
  refine done.progress.same aligned other ?_ ?_ <;> rw [mem_biUnion]
  · rintro ⟨k, inD, inSub⟩
    exact outside k inD inSub
  · rintro ⟨k, inD, inCopies⟩
    exact done.new k inD b inCopies used

/-- The pages of the copy are taken, and new but for the table. -/
lemma ClonedIn.pages_copy {b : Nat} (done : ClonedIn U held held' n src dst D sub copies s t)
    (kept : Kept U held dst) (mem : b ∈ pagesOf D dst copies) :
    Kept U held' b ∧ (b = dst ∨ ¬ Kept U held b) := by
  rcases mem_insert.mp mem with rfl | mem
  · exact ⟨kept.mono done.progress.grows, .inl rfl⟩
  · obtain ⟨i, inD, inCopies⟩ := mem_biUnion.mp mem
    exact ⟨done.kept i inD b inCopies, .inr (done.new i inD b inCopies)⟩

lemma touched_subset (D : Finset Nat) (src dst : Nat) (sub copies : Nat → Finset Nat) :
    insert dst (D.biUnion sub ∪ D.biUnion copies) ⊆ pagesOf D src sub ∪ pagesOf D dst copies := by
  intro b touched
  simp only [pagesOf, mem_union, mem_insert] at touched ⊢
  tauto

lemma ClonedIn.start (managed : Managed U s held) :
    ClonedIn U held held n src dst ∅ sub (fun _ => ∅) s s where
  progress := (Progress.refl managed).widen _ (empty_subset _)
  size := by simp
  entries i mem := absurd mem (notMem_empty i)
  new i mem := absurd mem (notMem_empty i)
  kept i mem := absurd mem (notMem_empty i)
  apart i mem := absurd mem (notMem_empty i)

structure Upper (U : Finset Nat) (held : List Block) (n src dst : Nat) (I : Finset Nat)
    (sub : Nat → Finset Nat) (s : Kmem) : Prop where
  node : Node n (Shape s.ram n) I s.ram src sub
  bound : I ⊆ tableSlots
  target : Target U held (pagesOf I src sub) dst

lemma EntryTwins.tablePage {pages copies : Finset Nat} {m m' : Store} {b : Nat}
    (twins : EntryTwins n src dst i pages copies m m') (mem : b ∈ copies) : TablePage b := by
  cases linked : links n (readEntry m src i) with
  | false =>
    rw [(twins.loose linked).2] at mem
    exact absurd mem (notMem_empty b)
  | true => exact (twins.linked linked).2.copy.tablePage mem

namespace Upper

variable (upper : Upper U held n src dst I sub s)
include upper

lemma sub_kept (mem : i ∈ I) {b : Nat} (inSub : b ∈ sub i) : Kept U held b :=
  upper.target.used b (sub_subset_pagesOf mem inSub)

lemma sub_page (mem : i ∈ I) {b : Nat} (inSub : b ∈ sub i) : TablePage b :=
  ShapeIn.tablePage ⟨sub, rfl, upper.node⟩ (sub_subset_pagesOf mem inSub)

lemma dst_notMem (mem : i ∈ I) : dst ∉ sub i := fun inSub =>
  upper.target.apart (sub_subset_pagesOf mem inSub)

variable {below : Nat → Nat → Kmem → Option (Bool × Kmem)}

section Step

variable (done : ClonedIn U held held' n src dst D sub copies s t) (within : D ⊆ I)
include done within

lemma source_same : SamePage s.ram t.ram src := by
  refine done.same upper.node.page.aligned ?_ (fun k inD => upper.node.self k (within inD))
    (upper.target.used src self_mem_pagesOf)
  rintro rfl
  exact upper.target.apart self_mem_pagesOf

lemma heldPages_lt : heldPages held' < heldPages held + (pagesOf I src sub).card := by
  rw [done.size, card_pagesOf upper.node]
  have part := sum_le_sum_of_subset (f := fun i => (sub i).card) within
  omega

variable (member : i ∈ I) (new : i ∉ D)
include member new

/-- Neither are the tables below the entries that are to be done. -/
lemma todo_same : ∀ b ∈ sub i, SamePage s.ram t.ram b := by
  intro b inSub
  refine done.same (upper.sub_page member inSub).aligned ?_ (fun k inD => ?_)
    (upper.sub_kept member inSub)
  · rintro rfl
    exact upper.dst_notMem member inSub
  · have different : i ≠ k := fun same => new (same ▸ inD)
    exact disjoint_left.mp (upper.node.apart i member k (within inD) different) inSub

lemma add {held'' : List Block} {C : Finset Nat} {t' : Kmem}
    (progress : Progress U held' held'' t t' (insert dst (sub i ∪ C)))
    (size : heldPages held'' = heldPages held' + (sub i).card)
    (others : ∀ k < 512, i ≠ k → readEntry t'.ram dst k = readEntry t.ram dst k)
    (twins : EntryTwins n src dst i (sub i) C s.ram t'.ram)
    (fresh : ∀ b ∈ C, ¬ Kept U held' b) (kept : ∀ b ∈ C, Kept U held'' b) :
    ClonedIn U held held'' n src dst (insert i D) sub (update copies i C) s t' := by
  have ne : ∀ k ∈ D, i ≠ k := fun k inD same => new (same ▸ inD)
  have sameCopies : D.biUnion (update copies i C) = D.biUnion copies :=
    biUnion_congr rfl fun k inD => update_of_ne (ne k inD).symm ..
  have oldSame : ∀ k ∈ D, Disjoint C (copies k) := fun k inD =>
    disjoint_left.mpr fun b inC inCopies => fresh b inC (done.kept k inD b inCopies)
  refine ⟨?_, ?_, ?_, ?_, ?_, ?_⟩
  · exact (done.progress.trans progress).widen
      (insert dst ((insert i D).biUnion sub ∪ (insert i D).biUnion (update copies i C))) (by
        rw [biUnion_insert, biUnion_insert, update_self, sameCopies]
        intro b inside
        simp only [mem_union, mem_insert] at inside ⊢
        tauto)
  · rw [size, done.size, sum_insert new]
    omega
  · refine forall_insert_update (fun k c => EntryTwins n src dst k (sub k) c s.ram t'.ram) new twins
      fun k inD => (done.entries k inD).later ?_ ?_ ?_
    · exact others k (mem_tableSlots.mp (upper.bound (within inD))) (ne k inD)
    · intro b inSub
      refine progress.same (upper.sub_page (within inD) inSub).aligned ?_ ?_ fun inC => ?_
      · rintro rfl
        exact upper.dst_notMem (within inD) inSub
      · exact disjoint_right.mp (upper.node.apart i member k (within inD) (ne k inD)) inSub
      · exact fresh b inC ((upper.sub_kept (within inD) inSub).mono done.progress.grows)
    · intro b inCopies
      have unused := done.new k inD b inCopies
      refine progress.same ((done.entries k inD).tablePage inCopies).aligned ?_
        (fun inSub => unused (upper.sub_kept member inSub))
        (disjoint_right.mp (oldSame k inD) inCopies)
      rintro rfl
      exact unused upper.target.kept
  · exact forall_insert_update (fun _ c => ∀ b ∈ c, ¬ Kept U held b) new
      (fun b inC used => fresh b inC (used.mono done.progress.grows)) done.new
  · exact forall_insert_update (fun _ c => ∀ b ∈ c, Kept U held'' b) new kept
      fun k inD b inCopies => (done.kept k inD b inCopies).mono progress.grows
  · refine forall_insert_update
      (fun k c => ∀ l ∈ insert i D, k ≠ l → Disjoint c (update copies i C l)) new ?_ fun k inD => ?_
    · exact forall_insert_update (fun l c => i ≠ l → Disjoint C c) new (absurd rfl)
        fun k inD _ => oldSame k inD
    · exact forall_insert_update (fun l c => k ≠ l → Disjoint (copies k) c) new
        (fun _ => (oldSame k inD).symm) (done.apart k inD)

lemma heldPages_add_le :
    heldPages held' + (sub i).card + 1 ≤ heldPages held + (pagesOf I src sub).card := by
  rw [done.size, card_pagesOf upper.node]
  have part := sum_le_sum_of_subset (f := fun i => (sub i).card) (insert_subset member within)
  rw [sum_insert new] at part
  omega

lemma cloneEntry_loose (loose : links n (readEntry s.ram src i) = false) :
    ∃ t', cloneEntry below (n == 0) src dst i t = some (true, t') ∧
      ClonedIn U held held' n src dst (insert i D) sub (update copies i ∅) s t' := by
  have inside := mem_tableSlots.mp (upper.bound member)
  have current : entry t src i = readEntry s.ram src i :=
    readEntry_congr (upper.source_same done within) inside
  have empty := upper.node.empty i member loose
  refine ⟨setEntry t dst i 0, ?_, upper.add done within member new ?_ ?_ ?_ ?_ ?_ ?_⟩
  · rw [cloneEntry, current]
    rw [links] at loose
    generalize readEntry s.ram src i = e at loose
    cases present : has e ptePresent with
    | false => rfl
    | true =>
      rw [present, Bool.true_and, Bool.not_eq_false'] at loose
      rw [loose]
      rfl
  · have written := Progress.setEntry (e := 0) done.progress.managed upper.target.page.aligned
      inside
    exact written.widen (insert dst (sub i ∪ ∅)) (by simp)
  · rw [empty, card_empty, add_zero]
  · exact fun k _ other => readEntry_writeEntry_other other
  · have zero : readEntry (setEntry t dst i 0).ram dst i = 0 := readEntry_writeEntry_same
    constructor
    · rw [zero]
      decide
    · intro _
      rw [zero]
      exact ⟨by decide, rfl⟩
    · intro linked
      rw [loose] at linked
      cases linked
  · exact fun b inside => absurd inside (notMem_empty b)
  · exact fun b inside => absurd inside (notMem_empty b)

structure Hooked (U : Finset Nat) (held : List Block) (dst i p : Nat) (pages : Finset Nat)
    (t t' : Kmem) : Prop where
  progress : Progress U held (⟨p, 0⟩ :: held) t t' {pfnToPhys p, dst}
  entry : readEntry t'.ram dst i = BitVec.ofNat 64 (pfnToPhys p) ||| pteStructFlags
  others : ∀ k < 512, i ≠ k → readEntry t'.ram dst k = readEntry t.ram dst k
  target : Target U (⟨p, 0⟩ :: held) pages (pfnToPhys p)
  fresh : ¬ Kept U held (pfnToPhys p)
  kept : ∀ b ∈ pages, SamePage t.ram t'.ram b

omit within new in
lemma hook {p : Nat} {t₁ : Kmem} (fresh : FreshPage U held' t p t₁) :
    Hooked U held' dst i p (sub i) t
      (setEntry t₁ dst i (BitVec.ofNat 64 (pfnToPhys p) ||| pteStructFlags)) := by
  have inside := mem_tableSlots.mp (upper.bound member)
  have dstKept := upper.target.kept.mono done.progress.grows
  have dstOther : dst ≠ pfnToPhys p := by
    rintro rfl
    exact fresh.not_kept dstKept
  have written := Progress.setEntry (e := BitVec.ofNat 64 (pfnToPhys p) ||| pteStructFlags)
    fresh.managed upper.target.page.aligned inside
  have both := (Progress.fresh fresh).trans written
  have usedKept := fun b inSub => (upper.sub_kept (i := i) member (b := b) inSub).mono
    done.progress.grows
  have target := fresh.target usedKept
  refine ⟨both, readEntry_writeEntry_same, ?_, target, fresh.not_kept, ?_⟩
  · intro k small other
    exact (readEntry_writeEntry_other other).trans
      (readEntry_congr (fresh.other dst upper.target.page.aligned dstOther) small)
  intro b inSub
  apply both.ram b (upper.sub_page member inSub).aligned
  intro touched
  rcases mem_union.mp touched with touched | touched
  · exact target.apart (Finset.mem_singleton.mp touched ▸ inSub)
  · exact upper.dst_notMem member (Finset.mem_singleton.mp touched ▸ inSub)

/-- The tables below the hooked one are cloned, so the entry is done. -/
lemma add_below {held'' : List Block} {C : Finset Nat} {p : Nat} {t₂ t' : Kmem}
    (linked : links n (readEntry s.ram src i) = true)
    (hooked : Hooked U held' dst i p (sub i) t t₂)
    (below : Cloned U (⟨p, 0⟩ :: held') held'' n (pteAddr (readEntry s.ram src i)) (pfnToPhys p)
      (sub i) C t₂ t') :
    ClonedIn U held held'' n src dst (insert i D) sub (update copies i C) s t' := by
  have inside := mem_tableSlots.mp (upper.bound member)
  have child := upper.node.child i member linked
  have samePages : ∀ b ∈ sub i, SamePage s.ram t₂.ram b := fun b inSub =>
    (upper.todo_same done within member new b inSub).trans (hooked.kept b inSub)
  have rootIn := below.twins.copy.root_mem
  have dstKept := upper.target.kept.mono done.progress.grows
  have freshC : ∀ b ∈ C, ¬ Kept U held' b := by
    intro b inC kept
    rcases below.new b inC with rfl | unused
    · exact hooked.fresh kept
    · exact unused (kept.mono (subset_cons_self _ _))
  have dstSame : SamePage t₂.ram t'.ram dst := by
    apply below.progress.ram dst upper.target.page.aligned
    intro touched
    rcases mem_union.mp touched with touched | touched
    · exact upper.dst_notMem member touched
    · exact freshC dst touched dstKept
  have entryIs : readEntry t'.ram dst i = BitVec.ofNat 64 (pfnToPhys p) ||| pteStructFlags :=
    (readEntry_congr dstSame inside).trans hooked.entry
  obtain ⟨isPresent, isSmall, address⟩ := tableEntry pteStructFlags
    hooked.target.page.aligned hooked.target.page.reachable (by decide) (by decide) (by decide)
  apply upper.add done within member new
  · exact (hooked.progress.trans below.progress).widen
      (insert dst (sub i ∪ C)) (by
        intro b touched
        simp only [Finset.mem_union, Finset.mem_insert, Finset.mem_singleton] at touched ⊢
        rcases touched with (rfl | rfl) | inSub | inC
        · exact .inr (.inr rootIn)
        · exact .inl rfl
        · exact .inr (.inl inSub)
        · exact .inr (.inr inC))
  · have size := below.size
    rw [heldPages_page] at size
    omega
  · intro k small other
    exact (readEntry_congr dstSame small).trans (hooked.others k small other)
  · constructor
    · rw [entryIs, has_user, BitVec.getLsbD_or,
        getLsbD_page hooked.target.page.aligned (by decide)]
      decide
    · intro loose
      rw [linked] at loose
      cases loose
    · intro _
      rw [entryIs, address, links, isPresent, isSmall, Bool.and_false]
      exact ⟨rfl, below.twins.earlier child samePages⟩
  · exact freshC
  · exact below.kept

/-- Below an entry that leads to a table the tables are cloned, or the pages run out. -/
lemma cloneEntry_linked (clones : ClonesBelow n below)
    (linked : links n (readEntry s.ram src i) = true) :
    (∃ t' held'' C, cloneEntry below (n == 0) src dst i t = some (true, t') ∧
      ClonedIn U held held'' n src dst (insert i D) sub (update copies i C) s t') ∨
    (∃ t', cloneEntry below (n == 0) src dst i t = some (false, t') ∧
      U.card < heldPages held + (pagesOf I src sub).card) := by
  have inside := mem_tableSlots.mp (upper.bound member)
  have current : entry t src i = readEntry s.ram src i :=
    readEntry_congr (upper.source_same done within) inside
  obtain ⟨present, small⟩ : has (readEntry s.ram src i) ptePresent = true ∧
      (n == 0 && has (readEntry s.ram src i) ptePs) = false := by
    rwa [links, Bool.and_eq_true, Bool.not_eq_true'] at linked
  have child := upper.node.child i member linked
  rcases allocTablePage_spec done.progress.managed with ⟨p, t₁, call, fresh⟩ | ⟨failed, full⟩
  · have hooked := upper.hook done member fresh
    have run : cloneEntry below (n == 0) src dst i t = below (pteAddr (readEntry s.ram src i))
        (pfnToPhys p) (setEntry t₁ dst i (BitVec.ofNat 64 (pfnToPhys p) ||| pteStructFlags)) := by
      have reach₁ := not_le.mpr child.rootPage.reachable
      have reach₂ := not_le.mpr hooked.target.page.reachable
      simp only [cloneEntry, current, present, small, call]
      simp [physToVirt, reach₁, reach₂]
    rw [run]
    have shape := child.congr fun b inSub =>
      (upper.todo_same done within member new b inSub).trans (hooked.kept b inSub)
    rcases clones U _ _ _ _ _ hooked.progress.managed shape hooked.target with
      ⟨t', held'', C, below, cloned⟩ | ⟨t', below, full⟩
    · exact .inl ⟨t', held'', C, below, upper.add_below done within member new linked hooked cloned⟩
    · refine .inr ⟨t', below, Nat.lt_of_lt_of_le full ?_⟩
      have room := upper.heldPages_add_le done within member new
      rw [heldPages_page]
      omega
  · refine .inr ⟨t, ?_, full.trans_lt (upper.heldPages_lt done within)⟩
    simp only [cloneEntry, current, present, small, failed]
    rfl

end Step

lemma loop {ls : List Nat}
    (clones : ClonesBelow n below) (managed : Managed U s held) (nodup : ls.Nodup)
    (all : ls.toFinset = I) :
    (∃ t held' copies, loopOrFail (cloneEntry below (n == 0) src dst) ls s = some (true, t) ∧
      ClonedIn U held held' n src dst I sub copies s t) ∨
    (∃ t, loopOrFail (cloneEntry below (n == 0) src dst) ls s = some (false, t) ∧
      U.card < heldPages held + (pagesOf I src sub).card) := by
  have rule := loopOrFail_rule (cloneEntry below (n == 0) src dst)
    (fun D t => D ⊆ I ∧ ∃ held' copies, ClonedIn U held held' n src dst D sub copies s t)
    (U.card < heldPages held + (pagesOf I src sub).card) ls nodup (by
      rintro i inLs D t new ⟨within, held', copies, done⟩
      have mem : i ∈ I := all ▸ mem_toFinset.mpr inLs
      have within' := insert_subset mem within
      cases linked : links n (readEntry s.ram src i) with
      | false =>
        obtain ⟨t', call, done'⟩ := upper.cloneEntry_loose done within mem new linked
        exact .inl ⟨t', call, within', held', _, done'⟩
      | true =>
        rcases upper.cloneEntry_linked done within mem new clones linked with
          ⟨t', held'', C, call, done'⟩ | failed
        · exact .inl ⟨t', call, within', held'', _, done'⟩
        · exact .inr failed)
    (fun i _ => notMem_empty i)
    ⟨empty_subset I, held, fun _ => ∅, ClonedIn.start managed⟩
  rw [empty_union, all] at rule
  rcases rule with ⟨t, call, -, held', copies, done⟩ | failed
  · exact .inl ⟨t, held', copies, call, done⟩
  · exact .inr failed

end Upper

/-! ## The whole table -/

/-- `Twins` for the entries `I` of two topmost tables. -/
structure RootTwins (I : Finset Nat) (n src dst : Nat) (pages copies : Finset Nat)
    (m m' : Store) : Prop where
  source : ShapeIn I m' n src pages
  copy : ShapeIn I m' n dst copies
  sourceLeaf : ∀ x, pageIdx (n + 1) x ∈ I →
    leaf m' (n + 1) src x = (leaf m (n + 1) src x).map cowEntry
  copyLeaf : ∀ x, pageIdx (n + 1) x ∈ I →
    leaf m' (n + 1) dst x = (leaf m (n + 1) src x).map cowEntry
  sourceLarge : ∀ x, pageIdx (n + 1) x ∈ I → large m' (n + 1) src x = large m (n + 1) src x
  copyLarge : ∀ x, pageIdx (n + 1) x ∈ I → large m' (n + 1) dst x = none
  closed : ∀ i ∈ I, has (readEntry m' dst i) pteUser = false

lemma Upper.finish (upper : Upper U held n src dst I sub s)
    (done : ClonedIn U held held' n src dst I sub copies s t) :
    RootTwins I n src dst (pagesOf I src sub) (pagesOf I dst copies) s.ram t.ram := by
  have same := upper.source_same done (Subset.refl I)
  have srcEntry := fun i (mem : i ∈ I) =>
    readEntry_congr same (mem_tableSlots.mp (upper.bound mem))
  have dstLinks : ∀ i ∈ I, links n (readEntry t.ram dst i) = links n (readEntry s.ram src i) := by
    intro i mem
    cases linked : links n (readEntry s.ram src i) with
    | false =>
      rw [links, ((done.entries i mem).loose linked).1]
      rfl
    | true => exact ((done.entries i mem).linked linked).1
  refine ⟨⟨sub, rfl, ?_⟩, ⟨copies, rfl, ?_⟩, ?_, ?_, ?_, ?_,
    fun i mem => (done.entries i mem).closed⟩
  · refine ⟨upper.node.page, upper.node.self, upper.node.apart, ?_, ?_⟩
    · intro i mem
      rw [srcEntry i mem]
      exact upper.node.empty i mem
    · intro i mem
      rw [srcEntry i mem]
      exact fun linked => ((done.entries i mem).linked linked).2.source
  · refine ⟨upper.target.page, ?_, done.apart, ?_, ?_⟩
    · exact fun i mem inCopies => done.new i mem dst inCopies upper.target.kept
    · intro i mem
      rw [dstLinks i mem]
      exact fun loose => ((done.entries i mem).loose loose).2
    · intro i mem
      rw [dstLinks i mem]
      exact fun linked => ((done.entries i mem).linked linked).2.copy
  · intro x mem
    rw [leaf_succ, leaf_succ, srcEntry _ mem]
    split
    · next linked => exact ((done.entries _ mem).linked linked).2.sourceLeaf x
    · rfl
  · intro x mem
    rw [leaf_succ, leaf_succ, dstLinks _ mem]
    split
    · next linked => exact ((done.entries _ mem).linked linked).2.copyLeaf x
    · rfl
  · intro x mem
    rw [large_succ, large_succ, srcEntry _ mem]
    split
    · next linked => exact ((done.entries _ mem).linked linked).2.sourceLarge x
    · rfl
  · intro x mem
    rw [large_succ, dstLinks _ mem]
    split
    · next linked => exact ((done.entries _ mem).linked linked).2.copyLarge x
    · next loose =>
        exact leafEntry_of_absent ((done.entries _ mem).loose (Bool.eq_false_iff.mpr loose)).1

end Entries

lemma range_toFinset : (List.range 512).toFinset = tableSlots := by
  rw [tableSlots, toFinset_range]

lemma clonesBelow_zero : ClonesBelow 0 (cloneBelow 0) := by
  intro U held s src dst pages managed shape target
  obtain ⟨page, rfl⟩ := shape
  have other : src ≠ dst := by
    rintro rfl
    exact target.apart (Finset.mem_singleton_self src)
  have done := LeavesDone.foldl managed page target.page other (Nat.le_refl 512)
  have run : cloneBelow 0 src dst s =
      some (true, (List.range 512).foldl (cloneLeaf src dst) s) := by
    rw [cloneBelow]
  rw [← tableSlots] at done
  generalize (List.range 512).foldl (cloneLeaf src dst) s = t at done run
  have mem := fun x => mem_tableSlots.mpr (pageIdx_lt 0 x)
  refine .inl ⟨t, held, {dst}, run, done.progress, ?_, ?_, ?_, ?_⟩
  · rw [card_singleton]
  · refine ⟨⟨page, rfl⟩, ⟨target.page, rfl⟩, fun x => ?_, fun x => ?_, fun x => ?_,
      fun x => large_zero⟩
    · rw [leaf_zero, leaf_zero, done.source _ (mem x)]
    · rw [leaf_zero, leaf_zero, done.copy _ (mem x)]
    · rw [large_zero, large_zero]
  · exact fun b inside => .inl (Finset.mem_singleton.mp inside)
  · intro b inside
    rw [Finset.mem_singleton.mp inside]
    exact target.kept

lemma clonesBelow_succ {n : Nat} (below : ClonesBelow n (cloneBelow n)) :
    ClonesBelow (n + 1) (cloneBelow (n + 1)) := by
  intro U held s src dst pages managed shape target
  obtain ⟨sub, rfl, node⟩ := shape
  have upper : Upper U held n src dst tableSlots sub s := ⟨node, Subset.refl _, target⟩
  rcases upper.loop below managed nodup_range range_toFinset with
    ⟨t, held', copies, call, done⟩ | failed
  · have twins := upper.finish done
    refine .inl ⟨t, held', pagesOf tableSlots dst copies, call, ?_, ?_, ?_, ?_, ?_⟩
    · exact done.progress.widen _ (touched_subset _ src dst sub copies)
    · have size := done.size
      have card := card_pagesOf node
      omega
    · have mem := fun x => mem_tableSlots.mpr (pageIdx_lt (n + 1) x)
      exact ⟨twins.source, twins.copy, fun x => twins.sourceLeaf x (mem x),
        fun x => twins.copyLeaf x (mem x), fun x => twins.sourceLarge x (mem x),
        fun x => twins.copyLarge x (mem x)⟩
    · exact fun b inside => (done.pages_copy target.kept inside).2
    · exact fun b inside => (done.pages_copy target.kept inside).1
  · exact .inr failed

lemma clonesBelow (n : Nat) : ClonesBelow n (cloneBelow n) := by
  induction n with
  | zero => exact clonesBelow_zero
  | succ n ih => exact clonesBelow_succ ih

/-! ## The PML4 -/

lemma range'_toFinset : (range' 1 255).toFinset = userSlots := by
  rw [userSlots, toFinset_range'_1]

structure Forked (U : Finset Nat) (held held' : List Block) (src dst : Nat)
    (pages copies : Finset Nat) (s t : Kmem) : Prop where
  progress : Progress U held held' s t (pages ∪ copies)
  twins : RootTwins userSlots 2 src dst pages copies s.ram t.ram
  size : heldPages held' = heldPages held + pages.card
  new : ∀ b ∈ copies, ¬ Kept U held b
  kept : ∀ b ∈ copies, Kept U held' b

section Root

variable {U pages : Finset Nat} {held : List Block} {src dst : Nat} {s : Kmem}

lemma Progress.copyEntries (src : Nat) (ls : List Nat) (managed : Managed U s held)
    (aligned : pageSize ∣ dst) (inside : ∀ i ∈ ls, i < 512) : Progress U held held s
      (ls.foldl (fun s i => PageTable.setEntry s dst i (entry s src i)) s) {dst} := by
  induction ls generalizing s with
  | nil => exact (Progress.refl managed).widen _ (empty_subset _)
  | cons i ls ih =>
    have first := Progress.setEntry (e := entry s src i) managed aligned
      (inside i (mem_cons_self ..))
    have rest := ih first.managed fun k mem => inside k (mem_cons_of_mem _ mem)
    exact (first.trans rest).widen _ (by simp)

/-- From the memory in which the new PML4 is set up the clone of the user half is a fork. -/
lemma Forked.of_clonedIn {p : Nat} {held' : List Block} {s₁ t : Kmem}
    {sub copies : Nat → Finset Nat}
    (setup : Progress U held (⟨p, 0⟩ :: held) s s₁ {pfnToPhys p})
    (fresh : ¬ Kept U held (pfnToPhys p))
    (shape : ShapeIn userSlots s.ram 2 src (pagesOf userSlots src sub))
    (same : ∀ b ∈ pagesOf userSlots src sub, SamePage s.ram s₁.ram b)
    (upper : Upper U (⟨p, 0⟩ :: held) 2 src (pfnToPhys p) userSlots sub s₁)
    (done : ClonedIn U (⟨p, 0⟩ :: held) held' 2 src (pfnToPhys p) userSlots sub copies s₁ t) :
    Forked U held held' src (pfnToPhys p) (pagesOf userSlots src sub)
      (pagesOf userSlots (pfnToPhys p) copies) s t := by
  have twins := upper.finish done
  have leaves := fun x (inside : pageIdx 3 x ∈ userSlots) => shape.leaf_congr same inside
  refine ⟨?_, ⟨twins.source, twins.copy, ?_, ?_, ?_, twins.copyLarge, twins.closed⟩, ?_, ?_, ?_⟩
  · exact (setup.trans done.progress).widen (pagesOf userSlots src sub ∪
      pagesOf userSlots (pfnToPhys p) copies) (by
        refine union_subset ?_ (touched_subset _ src _ sub copies)
        exact singleton_subset_iff.mpr (mem_union_right _ self_mem_pagesOf))
  · intro x inside
    rw [twins.sourceLeaf x inside, leaves x inside]
  · intro x inside
    rw [twins.copyLeaf x inside, leaves x inside]
  · intro x inside
    rw [twins.sourceLarge x inside]
    exact large_kept (shape.look_congr same inside)
  · have size := done.size
    have card := card_pagesOf upper.node
    rw [heldPages_page] at size
    omega
  · intro b mem kept
    rcases (done.pages_copy upper.target.kept mem).2 with rfl | unused
    · exact fresh kept
    · exact unused (kept.mono (subset_cons_self _ _))
  · exact fun b mem => (done.pages_copy upper.target.kept mem).1

/-- `clone_current_pml4` makes a fork of the user half, or the pages run out and it
returns the address of the kernel's table. -/
lemma cloneCurrentPml4_spec (kernelCr3 : Nat) (managed : Managed U s held)
    (shape : ShapeIn userSlots s.ram 2 src pages) (used : ∀ b ∈ pages, Kept U held b) :
    (∃ dst t held' copies, cloneCurrentPml4 s kernelCr3 src = some (dst, t) ∧
      Forked U held held' src dst pages copies s t) ∨
    (U.card ≤ heldPages held + pages.card ∧
      ∀ dst t, cloneCurrentPml4 s kernelCr3 src = some (dst, t) → dst = kernelCr3) := by
  have reach : physToVirt src = some src := if_neg (not_le.mpr shape.rootPage.reachable)
  rcases allocPage_spec managed with ⟨p, s₀, call, fresh⟩ | ⟨failed, full⟩
  · have target := fresh.target used
    have page := target.page
    have half := Progress.copyEntries src (range' 256 256) fresh.managed page.aligned
      (by
        intro i mem
        have := mem_range'_1.mp mem
        omega)
    have zero := fun e => Progress.setEntry (e := e) half.managed page.aligned (by decide : 0 < 512)
    have setup := fun e => (((Progress.fresh fresh).trans half).trans (zero e)).widen
      {pfnToPhys p} (by simp)
    -- the new PML4 with the kernel half and entry 0, before the loop
    generalize start : (range' 256 256).foldl
      (fun s i => setEntry s (pfnToPhys p) i (entry s src i)) s₀ = s₁ at setup
    generalize started : setEntry s₁ (pfnToPhys p) 0 (entry s₁ src 0) = s₂
    have setup := setup (entry s₁ src 0)
    rw [started] at setup
    obtain ⟨sub, rfl, node⟩ := shape
    have same : ∀ b ∈ pagesOf userSlots src sub, SamePage s.ram s₂.ram b := by
      intro b mem
      apply setup.ram b (ShapeIn.tablePage ⟨sub, rfl, node⟩ mem).aligned
      intro touched
      exact target.apart (Finset.mem_singleton.mp touched ▸ mem)
    have upper : Upper U (⟨p, 0⟩ :: held) 2 src (pfnToPhys p) userSlots sub s₂ := by
      refine ⟨?_, userSlots_subset, target⟩
      apply node.congr userSlots_subset (same src self_mem_pagesOf)
      exact fun i mem below => below.congr fun d inSub => same d (sub_subset_pagesOf mem inSub)
    rcases upper.loop (clonesBelow 2) setup.managed nodup_range' range'_toFinset with
      ⟨t, held', copies, loop, done⟩ | ⟨t, loop, full⟩
    · refine .inl ⟨pfnToPhys p, t, held', pagesOf userSlots (pfnToPhys p) copies, ?_, ?_⟩
      · rw [cloneCurrentPml4, call]
        simp only [bind_eq_bind, bind_some, reach, start, started]
        exact congrArg (bind · _) loop
      · exact Forked.of_clonedIn setup fresh.not_kept ⟨sub, rfl, node⟩ same upper done
    · refine .inr ⟨?_, ?_⟩
      · rw [heldPages_page] at full
        omega
      intro dst t' result
      rw [cloneCurrentPml4, call] at result
      simp only [bind_eq_bind, bind_some, reach, start, started] at result
      have loop' : loopOrFail (cloneEntry (cloneBelow 2) false src (pfnToPhys p))
          (range' 1 255) s₂ = some (false, t) := loop
      rw [loop', bind_some] at result
      obtain ⟨released, -, same⟩ := bind_eq_some_iff.mp result
      exact (Prod.mk.inj (some.inj same)).1.symm
  · refine .inr ⟨full.trans (Nat.le_add_right _ _), ?_⟩
    intro dst t result
    rw [cloneCurrentPml4, failed] at result
    have pair := some.inj result
    exact (Prod.mk.inj pair).1.symm

end Root

end AuroraOS.PageTable
