import AuroraOS.PageTable.Access
import AuroraOS.PageTable.CloneTree

/-!
# A fork and its child

After `clone_current_pml4` parent and child share their frames read-only (`Shared`).  But the
entries of the upper tables of the copy lack `PTE_USER`, so the child can use no page of the parent
in user mode: it is isolated from the parent exactly if there was nothing to share.
-/

namespace AuroraOS.PageTable

open Lib Mem Function List Option Finset Nat

/-! ## Address spaces -/

/-- The addresses of the slots 1 to 255 of the PML4. -/
def UserAddr (vaddr : Nat) : Prop := 2 ^ 39 ≤ vaddr ∧ vaddr < 2 ^ 47

variable {vaddr p : Nat}

lemma UserAddr.mem_userSlots (user : UserAddr vaddr) :
    pageIdx 3 (vaddr / pageSize) ∈ userSlots := by
  rw [PageTable.mem_userSlots, pageIdx, pageSize]
  obtain ⟨low, high⟩ := user
  omega

/-- The user half of an address space in memory that the page allocator manages.  Its tables and
frames are in use, no table is mapped, and what is mapped is open to user mode, as `map_user_page`
makes it. -/
structure AddressSpace (U : Finset Nat) (held : List Block) (s : Kmem) (cr3 : Nat)
    (pages : Finset Nat) : Prop where
  managed : Managed U s held
  tables : ShapeIn userSlots s.ram 2 cr3 pages
  used : ∀ b ∈ pages, Kept U held b
  frames : ∀ x e, pageIdx 3 x ∈ userSlots → leaf s.ram 3 cr3 x = some e →
    pteAddr e ∉ pages ∧ Kept U held (pteAddr e)
  user : ∀ vaddr, UserAddr vaddr → translate s cr3 vaddr ≠ none →
    granted pteUser s 3 cr3 vaddr = true

inductive Proc
  | parent
  | child
deriving DecidableEq, Repr

def rootsOf (parent child : Nat) : Proc → Nat
  | .parent => parent
  | .child => child

/-- Both processes have the leaves of the parent, none of them writable, and each frame has the
bytes it had. -/
structure Shared (s t : Kmem) (cr3 child : Nat) : Prop where
  leaves : ∀ c x, pageIdx 3 x ∈ userSlots →
    leaf t.ram 3 (rootsOf cr3 child c) x = (leaf s.ram 3 cr3 x).map cowEntry
  contents : ∀ x e, pageIdx 3 x ∈ userSlots → leaf s.ram 3 cr3 x = some e →
    SamePage s.ram t.ram (pteAddr e)

section Fork

variable {U pages copies : Finset Nat} {held held' : List Block} {s t : Kmem} {cr3 child : Nat}

variable (forked : Forked U held held' cr3 child pages copies s t)
include forked

variable {x : Nat} {e : Entry}

lemma Forked.root_ne {a : Nat} (kept : Kept U held a) : child ≠ a := by
  rintro rfl
  obtain ⟨sub, rfl, -⟩ := forked.twins.copy
  exact forked.new child self_mem_pagesOf kept

/-- The topmost table of the child closes the user half to user mode. -/
lemma Forked.child_closed (user : UserAddr vaddr) : granted pteUser t 3 child vaddr = false := by
  have closed := forked.twins.closed _ user.mem_userSlots
  rw [granted, entry, tableIdx_eq]
  simp only [closed, Bool.false_and]

lemma Forked.translate_none (user : UserAddr vaddr)
    (shape : ShapeIn userSlots s.ram 2 cr3 pages) (unmapped : translate s cr3 vaddr = none)
    (c : Proc) : translate t (rootsOf cr3 child c) vaddr = none := by
  have within := user.mem_userSlots
  obtain ⟨noLeaf, noLarge⟩ := (shape.translate_eq_none within).mp unmapped
  cases c with
  | parent =>
    refine (forked.twins.source.translate_eq_none within).mpr ⟨?_, ?_⟩
    · rw [forked.twins.sourceLeaf _ within, noLeaf, map_none]
    · rw [forked.twins.sourceLarge _ within, noLarge]
  | child =>
    refine (forked.twins.copy.translate_eq_none within).mpr ⟨?_, ?_⟩
    · rw [forked.twins.copyLeaf _ within, noLeaf, map_none]
    · exact forked.twins.copyLarge _ within

variable (space : AddressSpace U held s cr3 pages)
include space

lemma Forked.shared : Shared s t cr3 child where
  leaves c x within := by
    cases c with
    | parent => exact forked.twins.sourceLeaf x within
    | child => exact forked.twins.copyLeaf x within
  contents x e within leafIs := by
    obtain ⟨outside, kept⟩ := space.frames x e within leafIs
    apply forked.progress.ram (pteAddr e) (pteAddr_aligned e)
    rw [mem_union, not_or]
    exact ⟨outside, fun inCopies => forked.new _ inCopies kept⟩

end Fork

/-! ## Runs -/

/-- A sequence of stores by both processes to addresses of the slots 1 to 255, all of which end. -/
inductive Stores (smap : Bool) (roots : Proc → Nat) :
    Kmem → List (Proc × Nat × UInt8) → Kmem → Prop
  | nil (s : Kmem) : Stores smap roots s [] s
  | snoc {s t t' : Kmem} {ops : List (Proc × Nat × UInt8)} {c : Proc} {vaddr fuel : Nat}
      {byte : UInt8} (run : Stores smap roots s ops t) (user : UserAddr vaddr)
      (store : userStore smap (roots c) vaddr byte fuel t = some (.resolved, t')) :
      Stores smap roots s (ops ++ [(c, vaddr, byte)]) t'

/-- What a process held at the start, overlaid with its own stores. -/
def overlaid (c : Proc) (ops : List (Proc × Nat × UInt8)) (start : Nat → Option UInt8) :
    Nat → Option UInt8 :=
  ops.foldl (fun view op =>
    if op.1 = c then update view op.2.1 (some op.2.2) else view) start

/-- Over every sequence of stores each process reads what the parent held at the fork, overlaid with
its own stores. -/
def Isolated (smap : Bool) (s t : Kmem) (cr3 child : Nat) : Prop :=
  ∀ ops t', Stores smap (rootsOf cr3 child) t ops t' → ∀ c vaddr, UserAddr vaddr →
    userRead t' (rootsOf cr3 child c) vaddr = overlaid c ops (userRead s cr3) vaddr

lemma userStore_none {s : Kmem} {cr3 : Nat} (smap : Bool) (byte : UInt8) (fuel : Nat)
    (unmapped : translate s cr3 vaddr = none) : userStore smap cr3 vaddr byte fuel s = none := by
  cases fuel with
  | zero => rfl
  | succ fuel =>
    rw [userStore, unmapped]
    rfl

lemma userRead_none {s : Kmem} {cr3 : Nat} (unmapped : translate s cr3 vaddr = none) :
    userRead s cr3 vaddr = none := by
  rw [userRead, unmapped, map_none, ite_self]

/-- No store ends where nothing is mapped. -/
lemma Stores.eq_nil {smap : Bool} {roots : Proc → Nat} {s t : Kmem}
    {ops : List (Proc × Nat × UInt8)} (run : Stores smap roots s ops t)
    (unmapped : ∀ c vaddr, UserAddr vaddr → translate s (roots c) vaddr = none) :
    ops = [] ∧ t = s := by
  induction run with
  | nil => exact ⟨rfl, rfl⟩
  | snoc _ user store ih =>
    rw [ih.2, userStore_none _ _ _ (unmapped _ _ user)] at store
    cases store

/-- A fork shares the frames of the parent, but parent and child are isolated exactly if the parent
maps nothing in the slots 1 to 255: the child can read none of the pages it shares. -/
theorem clone_isolated_iff {U pages : Finset Nat} {held : List Block} {s t : Kmem}
    {kernelCr3 cr3 child : Nat} (space : AddressSpace U held s cr3 pages)
    (clone : cloneCurrentPml4 s kernelCr3 cr3 = some (child, t)) (success : child ≠ kernelCr3)
    (smap : Bool) : Shared s t cr3 child ∧
      (Isolated smap s t cr3 child ↔ ∀ vaddr, UserAddr vaddr → translate s cr3 vaddr = none) := by
  rcases cloneCurrentPml4_spec kernelCr3 space.managed space.tables space.used with
    ⟨dst, t₀, held', copies, call, forked⟩ | ⟨-, failed⟩
  · obtain ⟨rfl, rfl⟩ := Prod.mk.inj (some.inj (call.symm.trans clone))
    refine ⟨forked.shared space, ?_, ?_⟩
    · intro isolated vaddr user
      by_contra mapped
      have reads := isolated [] _ (.nil _) .child vaddr user
      have closed : userRead t₀ dst vaddr = none := by
        rw [userRead, forked.child_closed user]
        rfl
      have held : userRead s cr3 vaddr ≠ none := by
        rw [userRead, if_pos (space.user vaddr user mapped)]
        simpa using mapped
      exact held (reads.symm.trans closed)
    · intro unmapped ops t' run c vaddr user
      have nothing := fun d va userVa =>
        forked.translate_none userVa space.tables (unmapped va userVa) d
      obtain ⟨rfl, rfl⟩ := run.eq_nil nothing
      rw [userRead_none (nothing c vaddr user)]
      exact (userRead_none (unmapped vaddr user)).symm
  · exact absurd (failed child t clone) success

/-! ## A small parent

Its tables stand on the pages 0 to 3 of the allocator, if slot 1 of its PML4 leads to them. -/

def OneEntry (m : Store) (a k : Nat) (e : Entry) : Prop :=
  ∀ i < 512, readEntry m a i = if i = k then e else 0

section OneEntry

variable {m : Store} {n a b k x : Nat} {e : Entry} {pages I : Finset Nat}

variable (one : OneEntry m a k e)
include one

lemma OneEntry.shapeIn (page : TablePage a) (bound : I ⊆ tableSlots)
    (mem : k ∈ I) (below : if links n e then Shape m n (pteAddr e) pages else pages = ∅)
    (apart : a ∉ pages) : ShapeIn I m n a (insert a pages) := by
  have entries : ∀ i ∈ I, readEntry m a i = if i = k then e else 0 := fun i inI =>
    one i (mem_tableSlots.mp (bound inI))
  have only : ∀ i ∈ I, links n (readEntry m a i) = true → i = k := by
    intro i inI linked
    by_contra other
    rw [entries i inI, if_neg other, links_zero] at linked
    cases linked
  refine ⟨fun i => if i = k then pages else ∅, ?_, page, ?_, ?_, ?_, ?_⟩
  · congr 1
    ext b
    rw [mem_biUnion]
    constructor
    · exact fun inPages => ⟨k, mem, by rwa [if_pos rfl]⟩
    · rintro ⟨i, -, inSub⟩
      split at inSub
      · exact inSub
      · exact absurd inSub (notMem_empty b)
  · intro i _
    split
    · exact apart
    · exact notMem_empty a
  · intro i _ j _ different
    by_cases first : i = k
    · have second : j ≠ k := fun second => different (first.trans second.symm)
      rw [if_neg second]
      exact disjoint_empty_right _
    · rw [if_neg first]
      exact disjoint_empty_left _
  · intro i inI loose
    split
    · next same =>
        rw [entries i inI, if_pos same] at loose
        rwa [loose] at below
    · rfl
  · intro i inI linked
    obtain rfl := only i inI linked
    rw [entries i inI, if_pos rfl] at linked ⊢
    rw [linked] at below
    simpa using below

lemma OneEntry.look_eq (linked : links n e = true) : look m (n + 1) a x =
    if pageIdx (n + 1) x = k then look m n (pteAddr e) x else .missing := by
  rw [look, one _ (pageIdx_lt _ _)]
  by_cases same : pageIdx (n + 1) x = k
  · simp only [if_pos same, if_pos linked]
  · simp only [if_neg same, links_zero]
    rfl

omit one in
lemma OneEntry.granted {s : Kmem} {flag : Entry} (one : OneEntry s.ram a k e)
    (here : pageIdx (n + 1) (vaddr / pageSize) = k) (set : has e flag = true)
    (below : PageTable.granted flag s n (pteAddr e) vaddr = true) :
    PageTable.granted flag s (n + 1) a vaddr = true := by
  have inside : k < 512 := here ▸ pageIdx_lt _ _
  have current : entry s a (tableIdx (n + 1) vaddr) = e := by
    rw [entry, tableIdx_eq, here, one k inside, if_pos rfl]
  rw [PageTable.granted, current]
  simp only [set, below, Bool.or_true, Bool.and_true]

end OneEntry

lemma readEntry_zero (a i : Nat) : readEntry (fun _ => 0) a i = 0 := by
  simp [readEntry, leRead]

def userTable (a : Nat) : Entry := BitVec.ofNat 64 a ||| (pteStructFlags ||| pteUser)

def userPage (a : Nat) : Entry := BitVec.ofNat 64 a ||| (ptePresent ||| pteRw ||| pteUser)

/-- Four tables, with the entry `top` in the PML4; the page 4 starts with the byte `0x5A`. -/
def sampleRam (top : Entry) : Store :=
  let m := writeEntry (fun _ => 0) (pfnToPhys 0) 1 top
  let m := writeEntry m (pfnToPhys 1) 0 (userTable (pfnToPhys 2))
  let m := writeEntry m (pfnToPhys 2) 0 (userTable (pfnToPhys 3))
  let m := writeEntry m (pfnToPhys 3) 0 (userPage (pfnToPhys 4))
  update m (pfnToPhys 4) 0x5A

/-- The pages 0 to 7 are handed out, the pages 8 to 15 are free.  The page 4 has a reference. -/
def sample (top : Entry) : Kmem where
  pages p :=
    if p = 8 then { flags := pageFlagFree, order := 3, physAddr := pfnToPhys 8 }
    else if p = 4 then { refCount := 1 } else {}
  freeArea k := if k = 3 then some 8 else none
  totalPhysPages := 1024
  ram := sampleRam top

lemma sample_managed (top : Entry) : Managed (range 16) (sample top) [⟨0, 3⟩] := by
  refine ⟨fun k => if k = 3 then [8] else [], ?_, ?_, ?_, ?_, ?_, ?_, ?_⟩
  · intro k _
    by_cases three : k = 3
    · subst three
      exact ⟨rfl, rfl⟩
    · rw [if_neg three]
      exact if_neg three
  · have blocks : gather (maxOrder + 1) (fun k => if k = 3 then [8] else []) ++ [⟨0, 3⟩] =
        [⟨8, 3⟩, ⟨0, 3⟩] := by decide
    rw [blocks]
    refine ⟨?_, ?_, ?_⟩
    · intro b mem
      rcases mem_cons.mp mem with rfl | mem
      · exact ⟨1, rfl⟩
      · obtain rfl := List.mem_singleton.mp mem
        exact ⟨0, rfl⟩
    · refine pairwise_pair.mpr (.inr ?_)
      decide
    · intro p
      simp only [Finset.mem_range, List.mem_cons, List.not_mem_nil, or_false, exists_eq_or_imp,
        exists_eq_left, Block.Covers]
      omega
  · intro k _ p mem
    by_cases three : k = 3
    · subst three
      obtain rfl := List.mem_singleton.mp mem
      exact ⟨rfl, rfl, rfl⟩
    · rw [if_neg three] at mem
      cases mem
  · intro p outside
    have other : p ≠ 8 := by
      rintro rfl
      exact outside (by decide)
    simp only [sample, if_neg other]
    split <;> rfl
  · intro p _
    simp only [sample]
    split
    · rfl
    · split <;> rfl
  · intro p inside
    exact lt_trans (Finset.mem_range.mp inside) (show 16 < 1024 by decide)
  · show 1024 ≤ buddyMaxPages
    decide

lemma sample_page (p : Nat) (small : p < 16) : TablePage (pfnToPhys p) := by
  refine ⟨pfnToPhys_aligned p, ?_⟩
  simp only [pfnToPhys, physMemBase, pageSize, kernelPhysMax]
  omega

lemma sample_kept (p : Nat) (low : p < 8) : Kept (range 16) [⟨0, 3⟩] (pfnToPhys p) := by
  rw [kept_pfnToPhys]
  exact fun _ => ⟨⟨0, 3⟩, List.mem_singleton_self _, zero_le p, by simpa using low⟩

lemma sample_kept_zero : Kept (range 16) [⟨0, 3⟩] 0 := by
  intro q is
  simp only [pfnToPhys, physMemBase] at is
  omega

lemma sampleRam_byte {m : Store} (low : p < 4) :
    SamePage m (update m (pfnToPhys 4) 0x5A) (pfnToPhys p) := by
  intro x above below
  simp only [pfnToPhys, physMemBase, pageSize] at above below
  rw [update_of_ne]
  simp only [pfnToPhys, physMemBase, pageSize]
  omega

lemma readEntry_writeEntry {m : Store} {q i k : Nat} {e : Entry} (low : i < 512)
    (inside : k < 512) : readEntry (writeEntry m (pfnToPhys p) k e) (pfnToPhys q) i =
      if q = p ∧ i = k then e else readEntry m (pfnToPhys q) i := by
  by_cases same : q = p
  · subst same
    by_cases here : i = k
    · rw [here, readEntry_writeEntry_same, if_pos ⟨rfl, rfl⟩]
    · rw [readEntry_writeEntry_other (Ne.symm here), if_neg fun both => here both.2]
  · have apart : pfnToPhys p ≠ pfnToPhys q := fun equal => same (pfnToPhys_injective equal).symm
    rw [readEntry_congr (samePage_writeEntry (pfnToPhys_aligned p) (pfnToPhys_aligned q) apart
      inside) low, if_neg fun both => same both.1]

lemma sampleRam_entries (top : Entry) :
    OneEntry (sampleRam top) (pfnToPhys 0) 1 top ∧
    OneEntry (sampleRam top) (pfnToPhys 1) 0 (userTable (pfnToPhys 2)) ∧
    OneEntry (sampleRam top) (pfnToPhys 2) 0 (userTable (pfnToPhys 3)) ∧
    OneEntry (sampleRam top) (pfnToPhys 3) 0 (userPage (pfnToPhys 4)) := by
  refine ⟨?_, ?_, ?_, ?_⟩ <;> intro i low <;>
    rw [sampleRam, readEntry_congr (sampleRam_byte (by decide)) low] <;>
    simp [readEntry_writeEntry low, readEntry_zero]

/-- An entry made by `map_user_page` leads to its table and is open to user mode. -/
lemma userTable_spec : ∀ p < 4, ∀ n < 3, links n (userTable (pfnToPhys p)) = true ∧
    pteAddr (userTable (pfnToPhys p)) = pfnToPhys p ∧
      has (userTable (pfnToPhys p)) pteUser = true := by
  decide +kernel

lemma userPage_spec : has (userPage (pfnToPhys 4)) ptePresent = true ∧
    pteAddr (userPage (pfnToPhys 4)) = pfnToPhys 4 ∧
      has (userPage (pfnToPhys 4)) pteUser = true := by
  decide +kernel

/-- What makes a sample an address space: its tables, and that the page 4 is its only leaf. -/
lemma sample_space {top : Entry} {pages : Finset Nat}
    (tables : ShapeIn userSlots (sampleRam top) 2 (pfnToPhys 0) pages)
    (within : pages ⊆ {pfnToPhys 0, pfnToPhys 1, pfnToPhys 2, pfnToPhys 3})
    (only : ∀ x e, leaf (sampleRam top) 3 (pfnToPhys 0) x = some e →
      e = userPage (pfnToPhys 4))
    (user : ∀ vaddr, UserAddr vaddr → translate (sample top) (pfnToPhys 0) vaddr ≠ none →
      granted pteUser (sample top) 3 (pfnToPhys 0) vaddr = true) :
    AddressSpace (range 16) [⟨0, 3⟩] (sample top) (pfnToPhys 0) pages := by
  have address₄ := userPage_spec.2.1
  refine ⟨sample_managed _, tables, ?_, ?_, user⟩
  · intro b mem
    have known := within mem
    simp only [Finset.mem_insert, Finset.mem_singleton] at known
    rcases known with rfl | rfl | rfl | rfl <;> exact sample_kept _ (by decide)
  · intro x e _ leafIs
    rw [only x e leafIs, address₄]
    exact ⟨fun mem => absurd (within mem) (by decide), sample_kept 4 (by decide)⟩

/-- A clone of a sample succeeds: there are four pages for tables, and more are free. -/
lemma sample_clones {top : Entry} {pages : Finset Nat}
    (space : AddressSpace (range 16) [⟨0, 3⟩] (sample top) (pfnToPhys 0) pages)
    (few : pages.card ≤ 4) : ∃ child t held' copies,
      cloneCurrentPml4 (sample top) 0 (pfnToPhys 0) = some (child, t) ∧ child ≠ 0 ∧
      Forked (range 16) [⟨0, 3⟩] held' (pfnToPhys 0) child pages copies (sample top) t := by
  have held : heldPages [⟨0, 3⟩] = 8 := by decide
  rcases cloneCurrentPml4_spec 0 space.managed space.tables space.used with
    ⟨child, t, held', copies, clone, forked⟩ | ⟨full, -⟩
  · exact ⟨child, t, held', copies, clone, forked.root_ne sample_kept_zero, forked⟩
  · rw [held, card_range] at full
    omega

/-- A parent with one page, at the start of slot 1. -/
def smallParent : Kmem := sample (userTable (pfnToPhys 1))

lemma smallParent_look (x : Nat) : look smallParent.ram 3 (pfnToPhys 0) x =
    if pageIdx 3 x = 1 ∧ pageIdx 2 x = 0 ∧ pageIdx 1 x = 0 then .table (pfnToPhys 3)
    else .missing := by
  obtain ⟨pml4, pdpt, pd, -⟩ := sampleRam_entries (userTable (pfnToPhys 1))
  obtain ⟨links₁, address₁, -⟩ := userTable_spec 1 (by decide) 2 (by decide)
  obtain ⟨links₂, address₂, -⟩ := userTable_spec 2 (by decide) 1 (by decide)
  obtain ⟨links₃, address₃, -⟩ := userTable_spec 3 (by decide) 0 (by decide)
  rw [smallParent, sample, pml4.look_eq links₁, address₁, pdpt.look_eq links₂, address₂,
    pd.look_eq links₃, address₃]
  simp only [look, ite_and]

lemma smallParent_leaf (x : Nat) : leaf smallParent.ram 3 (pfnToPhys 0) x =
    if pageIdx 3 x = 1 ∧ pageIdx 2 x = 0 ∧ pageIdx 1 x = 0 ∧ pageIdx 0 x = 0 then
      some (userPage (pfnToPhys 4)) else none := by
  have pt := (sampleRam_entries (userTable (pfnToPhys 1))).2.2.2 _ (pageIdx_lt 0 x)
  simp only [leaf, smallParent_look]
  by_cases path : pageIdx 3 x = 1 ∧ pageIdx 2 x = 0 ∧ pageIdx 1 x = 0
  · have bottom : leafEntry (if pageIdx 0 x = 0 then userPage (pfnToPhys 4) else 0) =
        if pageIdx 0 x = 0 then some (userPage (pfnToPhys 4)) else none := by
      split
      · exact leafEntry_of_present userPage_spec.1
      · exact leafEntry_zero
    simp only [path, true_and]
    exact (congrArg leafEntry pt).trans bottom
  · rw [if_neg path, if_neg fun whole => path ⟨whole.1, whole.2.1, whole.2.2.1⟩]

lemma smallParent_large (x : Nat) : large smallParent.ram 3 (pfnToPhys 0) x = none := by
  rw [large, smallParent_look]
  split_ifs <;> rfl

lemma smallParent_tables : ShapeIn userSlots smallParent.ram 2 (pfnToPhys 0)
    {pfnToPhys 0, pfnToPhys 1, pfnToPhys 2, pfnToPhys 3} := by
  obtain ⟨pml4, pdpt, pd, -⟩ := sampleRam_entries (userTable (pfnToPhys 1))
  obtain ⟨links₁, address₁, -⟩ := userTable_spec 1 (by decide) 2 (by decide)
  obtain ⟨links₂, address₂, -⟩ := userTable_spec 2 (by decide) 1 (by decide)
  obtain ⟨links₃, address₃, -⟩ := userTable_spec 3 (by decide) 0 (by decide)
  have every : 0 ∈ tableSlots := mem_tableSlots.mpr (by decide)
  have table : Shape smallParent.ram 0 (pfnToPhys 3) {pfnToPhys 3} :=
    ⟨sample_page 3 (by decide), rfl⟩
  have directory : Shape smallParent.ram 1 (pfnToPhys 2) {pfnToPhys 2, pfnToPhys 3} :=
    pd.shapeIn (sample_page 2 (by decide)) (Subset.refl _) every
      (by rw [links₃, address₃]; exact table) (by decide)
  have middle : Shape smallParent.ram 2 (pfnToPhys 1)
      {pfnToPhys 1, pfnToPhys 2, pfnToPhys 3} :=
    pdpt.shapeIn (sample_page 1 (by decide)) (Subset.refl _) every
      (by rw [links₂, address₂]; exact directory) (by decide)
  exact pml4.shapeIn (sample_page 0 (by decide)) userSlots_subset (mem_userSlots.mpr (by decide))
    (by rw [links₁, address₁]; exact middle) (by decide)

lemma smallParent_granted (one : pageIdx 3 (vaddr / pageSize) = 1)
    (low : ∀ k < 3, pageIdx k (vaddr / pageSize) = 0) :
    granted pteUser smallParent 3 (pfnToPhys 0) vaddr = true := by
  obtain ⟨pml4, pdpt, pd, pt⟩ := sampleRam_entries (userTable (pfnToPhys 1))
  obtain ⟨-, address₁, user₁⟩ := userTable_spec 1 (by decide) 2 (by decide)
  obtain ⟨-, address₂, user₂⟩ := userTable_spec 2 (by decide) 1 (by decide)
  obtain ⟨-, address₃, user₃⟩ := userTable_spec 3 (by decide) 0 (by decide)
  have user₄ := userPage_spec.2.2
  refine pml4.granted (s := smallParent) one user₁ ?_
  rw [address₁]
  refine pdpt.granted (s := smallParent) (low 2 (by decide)) user₂ ?_
  rw [address₂]
  refine pd.granted (s := smallParent) (low 1 (by decide)) user₃ ?_
  rw [address₃, granted, entry, tableIdx_eq, low 0 (by decide)]
  exact (congrArg (has · pteUser) (pt 0 (by decide))).trans user₄

lemma smallParent_space : AddressSpace (range 16) [⟨0, 3⟩] smallParent (pfnToPhys 0)
    {pfnToPhys 0, pfnToPhys 1, pfnToPhys 2, pfnToPhys 3} := by
  refine sample_space smallParent_tables (Finset.Subset.refl _) (fun x e leafIs => ?_)
    fun vaddr user mapped => ?_
  · have shown := smallParent_leaf x
    rw [smallParent, sample, leafIs] at shown
    split at shown
    · exact some.inj shown
    · cases shown
  · have found : leaf smallParent.ram 3 (pfnToPhys 0) (vaddr / pageSize) ≠ none := fun none =>
      mapped ((smallParent_tables.translate_eq_none user.mem_userSlots).mpr
        ⟨none, smallParent_large _⟩)
    rw [smallParent_leaf] at found
    split at found
    · next path =>
        obtain ⟨three, two, one, zero⟩ := path
        refine smallParent_granted three fun k low => ?_
        have level : k = 0 ∨ k = 1 ∨ k = 2 := by omega
        rcases level with rfl | rfl | rfl <;> assumption
    · exact absurd rfl found

def slotOne : Nat := 2 ^ 39

lemma slotOne_user : UserAddr slotOne := by
  rw [UserAddr]
  decide

lemma smallParent_slotOne : userRead smallParent (pfnToPhys 0) slotOne = some 0x5A := by
  have page : slotOne / pageSize = 512 ^ 3 := by decide
  have path : ∀ k < 3, pageIdx k (slotOne / pageSize) = 0 := by
    rw [page]
    decide
  rw [userRead, smallParent_granted (by rw [page]; decide) path, if_pos rfl,
    smallParent_tables.translate_eq slotOne_user.mem_userSlots (smallParent_large _), page,
    smallParent_leaf, if_pos (by decide)]
  simp only [map_some, physOf, userPage_spec.2.1]
  rw [show slotOne % pageSize = 0 by decide, add_zero]
  simp only [smallParent, sample, sampleRam]
  rw [update_self]

/-- The parent reads a byte of its one page, which has one reference, and its child cannot. -/
theorem child_reads_nothing : AddressSpace (range 16) [⟨0, 3⟩] smallParent (pfnToPhys 0)
      {pfnToPhys 0, pfnToPhys 1, pfnToPhys 2, pfnToPhys 3} ∧
    pageRefGet smallParent (pfnToPhys 4) = 1 ∧
    (∀ x e, leaf smallParent.ram 3 (pfnToPhys 0) x = some e → pteAddr e = pfnToPhys 4 ∧
      pageIdx 3 x = 1 ∧ pageIdx 2 x = 0 ∧ pageIdx 1 x = 0 ∧ pageIdx 0 x = 0) ∧
    userRead smallParent (pfnToPhys 0) slotOne = some 0x5A ∧
    ∃ child t, cloneCurrentPml4 smallParent 0 (pfnToPhys 0) = some (child, t) ∧ child ≠ 0 ∧
      userRead t child slotOne = none := by
  obtain ⟨child, t, _, _, clone, success, forked⟩ := sample_clones smallParent_space (by decide)
  refine ⟨smallParent_space, rfl, fun x e found => ?_, smallParent_slotOne, child, t, clone,
    success, ?_⟩
  · rw [smallParent_leaf] at found
    split at found
    · next path =>
        obtain rfl := some.inj found
        exact ⟨userPage_spec.2.1, path⟩
    · cases found
  · rw [userRead, forked.child_closed slotOne_user]
    rfl

/-- A parent that maps nothing. -/
def emptyParent : Kmem := sample 0

lemma emptyParent_look (x : Nat) : look emptyParent.ram 3 (pfnToPhys 0) x = .missing := by
  have entries := (sampleRam_entries 0).1 _ (pageIdx_lt 3 x)
  rw [ite_self] at entries
  rw [look, emptyParent, sample, entries]
  rfl

lemma emptyParent_tables : ShapeIn userSlots emptyParent.ram 2 (pfnToPhys 0) {pfnToPhys 0} :=
  (sampleRam_entries 0).1.shapeIn (sample_page 0 (by decide)) userSlots_subset
    (mem_userSlots.mpr (by decide)) (by rw [links_zero]; rfl) (notMem_empty _)

lemma emptyParent_unmapped (user : UserAddr vaddr) :
    translate emptyParent (pfnToPhys 0) vaddr = none :=
  (emptyParent_tables.translate_eq_none user.mem_userSlots).mpr
    ⟨by rw [leaf, emptyParent_look], by rw [large, emptyParent_look]⟩

lemma emptyParent_space :
    AddressSpace (range 16) [⟨0, 3⟩] emptyParent (pfnToPhys 0) {pfnToPhys 0} := by
  refine sample_space emptyParent_tables (by decide) (fun x e leafIs => ?_)
    fun vaddr user mapped => absurd (emptyParent_unmapped user) mapped
  rw [leaf, show look (sampleRam 0) 3 _ x = _ from emptyParent_look x] at leafIs
  cases leafIs

/-- The child of the small parent shares its page but is not isolated; that of the parent without
pages is. -/
theorem clone_isolated_iff_parents :
    (∃ child t, cloneCurrentPml4 smallParent 0 (pfnToPhys 0) = some (child, t) ∧ child ≠ 0 ∧
      Shared smallParent t (pfnToPhys 0) child ∧
      ¬Isolated true smallParent t (pfnToPhys 0) child) ∧
    ∃ child t, cloneCurrentPml4 emptyParent 0 (pfnToPhys 0) = some (child, t) ∧ child ≠ 0 ∧
      Isolated true emptyParent t (pfnToPhys 0) child := by
  obtain ⟨child, t, _, _, clone, success, -⟩ := sample_clones smallParent_space (by decide)
  obtain ⟨child', t', _, _, clone', success', -⟩ := sample_clones emptyParent_space (by decide)
  have small := clone_isolated_iff smallParent_space clone success true
  have empty := clone_isolated_iff emptyParent_space clone' success' true
  refine ⟨⟨child, t, clone, success, small.1, fun isolated => ?_⟩,
    child', t', clone', success', empty.2.mpr fun _ user => emptyParent_unmapped user⟩
  have reads := smallParent_slotOne
  rw [userRead_none (small.2.mp isolated slotOne slotOne_user)] at reads
  cases reads

end AuroraOS.PageTable
