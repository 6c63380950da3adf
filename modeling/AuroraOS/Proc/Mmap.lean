import AuroraOS.Proc.Memory

/-!
# Ranges of `sys_mmap`

`sys_mmap` takes its addresses from `mmap_base`, which it advances by the length before it has
checked that the range fits; a call with a huge length fails and takes the base back.
-/

namespace AuroraOS.Proc

open Lib Mem PageTable List Option Relation

variable {s s' : Kmem} {p p' : Process} {random length : Word} {prot flags : BitVec 32}

structure Region where
  start : Word
  length : Word

def Region.stop (r : Region) : Nat := r.start.toNat + (numPages r.length).toNat * pageSize

def Region.Apart (r r' : Region) : Prop :=
  ∀ x, ¬((r.start.toNat ≤ x ∧ x < r.stop) ∧ r'.start.toNat ≤ x ∧ x < r'.stop)

def Advances (length : Word) (flags : BitVec 32) : Prop :=
  flags &&& 0x20#32 ≠ 0 ∧ length ≠ 0 ∧ length ≤ BitVec.allOnes 64 - pageWord + 1

def Fits (p : Process) (random length : Word) (flags : BitVec 32) : Prop :=
  Advances length flags →
    (mmapStart p random).toNat + (numPages length).toNat * pageSize < 2 ^ 64

/-- One event: a call, or anything else that leaves `mmap_base` alone. -/
inductive MmapStep (ok : Process → Word → Word → BitVec 32 → Prop) :
    Process × Kmem × List Region → Process × Kmem × List Region → Prop
  | mapped {p p' : Process} {s s' : Kmem} {regions : List Region} (random length : Word)
      (prot flags : BitVec 32) (start : Word) (meets : ok p random length flags)
      (run : sysMmap s p random length prot flags = some (.ok start, p', s')) :
      MmapStep ok (p, s, regions) (p', s', ⟨start, length⟩ :: regions)
  | failed {p p' : Process} {s s' : Kmem} {regions : List Region} (random length : Word)
      (prot flags : BitVec 32) (errno : Errno) (meets : ok p random length flags)
      (run : sysMmap s p random length prot flags = some (.error errno, p', s')) :
      MmapStep ok (p, s, regions) (p', s', regions)
  | other {p p' : Process} {s s' : Kmem} {regions : List Region}
      (base : p'.mmapBase = p.mmapBase) : MmapStep ok (p, s, regions) (p', s', regions)

lemma sysMmap_cases {result : Except Errno Word}
    (run : sysMmap s p random length prot flags = some (result, p', s')) :
    ((∃ errno, result = .error errno) ∧ p' = p) ∨
    (Advances length flags ∧ p'.mmapBase = mmapStart p random + numPages length * pageWord ∧
      ∀ start, result = .ok start → start = mmapStart p random) := by
  unfold sysMmap at run
  split at run
  · cases run
    exact .inl ⟨⟨_, rfl⟩, rfl⟩
  rename_i anonymous
  split at run
  · cases run
    exact .inl ⟨⟨_, rfl⟩, rfl⟩
  rename_i nonzero
  split at run
  · cases run
    exact .inl ⟨⟨_, rfl⟩, rfl⟩
  rename_i short
  refine .inr ⟨⟨anonymous, nonzero, BitVec.not_lt.mp short⟩, ?_⟩
  dsimp only at run
  split at run
  · cases run
    exact ⟨rfl, by simp⟩
  split at run
  · cases run
    exact ⟨rfl, by simp⟩
  obtain ⟨⟨done, s₁⟩, -, run⟩ := bind_eq_some_iff.mp run
  split at run
  · cases run
    exact ⟨rfl, fun start is => (Except.ok.inj is).symm⟩
  · cases run
    exact ⟨rfl, by simp⟩

lemma mmapBase_of_fits (advances : Advances length flags) (fits : Fits p random length flags) :
    (mmapStart p random + numPages length * pageWord).toNat =
      (mmapStart p random).toNat + (numPages length).toNat * pageSize := by
  have bound := fits advances
  simp only [pageSize] at bound ⊢
  rw [BitVec.toNat_add, BitVec.toNat_mul, show pageWord.toNat = 4096 from rfl]
  rw [Nat.mod_eq_of_lt (a := (numPages length).toNat * 4096) (by omega)]
  exact Nat.mod_eq_of_lt bound

structure Below (p : Process) (regions : List Region) : Prop where
  below : ∀ r ∈ regions, r.stop ≤ p.mmapBase.toNat
  apart : regions.Pairwise Region.Apart

lemma Below.start {regions : List Region} (inv : Below p regions) (random : Word) :
    ∀ r ∈ regions, r.stop ≤ (mmapStart p random).toNat := by
  intro r mem
  have below := inv.below r mem
  unfold mmapStart
  split
  · rename_i unset
    rw [unset] at below
    exact Nat.le_trans below (Nat.zero_le _)
  · exact below

lemma Below.advance {regions : List Region} (inv : Below p regions)
    (advances : Advances length flags) (fits : Fits p random length flags)
    (base : p'.mmapBase = mmapStart p random + numPages length * pageWord) :
    ∀ r ∈ ⟨mmapStart p random, length⟩ :: regions, r.stop ≤ p'.mmapBase.toNat := by
  intro r mem
  rw [base, mmapBase_of_fits advances fits]
  rcases mem_cons.mp mem with rfl | old
  · exact le_rfl
  · exact (inv.start random r old).trans (Nat.le_add_right ..)

lemma MmapStep.below {now next : Process × Kmem × List Region} (step : MmapStep Fits now next)
    (inv : Below now.1 now.2.2) : Below next.1 next.2.2 := by
  cases step with
  | mapped random length prot flags start fits run =>
    rcases sysMmap_cases run with ⟨⟨errno, none⟩, -⟩ | ⟨advances, base, started⟩
    · cases none
    cases started start rfl
    refine ⟨inv.advance advances fits base, pairwise_cons.mpr ⟨fun r old => ?_, inv.apart⟩⟩
    have before := inv.start random r old
    rintro x ⟨⟨above, -⟩, -, below⟩
    exact absurd (below.trans_le before) (not_lt.mpr above)
  | failed random length prot flags errno fits run =>
    rcases sysMmap_cases run with ⟨-, rfl⟩ | ⟨advances, base, -⟩
    · exact inv
    · exact ⟨fun r old => inv.advance advances fits base r (mem_cons_of_mem _ old), inv.apart⟩
  | other base => exact ⟨fun r old => base ▸ inv.below r old, inv.apart⟩

/-- In a run of calls that do not take `mmap_base` around, the ranges that were returned are
pairwise disjoint. -/
theorem regions_apart_of_run {now : Process × Kmem × List Region}
    (run : ReflTransGen (MmapStep Fits) (p, s, []) now) :
    now.2.2.Pairwise Region.Apart := by
  have inv : Below now.1 now.2.2 := by
    induction run with
    | refl => exact ⟨by simp, Pairwise.nil⟩
    | tail _ step ih => exact step.below ih
  exact inv.apart

/-- A memory with an empty address space: the pages 0 to 7 are handed out, the pages 8 to 15
are free, and the page 0 is the PML4. -/
def emptySpace : Kmem where
  pages p := if p = 8 then { flags := pageFlagFree, order := 3, physAddr := pfnToPhys 8 } else {}
  freeArea k := if k = 3 then some 8 else none
  totalPhysPages := 1024
  ram := fun _ => 0

def newProcess : Process := ⟨pfnToPhys 0, 0⟩

/-- Two calls for one page each. -/
theorem regions_apart_of_run_twice : ∃ now : Process × Kmem × List Region,
    ReflTransGen (MmapStep Fits) (newProcess, emptySpace, []) now ∧
      now.2.2 = [⟨0x70000001000#64, 4096#64⟩, ⟨0x70000000000#64, 4096#64⟩] ∧
      now.2.2.Pairwise Region.Apart := by
  have evaluates : ((sysMmap emptySpace newProcess 0 4096#64 3 0x20).bind fun r₁ =>
      (sysMmap r₁.2.2 r₁.2.1 0 4096#64 3 0x20).map fun r₂ => decide
        (r₁.1 = .ok 0x70000000000#64 ∧ r₂.1 = .ok 0x70000001000#64 ∧
          r₁.2.1.mmapBase = 0x70000001000#64)) = some true := by
    decide +kernel
  simp only [bind_eq_some_iff, map_eq_some_iff, decide_eq_true_eq] at evaluates
  obtain ⟨⟨_, p₁, s₁⟩, call₁, ⟨_, p₂, s₂⟩, call₂, rfl, rfl, base⟩ := evaluates
  have fits : Fits newProcess 0 4096#64 0x20 := fun _ => by decide
  have fits₁ : Fits p₁ 0 4096#64 0x20 := fun _ => by
    rw [mmapStart, base]
    decide
  have first : MmapStep Fits (newProcess, emptySpace, []) _ := .mapped 0 4096#64 3 0x20 _ fits call₁
  have run := (ReflTransGen.single first).tail (.mapped 0 4096#64 3 0x20 _ fits₁ call₂)
  exact ⟨_, run, rfl, regions_apart_of_run run⟩

/-- One page is mapped; a call for all but one page of the address space fails and takes
the base back by a page; the next call returns the page that is in use. -/
theorem mmap_returns_used_range : ∃ now : Process × Kmem × List Region,
    ReflTransGen (MmapStep fun _ _ _ _ => True) (newProcess, emptySpace, []) now ∧
      now.2.2 = [⟨0x70000000000#64, 4096#64⟩, ⟨0x70000000000#64, 4096#64⟩] ∧
      ¬now.2.2.Pairwise Region.Apart := by
  have evaluates : ((sysMmap emptySpace newProcess 0 4096#64 3 0x20).bind fun r₁ =>
      (sysMmap r₁.2.2 r₁.2.1 0 (BitVec.ofNat 64 (2 ^ 64 - 4096)) 3 0x20).bind fun r₂ =>
      (sysMmap r₂.2.2 r₂.2.1 0 4096#64 3 0x20).map fun r₃ => decide
        (r₁.1 = .ok 0x70000000000#64 ∧ r₂.1 = .error .enomem ∧
          r₃.1 = .ok 0x70000000000#64)) = some true := by
    decide +kernel
  simp only [bind_eq_some_iff, map_eq_some_iff, decide_eq_true_eq] at evaluates
  obtain ⟨⟨_, p₁, s₁⟩, call₁, ⟨_, p₂, s₂⟩, call₂, ⟨_, p₃, s₃⟩, call₃, rfl, rfl, rfl⟩ := evaluates
  refine ⟨(p₃, s₃, _), ?_, rfl, ?_⟩
  · have first : MmapStep (fun _ _ _ _ => True) (newProcess, emptySpace, []) _ :=
      .mapped 0 4096#64 3 0x20 _ trivial call₁
    exact ((ReflTransGen.single first).tail
      (.failed 0 _ 3 0x20 _ trivial call₂)).tail (.mapped 0 4096#64 3 0x20 _ trivial call₃)
  · -- the first address of the page lies in both ranges
    intro apart
    exact (pairwise_cons.mp apart).1 _ (mem_singleton.mpr rfl) 0x70000000000 (by decide)

end AuroraOS.Proc
