import AuroraOS.Journal.Model
import AuroraOS.Lib.Fuel

/-!
# The block writes of a commit

What each phase of `journal_commit` writes, as a list of whole blocks.  When the log runs past the
end of the device the commit stops in the middle of the first phases.
-/

namespace AuroraOS.Journal

open Lib Block List Option Nat Relation

def Handle.push (j : Handle) (ps : List Patch) : Handle := { j with bdev := j.bdev.push ps }

section Push

variable (j : Handle) (ps ps' : List Patch)

@[simp] lemma handle_push_blockSize : (j.push ps).blockSize = j.blockSize := rfl
@[simp] lemma handle_push_journalStart : (j.push ps).journalStart = j.journalStart := rfl
@[simp] lemma handle_push_head : (j.push ps).head = j.head := rfl
@[simp] lemma handle_push_txn : (j.push ps).txn = j.txn := rfl
@[simp] lemma handle_push_log : (j.push ps).bdev.log = j.bdev.log ++ ps := rfl

@[simp] lemma handle_push_spb : sectorsPerBlock (j.push ps) = sectorsPerBlock j := rfl

@[simp] lemma handle_push_nil : j.push [] = j := by
  simp [Handle.push]

@[simp] lemma handle_push_push : (j.push ps).push ps' = j.push (ps ++ ps') := by
  simp [Handle.push]

end Push

structure Sized (j : Handle) : Prop where
  sector : 0 < j.bdev.blockSize
  multiple : j.bdev.blockSize ∣ j.blockSize
  positive : 0 < sectorsPerBlock j
  int : sectorsPerBlock j < 2 ^ 31

namespace Sized

variable {j : Handle}

lemma bytes (sized : Sized j) : sectorsPerBlock j * j.bdev.blockSize = j.blockSize :=
  Nat.div_mul_cancel sized.multiple

lemma congr {j' : Handle} (sized : Sized j) (size : j'.blockSize = j.blockSize)
    (sector : j'.bdev.blockSize = j.bdev.blockSize) : Sized j' := by
  have spb : sectorsPerBlock j' = sectorsPerBlock j := by
    rw [sectorsPerBlock, sectorsPerBlock, size, sector]
  constructor
  · rw [sector]
    exact sized.sector
  · rw [size, sector]
    exact sized.multiple
  · rw [spb]
    exact sized.positive
  · rw [spb]
    exact sized.int

lemma push (sized : Sized j) (ps : List Patch) : Sized (j.push ps) :=
  sized.congr rfl rfl

end Sized

def onDevice (j : Handle) (b : Nat) : Prop := (b + 1) * sectorsPerBlock j ≤ j.bdev.totalSectors

instance (j : Handle) (b : Nat) : Decidable (onDevice j b) := decLe _ _

@[simp] lemma onDevice_push (j : Handle) (ps : List Patch) (b : Nat) :
    onDevice (j.push ps) b ↔ onDevice j b := Iff.rfl

variable {j : Handle} {b : Nat} {buf : Store}

variable (sized : Sized j)
include sized

lemma inRange_iff :
    j.bdev.inRange (b * sectorsPerBlock j) (sectorsPerBlock j) = true ↔ onDevice j b := by
  have pos := sized.positive
  have int := sized.int
  simp only [BlockDevice.inRange, decide_eq_true_eq, onDevice, add_mul]
  omega

def sectorPatch (j : Handle) (sector : Nat) (buf : Store) : Patch :=
  ⟨sector * j.bdev.blockSize, j.blockSize, buf⟩

lemma blockDevWrite_sector {sector : Nat}
    (fits : sector + sectorsPerBlock j ≤ j.bdev.totalSectors) :
    blockDevWrite j.bdev buf sector (sectorsPerBlock j) =
      some (j.bdev.push [sectorPatch j sector buf]) := by
  have pos := sized.positive
  have int := sized.int
  rw [blockDevWrite, if_pos]
  · simp only [sized.bytes]
    rfl
  · simp only [BlockDevice.inRange, decide_eq_true_eq]
    omega

lemma blockDevWrite_block : blockDevWrite j.bdev buf (b * sectorsPerBlock j) (sectorsPerBlock j) =
      if onDevice j b then some (j.bdev.push [blockPatch j.blockSize (b, buf)]) else none := by
  by_cases fits : onDevice j b
  · have addr : b * sectorsPerBlock j * j.bdev.blockSize = b * j.blockSize := by
      rw [mul_assoc, sized.bytes]
    rw [if_pos fits, blockDevWrite_sector sized, sectorPatch, addr]
    · rfl
    · simpa [onDevice, add_mul] using fits
  · rw [if_neg fits, blockDevWrite, if_neg fun h => fits ((inRange_iff sized).mp h)]

lemma sector_eq {offset : Nat} (small : (j.journalStart + offset) * sectorsPerBlock j < 2 ^ 64) :
    journalToDevice j offset * sectorsPerBlock j % 2 ^ 64 =
      (j.journalStart + offset) * sectorsPerBlock j := by
  have bound : j.journalStart + offset < 2 ^ 64 :=
    lt_of_le_of_lt (Nat.le_mul_of_pos_right _ sized.positive) small
  rw [journalToDevice, mod_eq_of_lt bound, mod_eq_of_lt small]

lemma journalWriteBlock_eq {offset : Nat}
    (small : (j.journalStart + offset) * sectorsPerBlock j < 2 ^ 64) :
    journalWriteBlock j offset buf = if onDevice j (j.journalStart + offset) then
        some (j.push [blockPatch j.blockSize (j.journalStart + offset, buf)])
      else none := by
  rw [journalWriteBlock]
  simp only [sector_eq sized small, blockDevWrite_block sized]
  split <;> rfl

lemma journalReadBlock_eq {offset : Nat}
    (small : (j.journalStart + offset) * sectorsPerBlock j < 2 ^ 64)
    (fits : onDevice j (j.journalStart + offset)) :
    ∃ buf, journalReadBlock j offset = some buf ∧ ∀ a n, a + n ≤ j.blockSize →
      leRead buf a n = leRead j.bdev.data ((j.journalStart + offset) * j.blockSize + a) n := by
  have addr : (j.journalStart + offset) * sectorsPerBlock j * j.bdev.blockSize =
      (j.journalStart + offset) * j.blockSize := by
    rw [mul_assoc, sized.bytes]
  refine ⟨fun i => if i < j.blockSize then
    j.bdev.data ((j.journalStart + offset) * j.blockSize + i) else 0, ?_, ?_⟩
  · simp only [journalReadBlock, sector_eq sized small, blockDevRead,
      if_pos ((inRange_iff sized).mpr fits), addr, sized.bytes]
  · intro a n inside
    apply leRead_shift
    intro i low high
    rw [if_pos (by omega)]

/-! ## The phases -/

def journalPatch (j : Handle) (w : Nat × Store) : Patch :=
  ⟨journalToDevice j w.1 * sectorsPerBlock j % 2 ^ 64 * j.bdev.blockSize,
    sectorsPerBlock j * j.bdev.blockSize, w.2⟩

lemma journalPatch_eq {w : Nat × Store}
    (small : (j.journalStart + w.1) * sectorsPerBlock j < 2 ^ 64) :
    journalPatch j w = blockPatch j.blockSize (j.journalStart + w.1, w.2) := by
  rw [journalPatch, sector_eq sized small, mul_assoc, sized.bytes]
  rfl

omit sized

lemma journalWriteBlock_push {offset : Nat} {j' : Handle}
    (ran : journalWriteBlock j offset buf = some j') :
    0 < sectorsPerBlock j ∧ j' = j.push [journalPatch j (offset, buf)] := by
  obtain ⟨d, wrote, rfl⟩ := map_eq_some_iff.mp ran
  unfold blockDevWrite at wrote
  split at wrote
  · next inRange =>
      cases wrote
      exact ⟨(of_decide_eq_true inRange).1, rfl⟩
  · cases wrote

def writeAll (j : Handle) : List (Nat × Store) → Bool × Handle
  | [] => (true, j)
  | (offset, data) :: rest =>
    match journalWriteBlock j offset data with
    | none => (false, j)
    | some j => writeAll j rest

lemma writeAll_spec (j : Handle) (ws : List (Nat × Store)) : ∃ m ≤ ws.length,
    writeAll j ws = (decide (m = ws.length), j.push ((ws.map (journalPatch j)).take m)) ∧
      (0 < m → 0 < sectorsPerBlock j) := by
  induction ws generalizing j with
  | nil => exact ⟨0, le_rfl, by simp [writeAll], by simp⟩
  | cons w ws ih =>
    obtain ⟨offset, data⟩ := w
    cases wrote : journalWriteBlock j offset data with
    | none => exact ⟨0, zero_le _, by simp [writeAll, wrote], by simp⟩
    | some j₁ =>
      obtain ⟨positive, rfl⟩ := journalWriteBlock_push wrote
      obtain ⟨m, mle, run, -⟩ := ih (j.push [journalPatch j (offset, data)])
      refine ⟨m + 1, by simpa using mle, ?_, fun _ => positive⟩
      simp only [writeAll, wrote, run]
      simp
      rfl

lemma writeAll_append (j : Handle) (ws ws' : List (Nat × Store)) :
    writeAll j (ws ++ ws') = match writeAll j ws with
      | (false, j) => (false, j)
      | (true, j) => writeAll j ws' := by
  induction ws generalizing j with
  | nil => rfl
  | cons w ws ih =>
    rw [cons_append, writeAll, writeAll]
    split
    · rfl
    · exact ih _

def numbered (first : Nat) : List (Nat × Store) → List (Nat × Store)
  | [] => []
  | (_, data) :: rest => (first, data) :: numbered (first + 1) rest

lemma writeDataBlocks_eq (j : Handle) (pos : Nat) (txn : List (Nat × Store)) :
    writeDataBlocks j pos txn = writeAll j (numbered pos txn) := by
  induction txn generalizing j pos with
  | nil => rfl
  | cons w txn ih =>
    rw [writeDataBlocks, numbered, writeAll]
    cases journalWriteBlock j pos w.2 with
    | none => rfl
    | some j => exact ih j _

lemma mem_numbered {first : Nat} {txn : List (Nat × Store)} {w : Nat × Store}
    (mem : w ∈ numbered first txn) : first ≤ w.1 ∧ w.1 < first + txn.length := by
  induction txn generalizing first with
  | nil => cases mem
  | cons v txn ih =>
    rw [length_cons]
    rcases mem_cons.mp mem with rfl | mem
    · simp
    · have := ih mem
      omega

def logged (size first : Nat) : List (Nat × Store) → List Patch
  | [] => []
  | (_, data) :: rest => blockPatch size (first, data) :: logged size (first + 1) rest

lemma logged_eq (size start first : Nat) (txn : List (Nat × Store)) :
    logged size (start + first) txn =
      (numbered first txn).map fun w => blockPatch size (start + w.1, w.2) := by
  induction txn generalizing first with
  | nil => rfl
  | cons w txn ih => simp [logged, numbered, ← ih, add_assoc]

lemma logged_length (size first : Nat) (txn : List (Nat × Store)) :
    (logged size first txn).length = txn.length := by
  induction txn generalizing first with
  | nil => rfl
  | cons w txn ih => simp [logged, ih]

lemma mem_logged {size first : Nat} {txn : List (Nat × Store)} {p : Patch}
    (mem : p ∈ logged size first txn) :
    ∃ c data, first ≤ c ∧ c < first + txn.length ∧ p = blockPatch size (c, data) := by
  rw [← Nat.zero_add first, logged_eq] at mem
  obtain ⟨w, inside, rfl⟩ := mem_map.mp mem
  obtain ⟨low, high⟩ := mem_numbered inside
  exact ⟨0 + w.1, w.2, by omega, by omega, rfl⟩

include sized

/-- The checkpoint's write of one target: the product of block and sectors per block is
taken in 32 bits. -/
def checkpointPatch (j : Handle) (w : Nat × Store) : Patch :=
  sectorPatch j (w.1 * sectorsPerBlock j % 2 ^ 32) w.2

lemma checkpoint_spec (txn : List (Nat × Store))
    (fits : ∀ w ∈ txn, w.1 * sectorsPerBlock j % 2 ^ 32 + sectorsPerBlock j ≤ j.bdev.totalSectors) :
    checkpoint j txn = (true, j.push (txn.map (checkpointPatch j))) := by
  induction txn generalizing j with
  | nil => simp [checkpoint]
  | cons w txn ih =>
    have here := fits _ (mem_cons_self ..)
    have rest := ih (sized.push [checkpointPatch j w]) (fun v mem => fits v (mem_cons_of_mem _ mem))
    simp only [checkpoint, blockDevWrite_sector sized here]
    show checkpoint (j.push [checkpointPatch j w]) txn = _
    rw [rest]
    simp only [handle_push_push]
    rfl

omit sized

/-! ## The superblock -/

/-- A superblock as `write_jsb` writes it with this dirty flag. -/
def IsSuperblock (flag : Bool) (b : Store) : Prop :=
  leRead b 0 4 = journalMagicSb ∧ leRead b 52 4 = if flag then 1 else 0

lemma superblock_isSuperblock (j : Handle) : IsSuperblock j.dirty (superblock j) := by
  simp only [IsSuperblock, superblock]
  constructor
  · iterate 8 rw [leRead_leWrite_disjoint (by omega)]
    rfl
  · split <;> rfl

/-- The journal area and the positions lie on the device, the filesystem before them. -/
structure Placed (j : Handle) : Prop extends Sized j where
  size : j.blockSize < 2 ^ 32
  reserve : 8 ≤ j.journalBlocks
  behind : j.fsTotalBlocks ≤ j.journalStart
  area : (j.journalStart + j.journalBlocks) * sectorsPerBlock j ≤ j.bdev.totalSectors
  total : j.bdev.totalSectors < 2 ^ 62
  headOn : (j.journalStart + j.head) * sectorsPerBlock j ≤ j.bdev.totalSectors

namespace Placed

lemma start_onDevice (placed : Placed j) : onDevice j j.journalStart := by
  apply le_trans _ placed.area
  have reserve := placed.reserve
  exact mul_le_mul_right _ (by omega)

lemma small (placed : Placed j) {n : Nat} (short : n < 2 ^ 28) :
    (j.journalStart + j.head + n) * sectorsPerBlock j < 2 ^ 64 := by
  have on := placed.headOn
  have total := placed.total
  have extra : n * sectorsPerBlock j ≤ 2 ^ 28 * 2 ^ 31 :=
    Nat.mul_le_mul short.le placed.int.le
  rw [add_mul]
  omega

end Placed

lemma writeJsb_eq (sized : Sized j) (on : onDevice j j.journalStart)
    (total : j.bdev.totalSectors < 2 ^ 62) :
    writeJsb j = (0, j.push [blockPatch j.blockSize (j.journalStart, superblock j)]) := by
  have small : (j.journalStart + 0) * sectorsPerBlock j < 2 ^ 64 := by
    have fits := on
    rw [onDevice, add_mul] at fits
    simp only [add_zero]
    omega
  rw [writeJsb, journalWriteBlock_eq sized small]
  simp only [add_zero, if_pos on]

/-! ## The eviction loop -/

def Full (j : Handle) : Prop := j.head ≥ (j.tail + (j.journalBlocks - 1)) % 2 ^ 64

def evictOldest (j : Handle) : Handle := { j with tail := (j.tail + oldestBlocks j) % 2 ^ 64 }

def Evicts (j j' : Handle) : Prop := Full j ∧ j' = evictOldest j

/-- The tail is at a descriptor with a count of blocks that makes its length 0 in 32 bits. -/
def Endless (j : Handle) : Prop :=
  ∃ buf, journalReadBlock j j.tail = some buf ∧ leRead buf 0 4 = journalMagicDesc ∧
    leRead buf 12 4 = 2 ^ 32 - 2

lemma evictTail_full {fuel : Nat} (full : Full j) :
    evictTail (fuel + 1) j = evictTail fuel (evictOldest j) := if_pos full

lemma evictTail_tail {fuel : Nat} {j' : Handle} (ran : evictTail fuel j = some j') :
    ∃ t, j' = { j with tail := t } := by
  induction fuel generalizing j with
  | zero => cases ran
  | succ fuel ih =>
    simp only [evictTail] at ran
    split at ran
    · obtain ⟨t, rfl⟩ := ih ran
      exact ⟨t, rfl⟩
    · cases ran
      exact ⟨_, rfl⟩

lemma evictTail_steady (j : Handle) : Steady fun fuel => evictTail fuel j := by
  intro fuel
  induction fuel generalizing j with
  | zero => exact Extends.none
  | succ fuel ih => exact Extends.ite (ih _) (Extends.refl _)

lemma oldestBlocks_lt (j : Handle) : oldestBlocks j < 2 ^ 32 := by
  rw [oldestBlocks]
  split
  · split <;> omega
  · omega

lemma endless_iff : Endless j ↔ oldestBlocks j = 0 := by
  unfold Endless oldestBlocks
  cases journalReadBlock j j.tail with
  | none => simp
  | some buf =>
    have count := leRead_lt buf 12 4
    by_cases desc : leRead buf 0 4 = journalMagicDesc
    · simp only [some.injEq, exists_eq_left', desc, if_true, true_and]
      omega
    · simp [desc]

lemma evictTail_endless (full : Full j) (endless : Endless j) (tail : j.tail < 2 ^ 64)
    (fuel : Nat) : evictTail fuel j = none := by
  have same : evictOldest j = j := by
    rw [evictOldest, endless_iff.mp endless, add_zero, mod_eq_of_lt tail]
  induction fuel with
  | zero => rfl
  | succ fuel ih => rw [evictTail_full full, same, ih]

/-- Every turn but an endless one moves the tail towards the head. -/
lemma evictTail_ends (head : j.head < 2 ^ 63)
    (moves : ∀ t, ReflTransGen Evicts j t → Full t → ¬ Endless t) :
    ∃ fuel, (evictTail fuel j).isSome := by
  induction gap : j.head + 1 - (j.tail + (j.journalBlocks - 1)) % 2 ^ 64 using Nat.strongRecOn
    generalizing j with
  | ind size ih =>
    by_cases full : Full j
    · have step : oldestBlocks j ≠ 0 := fun zero => moves j .refl full (endless_iff.mpr zero)
      have bound := oldestBlocks_lt j
      have low : (j.tail + (j.journalBlocks - 1)) % 2 ^ 64 ≤ j.head := full
      have closer : j.head + 1 - ((j.tail + oldestBlocks j) % 2 ^ 64 + (j.journalBlocks - 1)) %
          2 ^ 64 < size := by omega
      obtain ⟨fuel, ends⟩ := ih _ closer (j := evictOldest j) head
        (fun t reached => moves t (.head ⟨full, rfl⟩ reached)) rfl
      exact ⟨fuel + 1, by rwa [evictTail_full full]⟩
    · have done : evictTail 1 j = some j := if_neg full
      exact ⟨1, by rw [done]; rfl⟩

lemma evictTail_reached {t : Handle} (reached : ReflTransGen Evicts j t)
    (ends : ∃ fuel, (evictTail fuel j).isSome) (tail : j.tail < 2 ^ 64) :
    (∃ fuel, (evictTail fuel t).isSome) ∧ t.tail < 2 ^ 64 := by
  induction reached with
  | refl => exact ⟨ends, tail⟩
  | tail _ step ih =>
    obtain ⟨⟨fuel, ends⟩, -⟩ := ih
    obtain ⟨full, rfl⟩ := step
    cases fuel with
    | zero => cases ends
    | succ fuel => exact ⟨⟨fuel, by rwa [← evictTail_full full]⟩, mod_lt _ (by decide)⟩

lemma advanceHead_isSome {n fuel : Nat} : (advanceHead j n fuel).isSome =
    (evictTail fuel { j with head := (j.head + n) % 2 ^ 64 }).isSome := by
  rw [advanceHead]
  cases evictTail fuel _ <;> rfl

/-- `advance_head` ends unless its loop comes to a descriptor of no length. -/
theorem advanceHead_ends_iff {n : Nat} (head : j.head + n < 2 ^ 63) (tail : j.tail < 2 ^ 64) :
    (∃ fuel, (advanceHead j n fuel).isSome) ↔
      ∀ t, ReflTransGen Evicts { j with head := j.head + n } t → Full t → ¬ Endless t := by
  have small : (j.head + n) % 2 ^ 64 = j.head + n := mod_eq_of_lt (by omega)
  simp only [advanceHead_isSome, small]
  constructor
  · intro ends t reached full endless
    obtain ⟨⟨fuel, ends⟩, tail⟩ := evictTail_reached reached ends tail
    rw [evictTail_endless full endless tail] at ends
    cases ends
  · exact evictTail_ends head

def loopJournal (head count : Nat) : Handle :=
  let desc := leWrite (leWrite (fun _ => 0) 0 4 journalMagicDesc) 12 4 count
  { bdev := ⟨512, 10, overlay (fun _ => 0) [blockPatch 512 (3, desc)], []⟩, blockSize := 512
    journalStart := 2, journalBlocks := 8, fsTotalBlocks := 2, head := head, tail := 1
    sequence := 1, initialized := true }

theorem advanceHead_ends_iff_loopJournal :
    ∃ fuel, (advanceHead (loopJournal 1 1) 3 fuel).isSome := by
  have free : ¬ Full (loopJournal 4 1) := by
    unfold Full
    decide
  refine (advanceHead_ends_iff (by decide) (by decide)).mpr fun t reached full => ?_
  rcases reached.cases_head with rfl | ⟨_, step, -⟩
  · exact absurd full free
  · exact absurd step.1 free

/-- A stored count of 2 ^ 32 - 2 blocks. -/
theorem advanceHead_loops : ¬ ∃ fuel, (advanceHead (loopJournal 5 (2 ^ 32 - 2)) 3 fuel).isSome := by
  have full : Full (loopJournal 8 (2 ^ 32 - 2)) := by
    unfold Full
    decide
  have endless : Endless (loopJournal 8 (2 ^ 32 - 2)) := ⟨_, rfl, by decide, by decide⟩
  rintro ⟨fuel, ends⟩
  have never := evictTail_endless full endless (by decide) fuel
  rw [advanceHead_isSome] at ends
  exact absurd (ends.symm.trans (congrArg isSome never)) (by decide)

/-! ## The end of a commit -/

lemma evictTail_outcome (j : Handle) :
    (∃ t, Returns (fun fuel => evictTail fuel j) { j with tail := t }) ∨
      ∀ fuel, evictTail fuel j = none := by
  by_cases ends : ∃ fuel j', evictTail fuel j = some j'
  · obtain ⟨fuel, j', ends⟩ := ends
    obtain ⟨t, rfl⟩ := evictTail_tail ends
    exact .inl ⟨t, (evictTail_steady j).returns ends⟩
  · simp only [not_exists] at ends
    exact .inr fun fuel => eq_none_iff_forall_ne_some.mpr (ends fuel)

def nextHead (j : Handle) (n : Nat) : Nat :=
  if (j.head + n) % 2 ^ 64 ≥ j.journalBlocks then (j.head + n) % 2 ^ 64 - j.journalBlocks
  else (j.head + n) % 2 ^ 64

lemma nextHead_wraps (j : Handle) (n t : Nat) : ∃ t',
    (if (j.head + n) % 2 ^ 64 ≥ j.journalBlocks then if t ≥ j.journalBlocks then
        { j with head := (j.head + n) % 2 ^ 64 - j.journalBlocks, tail := t - j.journalBlocks }
      else { j with head := (j.head + n) % 2 ^ 64 - j.journalBlocks, tail := t }
    else { j with head := (j.head + n) % 2 ^ 64, tail := t }) =
      { j with head := nextHead j n, tail := t' } := by
  unfold nextHead
  split
  · split
    · exact ⟨_, rfl⟩
    · exact ⟨_, rfl⟩
  · exact ⟨_, rfl⟩

/-- `advance_head` rewrites the superblock with the flags as they are, if it ends. -/
lemma advanceHead_outcome (placed : Placed j) (n : Nat) :
    (∃ h t sb, IsSuperblock j.dirty sb ∧ Returns (advanceHead j n)
      ({ j with head := h, tail := t }.push [blockPatch j.blockSize (j.journalStart, sb)])) ∨
    ∀ fuel, advanceHead j n fuel = none := by
  rcases evictTail_outcome { j with head := (j.head + n) % 2 ^ 64 } with ⟨t, bound, ends⟩ | never
  · obtain ⟨t', moved⟩ := nextHead_wraps j n t
    refine .inl ⟨nextHead j n, t', _,
      superblock_isSuperblock { j with head := nextHead j n, tail := t' }, bound,
      fun fuel enough => ?_⟩
    have evicted := ends fuel enough
    simp only [advanceHead, evicted, bind_eq_bind, bind_some, moved]
    have written := writeJsb_eq (j := { j with head := nextHead j n, tail := t' })
      (placed.toSized.congr rfl rfl) placed.start_onDevice placed.total
    rw [written]
  · exact .inr fun fuel => by simp only [advanceHead, never, bind_eq_bind, bind_none]

/-! ## The whole commit -/

def logWrites (j : Handle) (desc commit : Store) : List Patch :=
  blockPatch j.blockSize (j.journalStart + j.head, desc) ::
  (logged j.blockSize (j.journalStart + j.head + 1) j.txn ++
   [blockPatch j.blockSize (j.journalStart + j.head + 1 + j.txn.length, commit)])

lemma logWrites_length (j : Handle) (desc commit : Store) :
    (logWrites j desc commit).length = j.txn.length + 2 := by
  simp [logWrites, logged_length]

def logBlocks (j : Handle) (desc commit : Store) : List (Nat × Store) :=
  (j.head, desc) :: (numbered (j.head + 1) j.txn ++ [(j.head + 1 + j.txn.length, commit)])

lemma logWrites_eq (j : Handle) (desc commit : Store) : logWrites j desc commit =
    (logBlocks j desc commit).map fun w => blockPatch j.blockSize (j.journalStart + w.1, w.2) := by
  simp [logWrites, logBlocks, add_assoc, logged_eq]

lemma logBlocks_length (j : Handle) (desc commit : Store) :
    (logBlocks j desc commit).length = j.txn.length + 2 := by
  rw [← logWrites_length j desc commit, logWrites_eq, length_map]

lemma mem_logBlocks {desc commit : Store} {w : Nat × Store}
    (mem : w ∈ logBlocks j desc commit) : j.head ≤ w.1 ∧ w.1 < j.head + j.txn.length + 2 := by
  simp only [logBlocks, mem_cons, mem_append, not_mem_nil, or_false] at mem
  rcases mem with rfl | mem | rfl
  · omega
  · have := mem_numbered mem
    omega
  · simp only
    omega

lemma writeLog_eq (j : Handle) (desc commit : Store) :
    writeLog j desc commit = writeAll j (logBlocks j desc commit) := by
  rw [writeLog, logBlocks, writeAll]
  cases wrote : journalWriteBlock j j.head desc with
  | none => rfl
  | some j₁ =>
    obtain ⟨-, rfl⟩ := journalWriteBlock_push wrote
    obtain ⟨m, -, run, -⟩ := writeAll_spec (j.push [journalPatch j (j.head, desc)])
      (numbered (j.head + 1) j.txn)
    simp only [writeAll_append, writeDataBlocks_eq, handle_push_head, handle_push_txn, run]
    cases decide (m = (numbered (j.head + 1) j.txn).length) with
    | false => rfl
    | true => rfl

/-- Phases 1 to 3 write all their blocks or stop at the end of the device. -/
lemma writeLog_spec (placed : Placed j) (short : j.txn.length + 1 < 2 ^ 28)
    (desc commit : Store) :
    ∃ m ≤ j.txn.length + 2, writeLog j desc commit = (decide (m = j.txn.length + 2),
      j.push ((logWrites j desc commit).take m)) := by
  obtain ⟨m, mle, run, -⟩ := writeAll_spec j (logBlocks j desc commit)
  have same : (logBlocks j desc commit).map (journalPatch j) = logWrites j desc commit := by
    rw [logWrites_eq]
    refine map_congr_left fun w mem => journalPatch_eq placed.toSized ?_
    have bounds := mem_logBlocks mem
    have small := placed.small (n := w.1 - j.head) (by omega)
    rwa [add_assoc, Nat.add_sub_cancel' bounds.1] at small
  rw [logBlocks_length] at mle run
  rw [writeLog_eq, run, same]
  exact ⟨m, mle, rfl⟩

/-- The writes of phases 1 to 5; `moved` and `clean` are the superblocks that end it. -/
def phaseWrites (j : Handle) (desc commit moved clean : Store) : List Patch :=
  logWrites j desc commit ++ (j.txn.map (checkpointPatch j) ++
    [blockPatch j.blockSize (j.journalStart, moved),
     blockPatch j.blockSize (j.journalStart, clean)])

lemma phaseWrites_length (j : Handle) (desc commit moved clean : Store) :
    (phaseWrites j desc commit moved clean).length = 2 * j.txn.length + 4 := by
  simp only [phaseWrites, logWrites, length_append, length_cons, length_map,
    length_nil, logged_length]
  omega

structure Fits (j : Handle) : Prop extends Placed j where
  short : j.txn.length + 1 < 2 ^ 28
  targets : ∀ w ∈ j.txn, w.1 * sectorsPerBlock j % 2 ^ 32 + sectorsPerBlock j ≤
    j.journalStart * sectorsPerBlock j

namespace Fits

lemma push (fits : Fits j) (ps : List Patch) : Fits (j.push ps) :=
  ⟨⟨fits.toSized.push ps, fits.size, fits.reserve, fits.behind, fits.area, fits.total,
    fits.headOn⟩, fits.short, fits.targets⟩

lemma target_onDevice (fits : Fits j) {w : Nat × Store} (mem : w ∈ j.txn) :
    w.1 * sectorsPerBlock j % 2 ^ 32 + sectorsPerBlock j ≤ j.bdev.totalSectors := by
  apply le_trans (fits.targets w mem)
  apply le_trans _ fits.area
  exact mul_le_mul_right _ (le_add_right _ _)

end Fits

/-- The journal that `advance_head` gets: phases 1 to 4 are done. -/
def stored (j : Handle) (desc commit : Store) : Handle :=
  (checkpoint (writeLog j desc commit).2 (writeLog j desc commit).2.txn).2

/-- The device after a commit, or for good if its eviction loop, which gets `stuck`, never ends. -/
def Leaves (commit : Nat → Option (Int × Handle)) (stuck : Handle) (d : BlockDevice) : Prop :=
  (∃ ret j', Returns commit (ret, j') ∧ j'.bdev = d) ∨ (∀ fuel, commit fuel = none) ∧ stuck.bdev = d

lemma commitPhases_spec (fits : Fits j) (dirty : j.dirty = true) (desc commit : Store) :
    ∃ d moved clean done, Leaves (commitPhases j desc commit) (stored j desc commit) d ∧
      d.log = j.bdev.log ++ (phaseWrites j desc commit moved clean).take done ∧
      IsSuperblock true moved ∧ IsSuperblock false clean := by
  obtain ⟨m, mle, logRun⟩ := writeLog_spec fits.toPlaced fits.short desc commit
  have cut {moved clean : Store} {done : Nat} (early : done ≤ j.txn.length + 2) :
      (phaseWrites j desc commit moved clean).take done = (logWrites j desc commit).take done := by
    rw [phaseWrites, take_append_of_le_length]
    rwa [logWrites_length]
  have super (flag : Bool) := superblock_isSuperblock { j with dirty := flag }
  by_cases whole : m = j.txn.length + 2
  · have all : (logWrites j desc commit).take m = logWrites j desc commit := by
      apply take_of_length_le
      rw [logWrites_length, whole]
    rw [decide_eq_true whole, all] at logRun
    generalize front_eq : logWrites j desc commit = front at logRun
    have checkRun := checkpoint_spec (fits.push front).toSized j.txn fun w mem =>
      (fits.push front).target_onDevice mem
    rw [handle_push_push, show checkpointPatch (j.push front) = checkpointPatch j from rfl]
      at checkRun
    generalize mid : front ++ j.txn.map (checkpointPatch j) = middle at checkRun
    have phases (fuel : Nat) : commitPhases j desc commit fuel =
        (advanceHead (j.push middle) (1 + j.txn.length + 1) fuel).map fun j =>
          (0, freeTransaction (writeJsb { j with dirty := false }).2) := by
      simp only [commitPhases, logRun, handle_push_txn, checkRun]
    rcases advanceHead_outcome (fits.push middle).toPlaced (1 + j.txn.length + 1) with
      ⟨h, t, moved, isSuper, moves⟩ | never
    · let j₃ : Handle := { ({ j.push middle with head := h, tail := t } : Handle).push
        [blockPatch j.blockSize (j.journalStart, moved)] with dirty := false }
      have written : writeJsb j₃ = (0, j₃.push [blockPatch j.blockSize
          (j.journalStart, superblock j₃)]) :=
        writeJsb_eq (fits.toSized.congr rfl rfl) fits.start_onDevice fits.total
      have log : j₃.bdev.log = j.bdev.log ++ middle ++
          [blockPatch j.blockSize (j.journalStart, moved)] := rfl
      refine ⟨_, moved, superblock j₃, 2 * j.txn.length + 4,
        .inl ⟨0, freeTransaction (writeJsb j₃).2, moves.map.congr phases, rfl⟩, ?_, dirty ▸ isSuper,
        superblock_isSuperblock j₃⟩
      rw [← phaseWrites_length j desc commit moved (superblock j₃), take_length, written]
      simp [freeTransaction, log, phaseWrites, ← mid, ← front_eq]
    · refine ⟨_, _, _, middle.length, .inr ⟨fun fuel => ?_, rfl⟩, ?_, super true, super false⟩
      · rw [phases, never, map_none]
      · have stops : stored j desc commit = j.push middle := by
          simp only [stored, logRun, handle_push_txn, checkRun]
        rw [stops, phaseWrites, ← append_assoc, front_eq, mid, take_left]
        rfl
  · refine ⟨_, _, _, m, .inl ⟨-1, freeTransaction (j.push ((logWrites j desc commit).take m)),
      ⟨0, fun fuel _ => ?_⟩, rfl⟩, ?_, super true, super false⟩
    · rw [commitPhases, logRun, decide_eq_false whole]
    · rw [cut mle]
      rfl

structure Open (j : Handle) : Prop extends Fits j where
  initialized : j.initialized = true
  inTransaction : j.inTransaction = true
  used : j.txn.length ≠ 0

/-- All the writes of a commit, in order; `dirty`, `moved` and `clean` are the three
superblocks. -/
def commitWrites (j : Handle) (stack dirty moved clean : Store) : List Patch :=
  blockPatch j.blockSize (j.journalStart, dirty) ::
    phaseWrites j (descriptor j j.sequence) (commitRecord j.sequence stack) moved clean

/-- The device after `journal_commit`, also when it never returns. -/
def CommitLeaves (j : Handle) (stack : Store) : BlockDevice → Prop :=
  Leaves (journalCommit j stack) (stored
    (writeJsb { j with sequence := (j.sequence + 1) % 2 ^ 64, dirty := true }).2
    (descriptor j j.sequence) (commitRecord j.sequence stack))

/-- A commit issues all its writes, or those before the commit record for lack of room on the
device, or those before the eviction loop. -/
lemma journalCommit_writes (ready : Open j) (stack : Store) :
    ∃ d dirty moved clean done, CommitLeaves j stack d ∧
      d.log = j.bdev.log ++ (commitWrites j stack dirty moved clean).take (done + 1) ∧
      IsSuperblock true dirty ∧ IsSuperblock true moved ∧ IsSuperblock false clean := by
  have fits := ready.toFits
  let j₀ : Handle := { j with sequence := (j.sequence + 1) % 2 ^ 64, dirty := true }
  have fits₀ : Fits j₀ := ⟨⟨fits.toSized.congr rfl rfl, fits.size, fits.reserve, fits.behind,
    fits.area, fits.total, fits.headOn⟩, fits.short, fits.targets⟩
  have first := writeJsb_eq fits₀.toSized fits₀.start_onDevice fits₀.total
  obtain ⟨d, moved, clean, done, leaves, log, movedOk, cleanOk⟩ := commitPhases_spec
    (fits₀.push [blockPatch j.blockSize (j.journalStart, superblock j₀)]) rfl
    (descriptor j j.sequence) (commitRecord j.sequence stack)
  refine ⟨d, superblock j₀, moved, clean, done, ?_, ?_, superblock_isSuperblock j₀, movedOk,
    cleanOk⟩
  · have runs : journalCommit j stack = commitPhases (writeJsb j₀).2 (descriptor j j.sequence)
        (commitRecord j.sequence stack) := by
      funext fuel
      rw [journalCommit, if_neg (by simp [ready.initialized, ready.inTransaction]),
        if_neg ready.used]
      rfl
    rw [CommitLeaves, runs, first]
    exact leaves
  · rw [log, commitWrites, take_succ_cons]
    simp
    rfl

end AuroraOS.Journal
