import AuroraOS.Journal.Crash

/-!
# Atomicity of transactions over a crash

A transaction is built, committed, cut off after any number of its writes, and opened again by
`journal_init`.
-/

namespace AuroraOS.Journal

open Lib Block List

variable {j : Handle}

/-! ## Building a transaction -/

/-- A journal without an open transaction whose superblock on the device is clean. -/
structure CleanState (j : Handle) : Prop extends Placed j where
  block : 512 ≤ j.blockSize
  initialized : j.initialized = true
  idle : j.inTransaction = false
  magic : leRead j.bdev.data (j.journalStart * j.blockSize) 4 = journalMagicSb
  clean : leRead j.bdev.data (j.journalStart * j.blockSize + 52) 4 = 0

def transaction (j : Handle) (maxBlocks : Nat) (calls : List (Nat × Store)) : Handle :=
  calls.foldl (fun j c => (journalWrite j c.1 c.2).2) (journalBegin j maxBlocks).2

def capacity (j : Handle) (maxBlocks : Nat) : Nat :=
  min (max 1 maxBlocks) ((j.blockSize - 36) / 20)

def accepted (j : Handle) (maxBlocks : Nat) (calls : List (Nat × Store)) : List (Nat × Store) :=
  calls.take (capacity j maxBlocks)

def cutTarget (c : Nat × Store) : Nat × Store := (c.1 % 2 ^ 32, c.2)

def withTransaction (j : Handle) (cap : Nat) (calls : List (Nat × Store)) : Handle :=
  { j with inTransaction := true, txnCapacity := cap, txn := calls.map cutTarget }

lemma foldl_journalWrite (calls : List (Nat × Store)) (initialized : j.initialized = true)
    (inTransaction : j.inTransaction = true) :
    calls.foldl (fun j c => (journalWrite j c.1 c.2).2) j =
      { j with txn := j.txn ++ (calls.take (j.txnCapacity - j.txn.length)).map cutTarget } := by
  induction calls generalizing j with
  | nil => simp
  | cons c calls ih =>
    rw [foldl_cons]
    by_cases full : j.txn.length ≥ j.txnCapacity
    · have refused : (journalWrite j c.1 c.2).2 = j := by
        simp [journalWrite, full]
      rw [refused, ih initialized inTransaction, Nat.sub_eq_zero_of_le full]
      simp
    · have taken : (journalWrite j c.1 c.2).2 = { j with txn := j.txn ++ [cutTarget c] } := by
        simp [journalWrite, initialized, inTransaction, full, cutTarget]
      rw [taken, ih (by exact initialized) (by exact inTransaction)]
      obtain ⟨room, left⟩ : ∃ room, j.txnCapacity - j.txn.length = room + 1 :=
        ⟨j.txnCapacity - j.txn.length - 1, by omega⟩
      simp [left, show j.txnCapacity - (j.txn.length + 1) = room by omega]

lemma transaction_eq (initialized : j.initialized = true) (idle : j.inTransaction = false)
    (maxBlocks : Nat) (calls : List (Nat × Store)) :
    transaction j maxBlocks calls =
      withTransaction j (capacity j maxBlocks) (accepted j maxBlocks calls) := by
  have begun : (journalBegin j maxBlocks).2 =
      { j with inTransaction := true, txn := [], txnCapacity := capacity j maxBlocks } := by
    have size : (if (if maxBlocks = 0 then 1 else maxBlocks) > (j.blockSize - 36) / 20 then
        (j.blockSize - 36) / 20 else if maxBlocks = 0 then 1 else maxBlocks) =
        capacity j maxBlocks := by
      rw [capacity]
      split <;> split at * <;> omega
    simp only [journalBegin, initialized, idle, size]
    rfl
  rw [transaction, begun, foldl_journalWrite]
  · simp [accepted, withTransaction]
  · exact initialized
  · rfl

variable {calls : List (Nat × Store)}

lemma withTransaction_fits (state : CleanState j) (cap : Nat)
    (targets : ∀ c ∈ calls, c.1 < j.fsTotalBlocks)
    (few : calls.length ≤ (j.blockSize - 36) / 20) : Fits (withTransaction j cap calls) := by
  refine ⟨⟨state.toSized.congr rfl rfl, state.size, state.reserve, state.behind, state.area,
    state.total, state.headOn⟩, ?_, ?_⟩
  · have size := state.size
    simp only [withTransaction, length_map]
    omega
  intro w mem
  obtain ⟨c, inCalls, rfl⟩ := mem_map.mp mem
  have below := targets c inCalls
  have behind := state.behind
  show c.1 % 2 ^ 32 * sectorsPerBlock j % 2 ^ 32 + sectorsPerBlock j ≤
    j.journalStart * sectorsPerBlock j
  have reach : (c.1 % 2 ^ 32 + 1) * sectorsPerBlock j ≤ j.journalStart * sectorsPerBlock j := by
    apply Nat.mul_le_mul_right
    omega
  rw [add_mul] at reach
  omega

lemma accepted_length_le (j : Handle) (maxBlocks : Nat) (calls : List (Nat × Store)) :
    (accepted j maxBlocks calls).length ≤ (j.blockSize - 36) / 20 := by
  simp only [accepted, length_take, capacity]
  omega

/-! ## Atomicity -/

def SameOn (size : Nat) (calls : List (Nat × Store)) (data data' : Store) : Prop :=
  ∀ c ∈ calls, ∀ i < size, data (c.1 * size + i) = data' (c.1 * size + i)

def newContents (j : Handle) (calls : List (Nat × Store)) : Store :=
  overlay j.bdev.data (calls.map (blockPatch j.blockSize))

def checkpointed (j : Handle) (calls : List (Nat × Store)) (m : Nat) : Store :=
  overlay j.bdev.data ((calls.map (checkpointPatch j)).take m)

/-- What a boot after `k` of the writes of a commit owes to the transaction. -/
@[mk_iff]
structure CrashAtomic (j : Handle) (calls : List (Nat × Store)) (writes : List Patch) (k : Nat) :
    Prop where
  opens : (journalInit false (j.bdev.crash writes k) j.geometry).1 = 0
  atomic :
    SameOn j.blockSize calls
      (journalInit false (j.bdev.crash writes k) j.geometry).2.bdev.data j.bdev.data ∨
    SameOn j.blockSize calls
      (journalInit false (j.bdev.crash writes k) j.geometry).2.bdev.data (newContents j calls)
  durable : (∃ p ∈ writes.take k, IsCommitRecord j calls.length p) →
    SameOn j.blockSize calls
      (journalInit false (j.bdev.crash writes k) j.geometry).2.bdev.data (newContents j calls)

/-- The crashes that the journal survives: before the first write, after the last one,
and, when the descriptor has replaced the superblock, those that leave the targets all
old or all new. -/
def Survives (j : Handle) (calls : List (Nat × Store)) (k : Nat) : Prop :=
  k = 0 ∨
  (k = 2 * calls.length + 5 ∧
    SameOn j.blockSize calls (checkpointed j calls calls.length) (newContents j calls)) ∨
  (j.head = 0 ∧ 2 ≤ k ∧ k ≤ 2 * calls.length + 3 ∧ (calls.length + 3 ≤ k →
    SameOn j.blockSize calls (checkpointed j calls (k - (calls.length + 3))) (newContents j calls)))

lemma checkpointPatch_cutTarget (j : Handle) (c : Nat × Store) :
    checkpointPatch j (cutTarget c) = checkpointPatch j c := by
  simp only [checkpointPatch, cutTarget, Nat.mod_mul_mod]

lemma sameOn_image {data image : Store} (wanted : Store) (same : ∀ c ∈ calls, ∀ i < j.blockSize,
      data (c.1 * j.blockSize + i) = image (c.1 * j.blockSize + i)) :
    SameOn j.blockSize calls data wanted ↔ SameOn j.blockSize calls image wanted :=
  forall₂_congr fun c mem => forall₂_congr fun i inside => by rw [same c mem i inside]

lemma crashAtomic_iff_survives (state : CleanState j) {cap : Nat}
    (targets : ∀ c ∈ calls, c.1 < j.fsTotalBlocks) (fits : Fits (withTransaction j cap calls))
    {stack dirty moved clean : Store}
    (dirtyOk : IsSuperblock true dirty) (movedOk : IsSuperblock true moved)
    (cleanOk : IsSuperblock false clean) {k : Nat} (short : k ≤ 2 * calls.length + 5) :
    CrashAtomic j calls (commitWrites (withTransaction j cap calls) stack dirty moved clean) k ↔
      Survives j calls k := by
  let t := withTransaction j cap calls
  have count : t.txn.length = calls.length := length_map _
  have patches : t.txn.map (checkpointPatch t) = calls.map (checkpointPatch j) := by
    rw [show t.txn = calls.map cutTarget from rfl, map_map]
    exact map_congr_left fun c _ => checkpointPatch_cutTarget j c
  have recorded : (∃ p ∈ (commitWrites t stack dirty moved clean).take k,
      IsCommitRecord j calls.length p) ↔ calls.length + 3 ≤ k := by
    rw [← count]
    exact commitRecord_mem_iff (j := t) stack dirty moved clean
      (Nat.lt_of_lt_of_le (by omega) state.block)
  have outcome := journalInit_crash (k := k) stack fits state.block state.magic state.clean dirtyOk
    movedOk cleanOk (by rw [count]; exact short)
  have image : ∀ c ∈ calls, ∀ i < j.blockSize,
      (j.bdev.crash (commitWrites t stack dirty moved clean) k).data (c.1 * j.blockSize + i) =
        checkpointed j calls (k - (calls.length + 3)) (c.1 * j.blockSize + i) := by
    intro c mem i inside
    have before : c.1 < j.journalStart := (targets c mem).trans_le state.behind
    rw [checkpointed, ← patches, ← count]
    exact image_target (j := t) inside before
  have opens : Opens t k ↔ k = 0 ∨ k = 2 * calls.length + 5 ∨
      j.head = 0 ∧ 2 ≤ k ∧ k ≤ 2 * calls.length + 3 := by
    rw [Opens, count]
    rfl
  rw [opens] at outcome
  rcases outcome with ⟨reached, ok, kept⟩ | ⟨shut, failed⟩
  · have result (wanted : Store) := sameOn_image wanted fun c mem i inside =>
      (kept c.1 ((targets c mem).trans_le state.behind) i inside).trans (image c mem i inside)
    -- the boot has changed nothing, so only the checkpoint counts
    have settled : CrashAtomic j calls (commitWrites t stack dirty moved clean) k ↔
        (calls.length + 3 ≤ k → SameOn j.blockSize calls
          (checkpointed j calls (k - (calls.length + 3))) (newContents j calls)) := by
      constructor
      · intro atomic enough
        exact (result _).mp (atomic.durable (recorded.mpr enough))
      intro landed
      refine ⟨ok, ?_, fun found => (result _).mpr (landed (recorded.mp found))⟩
      by_cases enough : calls.length + 3 ≤ k
      · exact .inr ((result _).mpr (landed enough))
      · refine .inl ((result _).mpr ?_)
        rw [Nat.sub_eq_zero_of_le (by omega)]
        exact fun _ _ _ _ => rfl
    rw [settled]
    have whole : checkpointed j calls (2 * calls.length + 5 - (calls.length + 3)) =
        checkpointed j calls calls.length := by
      rw [checkpointed, checkpointed, take_of_length_le, take_of_length_le]
      · rw [length_map]
      · rw [length_map]
        omega
    constructor
    · intro landed
      rcases reached with first | last | ⟨head, low, high⟩
      · exact .inl first
      · rw [last, whole] at landed
        exact .inr (.inl ⟨last, landed (by omega)⟩)
      · exact .inr (.inr ⟨head, low, high, landed⟩)
    · intro survives enough
      rcases survives with first | ⟨last, landed⟩ | ⟨-, -, -, landed⟩
      · omega
      · rw [last, whole]
        exact landed
      · exact landed enough
  · constructor
    · intro atomic
      cases failed.symm.trans atomic.opens
    · intro survives
      rcases survives with first | ⟨last, -⟩ | ⟨head, low, high, -⟩
      · exact absurd (.inl first) shut
      · exact absurd (.inr (.inl last)) shut
      · exact absurd (.inr (.inr ⟨head, low, high⟩)) shut

def writesSince (before after : BlockDevice) : List Patch := after.log.drop before.log.length

lemma crashAtomic_take {writes : List Patch} {done k : Nat} (within : k ≤ done) :
    CrashAtomic j calls (writes.take done) k ↔ CrashAtomic j calls writes k := by
  have cut : (writes.take done).take k = writes.take k := by
    rw [take_take, min_eq_left within]
  have image : j.bdev.crash (writes.take done) k = j.bdev.crash writes k := by
    rw [BlockDevice.crash, BlockDevice.crash, cut]
  rw [crashAtomic_iff, crashAtomic_iff, image, cut]

lemma transaction_commit (state : CleanState j) (maxBlocks : Nat)
    (targets : ∀ c ∈ calls, c.1 < j.fsTotalBlocks) (stack : Store)
    (used : (accepted j maxBlocks calls).length ≠ 0) :
    ∃ d writes done, CommitLeaves (transaction j maxBlocks calls) stack d ∧
      writesSince j.bdev d = writes.take done ∧ 1 ≤ (writes.take done).length ∧
      ∀ k ≤ (writes.take done).length, CrashAtomic j (accepted j maxBlocks calls) writes k ↔
          Survives j (accepted j maxBlocks calls) k := by
  have valid : ∀ c ∈ accepted j maxBlocks calls, c.1 < j.fsTotalBlocks := fun c mem =>
    targets c (mem_of_mem_take mem)
  have fits := withTransaction_fits state (capacity j maxBlocks) valid
    (accepted_length_le j maxBlocks calls)
  have size : (withTransaction j (capacity j maxBlocks)
      (accepted j maxBlocks calls)).txn.length = (accepted j maxBlocks calls).length :=
    length_map _
  obtain ⟨d, dirty, moved, clean, done, leaves, log, dirtyOk, movedOk, cleanOk⟩ :=
    journalCommit_writes ⟨fits, state.initialized, rfl, by rw [size]; exact used⟩ stack
  rw [← transaction_eq state.initialized state.idle] at leaves
  refine ⟨d, commitWrites (withTransaction j (capacity j maxBlocks) (accepted j maxBlocks calls))
    stack dirty moved clean, done + 1, leaves, ?_, ?_, fun k within => ?_⟩
  · rw [writesSince, log]
    exact drop_left
  · rw [length_take, commitWrites, length_cons]
    omega
  · rw [length_take, commitWrites, length_cons, phaseWrites_length, size] at within
    exact crashAtomic_iff_survives state valid fits dirtyOk movedOk cleanOk (by omega)

/-- The journal survives a crash exactly in the cases of `Survives`: every other prefix
of the writes leaves a dirty superblock, and the recovery that `journal_init` then asks
for refuses to run. -/
theorem commit_crashAtomic_iff (state : CleanState j) (maxBlocks : Nat)
    (calls : List (Nat × Store)) (targets : ∀ c ∈ calls, c.1 < j.fsTotalBlocks) (stack : Store) :
    ∃ d, CommitLeaves (transaction j maxBlocks calls) stack d ∧ ∀ k ≤ (writesSince j.bdev d).length,
        CrashAtomic j (accepted j maxBlocks calls) (writesSince j.bdev d) k ↔
          Survives j (accepted j maxBlocks calls) k := by
  by_cases used : (accepted j maxBlocks calls).length = 0
  · -- an empty transaction writes nothing
    have empty := eq_nil_of_length_eq_zero used
    refine ⟨_, .inl ⟨0, freeTransaction (transaction j maxBlocks calls), ⟨0, fun fuel _ => ?_⟩,
      rfl⟩, ?_⟩
    · rw [transaction_eq state.initialized state.idle, empty, journalCommit, if_neg, if_pos]
      · rfl
      · simp [withTransaction, state.initialized]
    have quiet : writesSince j.bdev (freeTransaction (transaction j maxBlocks calls)).bdev =
        [] := by
      rw [transaction_eq state.initialized state.idle]
      exact drop_length
    rw [quiet, empty]
    intro k within
    obtain rfl : k = 0 := by simpa using within
    refine ⟨fun _ => .inl rfl, fun _ => ⟨?_, .inl (by simp [SameOn]), by simp⟩⟩
    exact ((journalInit_marked (d := j.bdev.crash [] 0) state.toPlaced state.block ⟨rfl, rfl⟩
      false state.magic state.clean).1 rfl).1
  · obtain ⟨d, writes, done, leaves, log, -, agrees⟩ :=
      transaction_commit state maxBlocks targets stack used
    refine ⟨d, leaves, fun k within => ?_⟩
    rw [log] at within ⊢
    have bound : k ≤ done := by
      rw [length_take] at within
      omega
    rw [crashAtomic_take bound]
    exact agrees k within

/-! ## A journal of eight blocks -/

def smallJournal : Handle :=
  let j : Handle :=
    { bdev := ⟨512, 10, fun _ => 0, []⟩, blockSize := 512, journalStart := 2, journalBlocks := 8
      fsTotalBlocks := 2, head := 1, tail := 1, sequence := 1, initialized := true }
  { j with bdev := ⟨512, 10, overlay (fun _ => 0) [blockPatch 512 (2, superblock j)], []⟩ }

lemma smallJournal_clean : CleanState smallJournal := by
  refine ⟨⟨⟨?_, ?_, ?_, ?_⟩, ?_, ?_, ?_, ?_, ?_, ?_⟩, ?_, rfl, rfl, ?_, ?_⟩ <;> decide

def oneBlock : List (Nat × Store) := [(0, fun _ => 1)]

lemma oneBlock_targets : ∀ c ∈ oneBlock, c.1 < smallJournal.fsTotalBlocks := by decide

theorem commit_crashAtomic_iff_smallJournal :
    CleanState smallJournal ∧ (∀ c ∈ oneBlock, c.1 < smallJournal.fsTotalBlocks) ∧
    ∃ d, CommitLeaves (transaction smallJournal 1 oneBlock) (fun _ => 0) d ∧
      ∀ k ≤ (writesSince smallJournal.bdev d).length,
        CrashAtomic smallJournal (accepted smallJournal 1 oneBlock)
          (writesSince smallJournal.bdev d) k ↔
        Survives smallJournal (accepted smallJournal 1 oneBlock) k :=
  ⟨smallJournal_clean, oneBlock_targets,
    commit_crashAtomic_iff smallJournal_clean 1 oneBlock oneBlock_targets fun _ => 0⟩

/-- A crash right after the first write of the commit, the dirty superblock: the journal
does not open any more. -/
theorem smallJournal_crash_after_first_write :
    CleanState smallJournal ∧ (∀ c ∈ oneBlock, c.1 < smallJournal.fsTotalBlocks) ∧
    ∃ d, CommitLeaves (transaction smallJournal 1 oneBlock) (fun _ => 0) d ∧
      1 ≤ (writesSince smallJournal.bdev d).length ∧
      ¬ CrashAtomic smallJournal (accepted smallJournal 1 oneBlock)
        (writesSince smallJournal.bdev d) 1 := by
  refine ⟨smallJournal_clean, oneBlock_targets, ?_⟩
  obtain ⟨d, writes, done, leaves, log, positive, decided⟩ :=
    transaction_commit smallJournal_clean 1 oneBlock_targets (fun _ => 0) (by decide)
  refine ⟨d, leaves, by rw [log]; exact positive, ?_⟩
  have bound : 1 ≤ done := by
    rw [length_take] at positive
    omega
  rw [log, crashAtomic_take bound, decided 1 positive]
  rintro (first | ⟨last, -⟩ | ⟨head, -⟩)
  · omega
  · revert last
    decide
  · revert head
    decide

end AuroraOS.Journal
