import AuroraOS.Journal.Atomic

/-!
# The journal area

Which device blocks a commit writes.  `journal_commit` counts up from `head` and `advance_head`
wraps only afterwards, and to 0, so a commit near the end of the area writes behind it and the first
one after a wrap over the superblock.
-/

namespace AuroraOS.Journal

open Lib Block List Option Nat

/-! ## Runs of journal calls -/

inductive Op
  | start (maxBlocks : Nat)
  | write (fsBlock : Nat) (data : Store)
  | commit (stack : Store)
  | rollback

inductive Step : Handle → Op → Handle → Prop
  | start (j : Handle) (maxBlocks : Nat) : Step j (.start maxBlocks) (journalBegin j maxBlocks).2
  | write (j : Handle) (fsBlock : Nat) (data : Store) :
      Step j (.write fsBlock data) (journalWrite j fsBlock data).2
  | commit {j j' : Handle} {stack : Store} {fuel : Nat} {ret : Int}
      (ran : journalCommit j stack fuel = some (ret, j')) : Step j (.commit stack) j'
  | rollback (j : Handle) : Step j .rollback (journalRollback j).2

/-- The blocks that a commit of the open transaction logs: descriptor, data and commit record. -/
def logLength (j : Handle) : Nat :=
  if !j.initialized || !j.inTransaction then 0
  else if j.txn.length = 0 then 0 else j.txn.length + 2

def Op.logged (j : Handle) : Op → Nat
  | .commit _ => logLength j
  | _ => 0

inductive Run (j₀ : Handle) : Nat → Handle → Prop
  | start {initialized : Bool} {bdev : BlockDevice} {g : Geometry}
      (opened : journalInit initialized bdev g = (0, j₀)) : Run j₀ 0 j₀
  | step {used : Nat} {j j' : Handle} {op : Op} (run : Run j₀ used j) (step : Step j op j') :
      Run j₀ (used + op.logged j) j'

/-- The journal when a commit reaches phase 1. -/
def marked (j : Handle) : Handle :=
  (writeJsb { j with sequence := (j.sequence + 1) % 2 ^ 64, dirty := true }).2

def logPhase (j : Handle) (stack : Store) : List Patch :=
  if logLength j = 0 then []
  else
    writesSince (marked j).bdev (writeLog (marked j)
      (descriptor { j with sequence := (j.sequence + 1) % 2 ^ 64 } j.sequence)
      (commitRecord j.sequence stack)).2.bdev

def blockBytes (j : Handle) : Nat := sectorsPerBlock j * j.bdev.blockSize

/-- The write is inside the journal area and behind its superblock. -/
def InArea (j : Handle) (p : Patch) : Prop :=
  (j.journalStart + 1) * blockBytes j ≤ p.addr ∧
    p.addr + p.len ≤ (j.journalStart + j.journalBlocks) * blockBytes j

instance (j : Handle) (p : Patch) : Decidable (InArea j p) := instDecidableAnd

/-! ## What the calls change -/

structure AtOffset (j : Handle) (offset : Nat) (p : Patch) : Prop where
  addr : p.addr = journalToDevice j offset * sectorsPerBlock j % 2 ^ 64 * j.bdev.blockSize
  len : p.len = blockBytes j
  sectors : 0 < sectorsPerBlock j

variable {j j' : Handle}

variable {offset low high fuel used : Nat}

def Between (j : Handle) (low high : Nat) (ps : List Patch) : Prop :=
  ∀ p ∈ ps, ∃ offset, low ≤ offset ∧ offset < high ∧ AtOffset j offset p

variable {ps : List Patch} {p : Patch}

lemma Between.widen {low' high' : Nat}
    (between : Between j low high ps) (lower : low' ≤ low) (higher : high ≤ high') :
    Between j low' high' ps := by
  intro p mem
  obtain ⟨offset, above, below, here⟩ := between p mem
  exact ⟨offset, le_trans lower above, lt_of_lt_of_le below higher, here⟩

lemma between_nil : Between j low high [] := nofun

structure SameArea (j j' : Handle) : Prop where
  blockSize : j'.blockSize = j.blockSize
  journalStart : j'.journalStart = j.journalStart
  journalBlocks : j'.journalBlocks = j.journalBlocks
  sector : j'.bdev.blockSize = j.bdev.blockSize

lemma SameArea.refl (j : Handle) : SameArea j j := ⟨rfl, rfl, rfl, rfl⟩

lemma SameArea.trans {j'' : Handle} (first : SameArea j j') (second : SameArea j' j'') :
    SameArea j j'' :=
  ⟨second.blockSize.trans first.blockSize, second.journalStart.trans first.journalStart,
    second.journalBlocks.trans first.journalBlocks, second.sector.trans first.sector⟩

lemma Between.of_area {j' : Handle} (between : Between j' low high ps) (area : SameArea j j') :
    Between j low high ps := by
  intro p mem
  obtain ⟨offset, above, below, ⟨addr, len, sectors⟩⟩ := between p mem
  have spb : sectorsPerBlock j' = sectorsPerBlock j := by
    rw [sectorsPerBlock, sectorsPerBlock, area.blockSize, area.sector]
  rw [journalToDevice, area.journalStart, spb, area.sector] at addr
  rw [blockBytes, spb, area.sector] at len
  exact ⟨offset, above, below, addr, len, spb ▸ sectors⟩

variable {done : Bool}

variable {txn : List (Nat × Store)}

variable {desc commit : Store}

lemma writeLog_between (ran : writeLog j desc commit = (done, j')) :
    ∃ ps, j' = j.push ps ∧ Between j j.head (j.head + j.txn.length + 2) ps := by
  obtain ⟨m, -, run, positive⟩ := writeAll_spec j (logBlocks j desc commit)
  rw [writeLog_eq, run] at ran
  cases ran
  refine ⟨_, rfl, fun p mem => ?_⟩
  obtain ⟨w, inside, rfl⟩ := mem_map.mp (mem_of_mem_take mem)
  obtain ⟨low, high⟩ := mem_logBlocks inside
  refine ⟨w.1, low, high, rfl, rfl, positive (Nat.pos_of_ne_zero ?_)⟩
  rintro rfl
  cases mem

lemma writeJsb_push (j : Handle) : ∃ ps, (writeJsb j).2 = j.push ps ∧ Between j 0 1 ps := by
  unfold writeJsb
  split
  · exact ⟨[], (handle_push_nil _).symm, between_nil⟩
  · next j₁ wrote =>
      obtain ⟨positive, rfl⟩ := journalWriteBlock_push wrote
      exact ⟨_, rfl, forall_mem_singleton.mpr ⟨0, le_rfl, one_pos, rfl, rfl, positive⟩⟩

def placed (j : Handle) (w : Nat × Store) : Patch :=
  ⟨w.1 * sectorsPerBlock j % 2 ^ 32 * j.bdev.blockSize, blockBytes j, w.2⟩

lemma checkpoint_push (ran : checkpoint j txn = (done, j')) :
    ∃ ps, j' = j.push ps ∧ (done = true → ps = txn.map (placed j)) := by
  induction txn generalizing j with
  | nil =>
    cases ran
    exact ⟨[], (handle_push_nil _).symm, fun _ => rfl⟩
  | cons w txn ih =>
    simp only [checkpoint] at ran
    split at ran
    · cases ran
      exact ⟨[], (handle_push_nil _).symm, fun whole => by cases whole⟩
    next d wrote =>
      obtain ⟨ps, rfl, all⟩ := ih ran
      unfold blockDevWrite at wrote
      split at wrote
      · cases wrote
        exact ⟨placed j w :: ps, handle_push_push j [_] ps,
          fun whole => congrArg (placed j w :: ·) (all whole)⟩
      · cases wrote

lemma advanceHead_head {n : Nat} (ran : advanceHead j n fuel = some j') :
    SameArea j j' ∧ j'.head = nextHead j n ∧ ∃ ps, j'.bdev = j.bdev.push ps ∧ Between j 0 1 ps := by
  unfold advanceHead at ran
  obtain ⟨j₁, evicted, rest⟩ := bind_eq_some_iff.mp ran
  obtain ⟨t, rfl⟩ := evictTail_tail evicted
  have last := some.inj rest
  obtain ⟨t', moved⟩ := nextHead_wraps j n t
  simp only [moved] at last
  obtain ⟨ps, wrote, between⟩ := writeJsb_push { j with head := nextHead j n, tail := t' }
  rw [← last, wrote]
  exact ⟨⟨rfl, rfl, rfl, rfl⟩, rfl, ps, rfl, between.of_area ⟨rfl, rfl, rfl, rfl⟩⟩

variable {ret : Int}

/-- What a commit that returns 0 writes: the blocks of the transaction, and journal blocks up to
the end of its log. -/
def Stores (j j' : Handle) : Prop :=
  ∃ ps qs, j'.bdev = j.bdev.push (ps ++ (j.txn.map (placed j) ++ qs)) ∧
    Between j 0 (j.head + j.txn.length + 2) (ps ++ qs)

/-- A commit leaves the head where it was, or moves it behind the transaction. -/
lemma commitPhases_head (ran : commitPhases j desc commit fuel = some (ret, j')) :
    SameArea j j' ∧ (j'.head = j.head ∨ j'.head = nextHead j (j.txn.length + 2)) ∧
      (ret = 0 → Stores j j') := by
  unfold commitPhases at ran
  split at ran
  · next j₁ wrote =>
      obtain ⟨ps, rfl, _⟩ := writeLog_between wrote
      cases ran
      exact ⟨⟨rfl, rfl, rfl, rfl⟩, .inl rfl, nofun⟩
  · next j₁ wrote =>
      obtain ⟨ps, rfl, log⟩ := writeLog_between wrote
      split at ran
      · next j₂ placed =>
          obtain ⟨qs, rfl, _⟩ := checkpoint_push placed
          cases ran
          exact ⟨⟨rfl, rfl, rfl, rfl⟩, .inl rfl, nofun⟩
      · next j₂ placed =>
          obtain ⟨_, rfl, all⟩ := checkpoint_push placed
          obtain rfl := all rfl
          obtain ⟨j₃, advanced, same⟩ := map_eq_some_iff.mp ran
          obtain ⟨area, head, qs, device, moved⟩ := advanceHead_head advanced
          obtain ⟨rs, wrote, clean⟩ := writeJsb_push { j₃ with dirty := false }
          rw [wrote] at same
          cases same
          have count : 1 + j.txn.length + 1 = j.txn.length + 2 := by omega
          refine ⟨?_, .inr ?_, fun _ => ⟨ps, qs ++ rs, ?_, ?_⟩⟩
          · exact ⟨area.blockSize, area.journalStart, area.journalBlocks, area.sector⟩
          · rw [← count]
            exact head
          · show j₃.bdev.push rs = _
            rw [device]
            simp only [Handle.push, push_push, append_assoc]
            rfl
          · have later : ∀ {ts}, Between j 0 1 ts → Between j 0 (j.head + j.txn.length + 2) ts :=
              fun super => super.widen le_rfl (by omega)
            exact forall_mem_append.mpr ⟨log.widen (zero_le _) le_rfl, forall_mem_append.mpr
              ⟨later (moved.of_area ⟨rfl, rfl, rfl, rfl⟩), later (clean.of_area
                ⟨area.blockSize, area.journalStart, area.journalBlocks, area.sector⟩)⟩⟩

lemma journalCommit_head {stack : Store} (ran : journalCommit j stack fuel = some (ret, j')) :
    SameArea j j' ∧ (j'.head = j.head ∨ j'.head = nextHead j (logLength j)) ∧
      (ret = 0 → Stores j j') := by
  unfold journalCommit at ran
  unfold logLength
  split at ran
  · cases ran
    exact ⟨SameArea.refl j, .inl rfl, nofun⟩
  next ready =>
    rw [if_neg ready]
    split at ran
    · next empty =>
        cases ran
        refine ⟨⟨rfl, rfl, rfl, rfl⟩, .inl rfl, fun _ => ⟨[], [], ?_, nofun⟩⟩
        rw [length_eq_zero_iff.mp empty]
        exact (push_nil _).symm
    · next used =>
        rw [if_neg used]
        obtain ⟨ps, wrote, dirty⟩ :=
          writeJsb_push { j with sequence := (j.sequence + 1) % 2 ^ 64, dirty := true }
        simp only [wrote] at ran
        obtain ⟨area, head, stores⟩ := commitPhases_head ran
        refine ⟨⟨area.blockSize, area.journalStart, area.journalBlocks, area.sector⟩, head,
          fun zero => ?_⟩
        obtain ⟨qs, rs, device, between⟩ := stores zero
        refine ⟨ps ++ qs, rs, ?_, ?_⟩
        · rw [device]
          simp only [Handle.push, push_push, append_assoc]
          rfl
        · have first : Between j 0 1 ps := dirty.of_area ⟨rfl, rfl, rfl, rfl⟩
          have rest : Between j 0 (j.head + j.txn.length + 2) (qs ++ rs) :=
            between.of_area ⟨rfl, rfl, rfl, rfl⟩
          rw [append_assoc]
          exact forall_mem_append.mpr ⟨first.widen le_rfl (by omega), rest⟩

lemma Step.head {op : Op} (step : Step j op j') :
    SameArea j j' ∧ (j'.head = j.head ∨ j'.head = nextHead j (op.logged j)) := by
  cases step with
  | start maxBlocks =>
    unfold journalBegin
    split
    · exact ⟨SameArea.refl j, .inl rfl⟩
    · split
      · exact ⟨SameArea.refl j, .inl rfl⟩
      · exact ⟨⟨rfl, rfl, rfl, rfl⟩, .inl rfl⟩
  | write fsBlock data =>
    unfold journalWrite
    split
    · exact ⟨SameArea.refl j, .inl rfl⟩
    · split
      · exact ⟨SameArea.refl j, .inl rfl⟩
      · exact ⟨⟨rfl, rfl, rfl, rfl⟩, .inl rfl⟩
  | commit ran =>
    obtain ⟨area, head, _⟩ := journalCommit_head ran
    exact ⟨area, head⟩
  | rollback =>
    unfold journalRollback
    split
    · exact ⟨SameArea.refl j, .inl rfl⟩
    · exact ⟨⟨rfl, rfl, rfl, rfl⟩, .inl rfl⟩

/-! ## Where the log goes -/

variable {j₀ : Handle}

lemma Run.area (run : Run j₀ used j) : SameArea j₀ j := by
  induction run with
  | start => exact SameArea.refl _
  | step _ step ih => exact ih.trans step.head.1

/-- As long as the area is not used up, the head has not wrapped. -/
lemma Run.head (run : Run j₀ used j) (first : 1 ≤ j₀.head)
    (low : j₀.journalBlocks ≤ 2 ^ 64) (room : j₀.head + used < j₀.journalBlocks) :
    1 ≤ j.head ∧ j.head ≤ j₀.head + used := by
  induction run with
  | start => exact ⟨first, le_refl _⟩
  | @step used j j' op run step ih =>
    rcases step.head.2 with same | moved
    · omega
    · have small : (j.head + op.logged j) % 2 ^ 64 = j.head + op.logged j :=
        mod_eq_of_lt (by omega)
      rw [nextHead, run.area.journalBlocks, small, if_neg (by omega)] at moved
      omega

lemma AtOffset.place (here : AtOffset j offset p) (below : offset < j.journalBlocks)
    (sectors : (j.journalStart + j.journalBlocks) * sectorsPerBlock j ≤ 2 ^ 64) :
    p.addr = (j.journalStart + offset) * blockBytes j := by
  obtain ⟨addr, _, positive⟩ := here
  have lower : (j.journalStart + offset) * sectorsPerBlock j < 2 ^ 64 := by
    apply lt_of_lt_of_le _ sectors
    exact mul_lt_mul_of_pos_right (by omega) positive
  have block : j.journalStart + offset < 2 ^ 64 :=
    (Nat.le_mul_of_pos_right _ positive).trans_lt lower
  rw [addr, journalToDevice, mod_eq_of_lt block, mod_eq_of_lt lower, mul_assoc]
  rfl

lemma AtOffset.inArea (here : AtOffset j offset p)
    (above : 1 ≤ offset) (below : offset < j.journalBlocks)
    (sectors : (j.journalStart + j.journalBlocks) * sectorsPerBlock j ≤ 2 ^ 64) : InArea j p := by
  rw [InArea, here.place below sectors, here.len, ← succ_mul]
  exact ⟨mul_le_mul_right _ (by omega), mul_le_mul_right _ (by omega)⟩

lemma logPhase_between (stack : Store) :
    Between j j.head (j.head + logLength j) (logPhase j stack) := by
  unfold logPhase
  split
  · exact between_nil
  next busy =>
    have length : logLength j = j.txn.length + 2 := by
      unfold logLength at busy ⊢
      split
      · next off => rw [if_pos off] at busy; exact absurd rfl busy
      · next on =>
          split
          · next empty => rw [if_neg on, if_pos empty] at busy; exact absurd rfl busy
          · rfl
    obtain ⟨ps, wrote, _⟩ :=
      writeJsb_push { j with sequence := (j.sequence + 1) % 2 ^ 64, dirty := true }
    generalize descriptor { j with sequence := (j.sequence + 1) % 2 ^ 64 } j.sequence = desc
    generalize ran : writeLog (marked j) desc (commitRecord j.sequence stack) = r
    obtain ⟨done, j'⟩ := r
    obtain ⟨qs, rfl, between⟩ := writeLog_between ran
    have new : writesSince (marked j).bdev ((marked j).push qs).bdev = qs := drop_left
    rw [new, length]
    rw [marked, wrote] at between
    exact between.of_area ⟨rfl, rfl, rfl, rfl⟩

/-- When the journal was opened with a head behind the superblock, and all the transactions given to
the log since then fit between that head and the end of the area, a commit writes its log inside the
area. -/
theorem log_inside_area {j₀ : Handle} {used : Nat} (run : Run j₀ used j) (stack : Store)
    (first : 1 ≤ j₀.head)
    (sectors : (j₀.journalStart + j₀.journalBlocks) * sectorsPerBlock j₀ ≤ 2 ^ 64)
    (room : j₀.head + used + logLength j ≤ j₀.journalBlocks) :
    ∀ p ∈ logPhase j stack, InArea j p := by
  intro p mem
  obtain ⟨offset, above, below, here⟩ := logPhase_between stack p mem
  have area := run.area
  have same : sectorsPerBlock j = sectorsPerBlock j₀ := by
    rw [sectorsPerBlock, sectorsPerBlock, area.blockSize, area.sector]
  have low : j₀.journalBlocks ≤ 2 ^ 64 := by
    have positive := here.sectors
    rw [same] at positive
    have wide := Nat.le_mul_of_pos_right (j₀.journalStart + j₀.journalBlocks) positive
    omega
  obtain ⟨one, most⟩ := run.head first low (by omega)
  apply here.inArea (by omega)
  · rw [area.journalBlocks]
    omega
  · rw [area.journalStart, area.journalBlocks, same]
    exact sectors

/-! ## What a commit stores -/

def Foreign (j : Handle) (b : Nat) : Prop :=
  b < j.journalStart ∨ j.journalStart + j.journalBlocks ≤ b

instance (j : Handle) (b : Nat) : Decidable (Foreign j b) := instDecidableOr

/-- Each block outside the journal area holds the data of the last `journal_write` that names it
when a commit has returned 0, and what it held before when there is none. -/
theorem commit_stores {calls : List (Nat × Store)} {maxBlocks : Nat} {stack : Store}
    (initialized : j.initialized = true) (idle : j.inTransaction = false)
    (accepts : calls.length ≤ capacity j maxBlocks)
    (targets : ∀ c ∈ calls, c.1 * sectorsPerBlock j < 2 ^ 32 ∧ Foreign j c.1)
    (sectors : (j.journalStart + j.journalBlocks) * sectorsPerBlock j ≤ 2 ^ 64)
    (room : j.head + calls.length + 2 ≤ j.journalBlocks)
    (ran : journalCommit (transaction j maxBlocks calls) stack fuel = some (0, j')) {b i : Nat}
    (foreign : Foreign j b) (inside : i < blockBytes j) :
    j'.bdev.data (b * blockBytes j + i) =
      ((calls.reverse.lookup b).map (· i)).getD (j.bdev.data (b * blockBytes j + i)) := by
  rw [transaction_eq initialized idle, accepted, take_of_length_le accepts] at ran
  obtain ⟨ps, qs, device, between⟩ := (journalCommit_head ran).2.2 rfl
  have out : ∀ p ∈ ps ++ qs, p.Avoids (b * blockBytes j + i) := by
    intro p mem
    obtain ⟨offset, _, below, here⟩ := between p mem
    have low : offset < j.journalBlocks := by
      simp only [withTransaction, length_map] at below
      omega
    have apart : j.journalStart + offset ≠ b := by
      unfold Foreign at foreign
      omega
    have avoids : (blockPatch _ (_, p.bytes)).Avoids _ := blockPatch_avoids inside apart
    rw [Patch.Avoids, here.place low sectors, here.len]
    exact avoids
  have stored : (withTransaction j (capacity j maxBlocks) calls).txn.map
      (placed (withTransaction j (capacity j maxBlocks) calls)) =
        calls.map (blockPatch (blockBytes j)) := by
    show (calls.map cutTarget).map (placed j) = _
    rw [List.map_map]
    refine map_congr_left fun c mem => ?_
    have small := (targets c mem).1
    show (⟨c.1 % 2 ^ 32 * sectorsPerBlock j % 2 ^ 32 * j.bdev.blockSize, _, _⟩ : Patch) = _
    rw [mod_mul_mod, mod_eq_of_lt small, mul_assoc]
    rfl
  obtain ⟨front, back⟩ := forall_mem_append.mp out
  rw [device, stored]
  show overlay j.bdev.data _ _ = _
  rw [overlay_skip front, overlay_append, overlay_of_avoids back, overlay_blocks calls inside]

/-! ## A journal of eight blocks behind a file system of two -/

def emptyDevice : BlockDevice := ⟨512, 20, fun _ => 0, []⟩

def eightBlocks : Geometry :=
  { journalStart := 2, journalBlocks := 8, blockSize := 512, fsTotalBlocks := 2 }

def newJournal : Handle := (journalInit false emptyDevice eightBlocks).2

lemma newJournal_opened : journalInit false emptyDevice eightBlocks = (0, newJournal) := rfl

def zeros (j : Handle) (n : Nat) : Handle := transaction j n (replicate n (0, fun _ => 0))

lemma Run.zeros (run : Run j₀ used j) (n : Nat) : Run j₀ used (Journal.zeros j n) := by
  have writes : ∀ (calls : List (Nat × Store)) {j : Handle}, Run j₀ used j →
      Run j₀ used (calls.foldl (fun j c => (journalWrite j c.1 c.2).2) j) := by
    intro calls
    induction calls with
    | nil => exact fun run => run
    | cons c calls ih => exact fun run => ih (run.step (Step.write _ c.1 c.2))
  exact writes _ (run.step (Step.start _ n))

/-- A first transaction of one block is logged at the device blocks 3 to 5. -/
theorem log_inside_area_newJournal :
    (logPhase (zeros newJournal 1) fun _ => 0).map Patch.addr = [1536, 2048, 2560] ∧
      ∀ p ∈ logPhase (zeros newJournal 1) fun _ => 0, InArea (zeros newJournal 1) p :=
  ⟨by decide +kernel, log_inside_area ((Run.start newJournal_opened).zeros 1) (fun _ => 0)
    (by decide +kernel) (by decide +kernel) (by decide +kernel)⟩

def twice : List (Nat × Store) := [(0, fun _ => 1), (0, fun _ => 2)]

/-- Of two writes to one block the journal keeps the second. -/
theorem commit_stores_twice : ∃ j', journalCommit (transaction newJournal 2 twice) (fun _ => 0) 1 =
    some (0, j') ∧ j'.bdev.data 5 = 2 := by
  have returns : (journalCommit (transaction newJournal 2 twice) (fun _ => 0) 1).map (·.1) =
      some 0 := by
    decide +kernel
  obtain ⟨⟨ret, j'⟩, ran, rfl⟩ := map_eq_some_iff.mp returns
  have stored := commit_stores (j := newJournal) (b := 0) (i := 5) (by decide +kernel)
    (by decide +kernel) (by decide +kernel) (by decide +kernel) (by decide +kernel)
    (by decide +kernel) ran (by decide +kernel) (by decide +kernel)
  exact ⟨j', ran, stored⟩

/-- After a transaction of four blocks, one of one block: its data block and its commit record go
behind the area. -/
theorem log_leaves_area : ∃ used j, Run newJournal used j ∧ logLength j = 3 ∧
    ∃ p ∈ logPhase j fun _ => 0, ¬ InArea j p := by
  have evaluated : ((journalCommit (zeros newJournal 4) (fun _ => 0) 1).any fun r =>
      logLength (zeros r.2 1) == 3 &&
        (logPhase (zeros r.2 1) fun _ => 0).any fun p => !decide (InArea (zeros r.2 1) p)) =
      true := by
    decide +kernel
  obtain ⟨⟨ret, j⟩, ran, rest⟩ := (any_eq_true _ _).mp evaluated
  obtain ⟨length, outside⟩ := (Bool.and_eq_true _ _).mp rest
  obtain ⟨p, mem, out⟩ := any_eq_true.mp outside
  have run := (((Run.start newJournal_opened).zeros 4).step (Step.commit ran)).zeros 1
  refine ⟨_, _, run, eq_of_beq length, p, mem, ?_⟩
  exact of_decide_eq_false ((Bool.not_eq_true' _).mp out)

end AuroraOS.Journal
