import AuroraOS.Sched.Model
import Mathlib.Data.Set.Insert

/-!
# The allocator of process ids

`alloc_pid` and `free_pid` of `kernel/sched.c` over the words of `pid_bitmap`; the scheduler's own
model reads them as a predicate (`PidMap.Reads`).
-/

namespace AuroraOS.Sched

open Function Relation

structure PidMap where
  words : Nat → BitVec 64
  nextPid : Nat

namespace PidMap

def pidSetBit (m : PidMap) (pid : Nat) : PidMap :=
  { m with
    words := update m.words (pid / 64) (m.words (pid / 64) ||| 1#64 <<< (pid % 64)) }

def pidClearBit (m : PidMap) (pid : Nat) : PidMap :=
  { m with
    words := update m.words (pid / 64) (m.words (pid / 64) &&& ~~~(1#64 <<< (pid % 64))) }

def pidTestBit (m : PidMap) (pid : Nat) : Bool := (m.words (pid / 64) >>> (pid % 64)).getLsbD 0

def next (pid : Nat) : Nat := if pid + 1 ≥ maxPid then 2 else pid + 1

def scan : Nat → PidMap → Option Nat × PidMap
  | 0, m => (none, m)
  | attempts + 1, m =>
    let pid := m.nextPid
    let m := { m with nextPid := next pid }
    if m.pidTestBit pid then scan attempts m else (some pid, m.pidSetBit pid)

def allocPid (m : PidMap) : Option Nat × PidMap := scan maxPid ((m.pidSetBit 0).pidSetBit 1)

def freePid (m : PidMap) (pid : Nat) : PidMap :=
  if 2 ≤ pid ∧ pid < maxPid then m.pidClearBit pid else m

variable {m : PidMap} {held : Set Nat} {n c i j pid : Nat}

lemma eq_iff_of_word (word : j / 64 = i / 64) : j = i ↔ j % 64 = i % 64 := by omega

@[simp] lemma pidTestBit_set :
    (m.pidSetBit i).pidTestBit j = (decide (j = i) || m.pidTestBit j) := by
  have small : j % 64 < 64 := Nat.mod_lt _ (by omega)
  by_cases word : j / 64 = i / 64
  · simp [pidTestBit, pidSetBit, eq_iff_of_word word, word, ← BitVec.twoPow_eq, small,
      Bool.or_comm]
  · have other : j ≠ i := fun same => word (by rw [same])
    simp [pidTestBit, pidSetBit, word, other]

@[simp] lemma pidTestBit_clear :
    (m.pidClearBit i).pidTestBit j = (!decide (j = i) && m.pidTestBit j) := by
  have small : j % 64 < 64 := Nat.mod_lt _ (by omega)
  by_cases word : j / 64 = i / 64
  · simp [pidTestBit, pidClearBit, eq_iff_of_word word, word, ← BitVec.twoPow_eq, small,
      Bool.and_comm]
  · have other : j ≠ i := fun same => word (by rw [same])
    simp [pidTestBit, pidClearBit, word, other]

structure Reads (m : PidMap) (s : State) : Prop where
  bits : s.pidBitmap = m.pidTestBit
  cursor : s.nextPid = m.nextPid

lemma pidTestBit_set_eq : (m.pidSetBit i).pidTestBit = update m.pidTestBit i true := by
  funext j
  by_cases same : j = i <;> simp [same]

lemma Reads.scan {s : State} (reads : Reads m s) :
    (s.allocPidLoop n).1 = (m.scan n).1 ∧ Reads (m.scan n).2 (s.allocPidLoop n).2 := by
  induction n generalizing m s with
  | zero => exact ⟨rfl, reads⟩
  | succ n ih =>
    obtain ⟨bits, cursor⟩ := reads
    have same : s.pidBitmap s.nextPid = m.pidTestBit m.nextPid := by rw [bits, cursor]
    by_cases taken : m.pidTestBit m.nextPid
    · rw [show s.allocPidLoop (n + 1) = _ from if_pos (same.trans taken),
        show m.scan (n + 1) = _ from if_pos taken]
      exact ih ⟨bits, congrArg next cursor⟩
    · rw [show s.allocPidLoop (n + 1) = _ from if_neg (same ▸ taken),
        show m.scan (n + 1) = _ from if_neg taken]
      refine ⟨congrArg some cursor, ?_, congrArg next cursor⟩
      rw [pidTestBit_set_eq, ← cursor]
      exact congrArg (update · _ _) bits

/-! ## The scan -/

lemma next_lt (pid : Nat) : next pid < maxPid := by
  unfold next
  split_ifs
  · decide
  · omega

lemma scan_cases (n : Nat) (cursor : m.nextPid < maxPid) : ∃ c < maxPid,
    (∃ pid < maxPid, m.pidTestBit pid = false ∧
      scan n m = (some pid, { m with nextPid := c }.pidSetBit pid)) ∨
    (∀ i < n, m.pidTestBit (next^[i] m.nextPid)) ∧ scan n m = (none, { m with nextPid := c }) := by
  induction n generalizing m with
  | zero => exact ⟨_, cursor, .inr ⟨by simp, rfl⟩⟩
  | succ n ih =>
    by_cases taken : m.pidTestBit m.nextPid
    · have step : scan (n + 1) m = scan n { m with nextPid := next m.nextPid } := if_pos taken
      rw [step]
      obtain ⟨c, small, free | ⟨all, run⟩⟩ :=
        ih (m := { m with nextPid := next m.nextPid }) (next_lt _)
      · exact ⟨c, small, .inl free⟩
      · refine ⟨c, small, .inr ⟨fun i early => ?_, run⟩⟩
        cases i with
        | zero => exact taken
        | succ i => exact all i (by omega)
    · exact ⟨_, next_lt _, .inl ⟨_, cursor, by simpa using taken, if_neg taken⟩⟩

lemma next_iterate (inside : c + i < maxPid) : next^[i] c = c + i := by
  induction i with
  | zero => rfl
  | succ i ih =>
    rw [iterate_succ_apply', ih (by omega), next, if_neg (by omega)]
    omega

lemma exists_iterate (inside : c < maxPid) (low : 2 ≤ pid) (high : pid < maxPid) :
    ∃ i < maxPid, next^[i] c = pid := by
  by_cases ahead : c ≤ pid
  · refine ⟨pid - c, by omega, ?_⟩
    rw [next_iterate (by omega)]
    omega
  · have wraps : next^[maxPid - 1 - c + 1] c = 2 := by
      rw [iterate_succ_apply', next_iterate (by omega), next, if_pos (by omega)]
    refine ⟨pid - 2 + (maxPid - 1 - c + 1), by omega, ?_⟩
    rw [iterate_add_apply, wraps, next_iterate (by omega)]
    omega

/-! ## Runs -/

inductive Call : PidMap × Set Nat → PidMap × Set Nat → Prop
  | alloc (m : PidMap) (held : Set Nat) :
    Call (m, held) (m.allocPid.2, {pid | m.allocPid.1 = some pid} ∪ held)
  | free (m : PidMap) (held : Set Nat) {pid : Nat} : pid ∈ held →
    Call (m, held) (m.freePid pid, held \ {pid})

/-- The bits of the pids that are allocated are set, and of the two reserved ones. -/
structure Marks (m : PidMap) (held : Set Nat) : Prop where
  bit : ∀ pid < maxPid, m.pidTestBit pid ↔ pid < 2 ∨ pid ∈ held
  range : ∀ pid ∈ held, 2 ≤ pid ∧ pid < maxPid
  cursor : m.nextPid < maxPid

lemma Marks.reserved (marks : Marks m held) (inside : pid < maxPid) :
    ((m.pidSetBit 0).pidSetBit 1).pidTestBit pid ↔ pid < 2 ∨ pid ∈ held := by
  simp only [pidTestBit_set, Bool.or_eq_true, decide_eq_true_eq, marks.bit pid inside]
  constructor
  · rintro (rfl | rfl | set)
    · exact .inl (by omega)
    · exact .inl (by omega)
    · exact set
  · rintro (low | inHeld)
    · omega
    · exact .inr (.inr (.inr inHeld))

lemma Marks.alloc (marks : Marks m held) :
    (∃ pid, 2 ≤ pid ∧ pid < maxPid ∧ pid ∉ held ∧ m.allocPid.1 = some pid ∧
      Marks m.allocPid.2 (insert pid held)) ∨
    (∀ pid, 2 ≤ pid → pid < maxPid → pid ∈ held) ∧ m.allocPid.1 = none ∧
      Marks m.allocPid.2 held := by
  obtain ⟨c, cursor, ⟨pid, inside, free, run⟩ | ⟨all, run⟩⟩ :=
    scan_cases (m := (m.pidSetBit 0).pidSetBit 1) maxPid marks.cursor
  · have fresh := (marks.reserved inside).not.mp (Bool.eq_false_iff.mp free)
    have low : 2 ≤ pid := by omega
    refine .inl ⟨pid, low, inside, fun h => fresh (.inr h), congrArg Prod.fst run, ?_⟩
    rw [allocPid, run]
    refine ⟨fun other small => ?_, ?_, cursor⟩
    · rw [pidTestBit_set, Bool.or_eq_true, decide_eq_true_eq, Set.mem_insert_iff, or_left_comm]
      exact or_congr_right (marks.reserved small)
    · rintro other (rfl | mem)
      · exact ⟨low, inside⟩
      · exact marks.range other mem
  · refine .inr ⟨fun pid low high => ?_, congrArg Prod.fst run, ?_⟩
    · obtain ⟨i, early, rfl⟩ := exists_iterate marks.cursor low high
      exact ((marks.reserved high).mp (all i early)).resolve_left (by omega)
    · rw [allocPid, run]
      exact ⟨fun pid small => marks.reserved small, marks.range, cursor⟩

lemma Marks.free (marks : Marks m held) (mem : pid ∈ held) :
    Marks (m.freePid pid) (held \ {pid}) := by
  have range := marks.range pid mem
  rw [freePid, if_pos range]
  refine ⟨fun other small => ?_, fun other inside => marks.range other inside.1, marks.cursor⟩
  have old := marks.bit other small
  by_cases same : other = pid
  · rw [same]
    exact iff_of_false (by simp) fun h => h.elim (by omega) fun kept => kept.2 rfl
  · simp [same, old]

variable {x y : PidMap × Set Nat}

lemma Call.marks (call : Call x y) (marks : Marks x.1 x.2) : Marks y.1 y.2 := by
  cases call with
  | alloc m held =>
    rcases marks.alloc with ⟨pid, -, -, -, result, marks'⟩ | ⟨-, result, marks'⟩
    · simpa [result] using marks'
    · simpa [result] using marks'
  | free m held mem => exact marks.free mem

lemma marks_of_run (run : ReflTransGen Call x y) (marks : Marks x.1 x.2) : Marks y.1 y.2 := by
  induction run with
  | refl => exact marks
  | tail _ call ih => exact call.marks ih

end PidMap

open PidMap in
/-- After any calls, in which `free_pid` names allocated pids, `alloc_pid` returns a pid that is
not allocated, and fails only when all are.  The cursor starts anywhere. -/
theorem run_allocPid {start m : PidMap} {held : Set Nat} (cursor : start.nextPid < maxPid)
    (reserved : ∀ pid < maxPid, start.pidTestBit pid = decide (pid < 2))
    (run : ReflTransGen Call (start, ∅) (m, held)) :
    (∀ pid, m.allocPid.1 = some pid → 2 ≤ pid ∧ pid < maxPid ∧ pid ∉ held) ∧
    (m.allocPid.1 = none ↔ ∀ pid, 2 ≤ pid → pid < maxPid → pid ∈ held) := by
  have first : Marks start ∅ := ⟨fun pid small => by simp [reserved pid small], by simp, cursor⟩
  have marks : Marks m held := marks_of_run run first
  rcases marks.alloc with ⟨pid, low, high, fresh, result, -⟩ | ⟨all, result, -⟩
  · rw [result]
    refine ⟨fun _ same => Option.some.inj same ▸ ⟨low, high, fresh⟩, by simp, fun all => ?_⟩
    exact absurd (all pid low high) fresh
  · rw [result]
    exact ⟨by simp, by simpa using all⟩

def PidMap.fresh : PidMap := ((⟨fun _ => 0, 2⟩ : PidMap).pidSetBit 0).pidSetBit 1

open PidMap in
theorem run_allocPid_fresh : ∃ m held, ReflTransGen Call (fresh, ∅) (m, held) ∧
    (∀ pid, m.allocPid.1 = some pid → 2 ≤ pid ∧ pid < maxPid ∧ pid ∉ held) ∧
    (m.allocPid.1 = none ↔ ∀ pid, 2 ≤ pid → pid < maxPid → pid ∈ held) := by
  have run := ReflTransGen.single (Call.alloc fresh ∅)
  refine ⟨_, _, run, run_allocPid (by decide) (fun pid _ => ?_) run⟩
  have zero : pidTestBit ⟨fun _ => 0, 2⟩ pid = false := by simp [pidTestBit]
  rw [fresh, pidTestBit_set, pidTestBit_set, zero, Bool.eq_iff_iff]
  simp only [Bool.or_eq_true, decide_eq_true_eq, Bool.false_eq_true, or_false]
  omega

end AuroraOS.Sched
