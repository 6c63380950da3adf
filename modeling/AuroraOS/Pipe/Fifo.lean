import AuroraOS.Pipe.Model

/-!
# Pipes are queues

A section of a call either leaves the ring's contents and both histories alone (`Quiet`), or is the
copy of `pipe_read`, or is the copy of `pipe_write`; the invariant `Fifo` is kept by each of the
three.
-/

namespace AuroraOS.Pipe

open Lib List

def PipeRing.contents (ring : PipeRing) : List UInt8 :=
  window ring.buf pipeBufSize ring.head ring.count

structure Fifo (s : System) : Prop where
  head_lt : s.ring.head < pipeBufSize
  count_le : s.ring.count ≤ pipeBufSize
  tail_eq : s.ring.tail = (s.ring.head + s.ring.count) % pipeBufSize
  history : s.accepted = s.delivered ++ s.ring.contents

/-! ## What a section does -/

structure Quiet (s s' : System) : Prop where
  buf : s'.ring.buf = s.ring.buf
  head : s'.ring.head = s.ring.head
  tail : s'.ring.tail = s.ring.tail
  count : s'.ring.count = s.ring.count
  accepted : s'.accepted = s.accepted
  delivered : s'.delivered = s.delivered

section Sections

variable {s s' : System} {t : Tid}

lemma quiet_goto {p : Phase} : Quiet s (s.goto t p) := ⟨rfl, rfl, rfl, rfl, rfl, rfl⟩

lemma quiet_fail {e : Errno} : Quiet s (s.fail t e) := ⟨rfl, rfl, rfl, rfl, rfl, rfl⟩

lemma quiet_resume {p : Phase} (run : s.resume t p = some s') : Quiet s s' := by
  unfold System.resume at run
  split at run
  · cases run
    exact ⟨rfl, rfl, rfl, rfl, rfl, rfl⟩
  · cases run

lemma quiet_close {side : End} {ring : PipeRing} (run : pipeClose s.ring side = some ring) :
    Quiet s { s with ring := ring } := by
  unfold pipeClose at run
  cases side <;>
  · simp only at run
    split at run
    · cases run
    · cases run
      exact ⟨rfl, rfl, rfl, rfl, rfl, rfl⟩

lemma readTurn_cases (s : System) (t : Tid) (buf count : Nat) : Quiet s (readTurn s t buf count) ∨
      (0 < s.ring.count ∧ readTurn s t buf count = readCopy s t buf count) := by
  unfold readTurn
  split_ifs with data closed
  · exact .inr ⟨data, rfl⟩
  · exact .inl quiet_goto
  · exact .inl ⟨rfl, rfl, rfl, rfl, rfl, rfl⟩

lemma writeTurn_cases (s : System) (t : Tid) (src count total : Nat) :
    Quiet s (writeTurn s t src count total) ∨ (s.ring.count < pipeBufSize ∧
        writeTurn s t src count total = writeCopy s t src count total) := by
  unfold writeTurn
  split_ifs with room closed task
  · exact .inr ⟨room, rfl⟩
  · exact .inl quiet_fail
  · exact .inl quiet_goto
  · exact .inl quiet_goto

lemma advance_cases (run : advance s t = some s') :
    Quiet s s' ∨ (∃ buf count, 0 < s.ring.count ∧ s' = readCopy s t buf count) ∨
      ∃ src count total, s.ring.count < pipeBufSize ∧ s' = writeCopy s t src count total := by
  unfold advance at run
  split at run
  case h_1 | h_2 | h_3 => cases run
  case h_4 buf count _ =>
      cases run
      rcases readTurn_cases s t buf count with quiet | ⟨data, copy⟩
      · exact .inl quiet
      · exact .inr (.inl ⟨buf, count, data, copy⟩)
  case h_10 src count total _ =>
      cases run
      rcases writeTurn_cases s t src count total with quiet | ⟨room, copy⟩
      · exact .inl quiet
      · exact .inr (.inr ⟨src, count, total, room, copy⟩)
  case h_8 | h_14 => exact .inl (quiet_resume run)
  -- the other sections only move the call on
  all_goals
    first
    | cases run; exact .inl ⟨rfl, rfl, rfl, rfl, rfl, rfl⟩
    | split_ifs at run <;> cases run <;> exact .inl ⟨rfl, rfl, rfl, rfl, rfl, rfl⟩

lemma Step.cases (step : Step s s') :
    Quiet s s' ∨ (∃ t buf count, 0 < s.ring.count ∧ s' = readCopy s t buf count) ∨
      ∃ t src count total, s.ring.count < pipeBufSize ∧ s' = writeCopy s t src count total := by
  cases step with
  | read t buf count => exact .inl quiet_goto
  | write t src count => exact .inl quiet_goto
  | advance t s' run =>
    rcases advance_cases run with quiet | ⟨buf, count, copy⟩ | ⟨src, count, total, copy⟩
    · exact .inl quiet
    · exact .inr (.inl ⟨t, buf, count, copy⟩)
    · exact .inr (.inr ⟨t, src, count, total, copy⟩)
  | close side ring run => exact .inl (quiet_close run)
  | other mem state pending => exact .inl ⟨rfl, rfl, rfl, rfl, rfl, rfl⟩

end Sections

/-! ## The invariant -/

section Invariant

variable {s s' : System} {t : Tid}

lemma Fifo.quiet (fifo : Fifo s) (quiet : Quiet s s') : Fifo s' where
  head_lt := by rw [quiet.head]; exact fifo.head_lt
  count_le := by rw [quiet.count]; exact fifo.count_le
  tail_eq := by rw [quiet.head, quiet.count, quiet.tail]; exact fifo.tail_eq
  history := by
    rw [quiet.accepted, quiet.delivered, fifo.history]
    simp only [PipeRing.contents, quiet.buf, quiet.head, quiet.count]

lemma sub32_of_le {a b : Nat} (le : b ≤ a) (small : a < 2 ^ 32) : sub32 a b = a - b := by
  unfold sub32
  omega

lemma Fifo.readCopy (fifo : Fifo s) (buf count : Nat) : Fifo (readCopy s t buf count) := by
  obtain ⟨head_lt, count_le, tail_eq, history⟩ := fifo
  have size : pipeBufSize = 4096 := rfl
  unfold Pipe.readCopy
  extract_lets ring toread chunk firstChunk mem mem' woken
  have toread_le : toread ≤ s.ring.count := by
    simp only [toread, ring]
    split_ifs <;> omega
  have chunk_eq : chunk = pipeBufSize - s.ring.head := sub32_of_le head_lt.le (by omega)
  have first_eq : firstChunk = min toread (pipeBufSize - s.ring.head) := by
    simp only [firstChunk]
    split_ifs <;> omega
  have left : sub32 s.ring.count toread = s.ring.count - toread :=
    sub32_of_le toread_le (by omega)
  have front : slice mem' buf toread = window s.ring.buf pipeBufSize s.ring.head toread := by
    apply slice_eq_window head_lt (by omega) first_eq
    · intro i early
      have first : mem (buf + i) = s.ring.buf (s.ring.head + i) := by
        simp only [mem]
        rw [blit_inside (by omega) (by omega), Nat.add_sub_cancel_left]
      simp only [mem']
      split_ifs
      · rw [blit_outside (by omega), first]
      · exact first
    · intro i late
      simp only [mem']
      rw [if_pos (by omega), blit_inside (by omega) (by omega), Nat.add_sub_cancel_left]
  constructor
  · exact Nat.mod_lt _ (by omega)
  · simp only [ring]
    omega
  · simp only [ring, tail_eq, Nat.mod_add_mod]
    congr 1
    omega
  · simp only [PipeRing.contents, ring, left, front, append_assoc]
    rw [← window_add, show toread + (s.ring.count - toread) = s.ring.count by omega]
    exact history

lemma Fifo.writeCopy (fifo : Fifo s) (room : s.ring.count < pipeBufSize)
    (src count total : Nat) : Fifo (writeCopy s t src count total) := by
  obtain ⟨head_lt, count_le, tail_eq, history⟩ := fifo
  have size : pipeBufSize = 4096 := rfl
  unfold Pipe.writeCopy
  extract_lets ring space towrite chunk firstChunk first buf woken
  have tail_lt : s.ring.tail < pipeBufSize := tail_eq ▸ Nat.mod_lt _ (by omega)
  have space_eq : space = pipeBufSize - s.ring.count := sub32_of_le count_le (by omega)
  have fits : s.ring.count + towrite ≤ pipeBufSize := by
    simp only [towrite]
    split_ifs <;> omega
  have chunk_eq : chunk = pipeBufSize - s.ring.tail := sub32_of_le tail_lt.le (by omega)
  have first_eq : firstChunk = min towrite (pipeBufSize - s.ring.tail) := by
    simp only [firstChunk]
    split_ifs <;> omega
  have grown : (s.ring.count + towrite) % 2 ^ 32 = s.ring.count + towrite :=
    Nat.mod_eq_of_lt (by omega)
  -- the cell of the `i`-th byte, before and behind the end of the buffer
  have position : ∀ i < towrite, (s.ring.head + s.ring.count + i) % pipeBufSize =
      if i < firstChunk then s.ring.tail + i else i - firstChunk := by
    intro i inside
    rw [← Nat.mod_add_mod, ← tail_eq]
    split_ifs with early
    · exact Nat.mod_eq_of_lt (by omega)
    · rw [Nat.mod_eq_sub_mod (by omega), Nat.mod_eq_of_lt (by omega)]
      omega
  have behind : window buf pipeBufSize s.ring.head (s.ring.count + towrite) =
      window s.ring.buf pipeBufSize s.ring.head s.ring.count ++
        slice s.mem (src + total) towrite := by
    apply window_deposit fits
    · intro i inside
      rw [position i inside]
      split_ifs with early
      · simp only [buf]
        have here : first (s.ring.tail + i) = s.mem (src + total + i) := by
          simp only [first, ring]
          rw [blit_inside (by omega) (by omega), Nat.add_sub_cancel_left]
        split_ifs
        · rw [blit_outside (by omega), here]
        · exact here
      · simp only [buf]
        rw [if_pos (by omega), blit_inside (by omega) (by omega)]
        congr 1
        omega
    · intro j free
      have before : j < s.ring.tail ∨ s.ring.tail + firstChunk ≤ j := by
        by_contra taken
        apply free (j - s.ring.tail) (by omega)
        rw [position _ (by omega), if_pos (by omega)]
        omega
      have same : first j = s.ring.buf j := blit_outside before
      simp only [buf]
      split_ifs with wraps
      · rw [blit_outside, same]
        by_contra taken
        apply free (firstChunk + j) (by omega)
        rw [position _ (by omega), if_neg (by omega)]
        omega
      · exact same
  constructor
  · exact head_lt
  · simp only [ring, grown]
    exact fits
  · simp only [ring, grown, tail_eq, Nat.mod_add_mod, add_assoc]
  · simp only [PipeRing.contents, ring, grown, behind, history, append_assoc]

lemma Fifo.step (fifo : Fifo s) (step : Step s s') : Fifo s' := by
  rcases step.cases with quiet | ⟨t, buf, count, _, rfl⟩ | ⟨t, src, count, total, room, rfl⟩
  · exact fifo.quiet quiet
  · exact fifo.readCopy buf count
  · exact fifo.writeCopy room src count total

lemma fifo_initial (mem : Store) (isTask : Tid → Bool) (state : Tid → TaskState)
    (pending : Tid → Bool) (errno : Tid → Option Errno) :
    Fifo (initial mem isTask state pending errno) where
  head_lt := Nat.zero_lt_succ 4095
  count_le := Nat.zero_le pipeBufSize
  tail_eq := rfl
  history := rfl

lemma fifo_of_reachable (reached : Reachable s) : Fifo s := by
  obtain ⟨mem, isTask, state, pending, errno, run⟩ := reached
  induction run with
  | refl => exact fifo_initial mem isTask state pending errno
  | tail _ step ih => exact ih.step step

end Invariant

/-- Whatever calls on a pipe interleave, the bytes delivered to readers are a prefix of those
accepted from writers, the ring keeps its shape, and it holds exactly the bytes that are
accepted and not delivered. -/
theorem reachable_fifo {s : System} (reached : Reachable s) : s.delivered <+: s.accepted ∧
      s.ring.count ≤ pipeBufSize ∧
      s.ring.tail = (s.ring.head + s.ring.count) % pipeBufSize ∧
      s.accepted.drop s.delivered.length = s.ring.contents := by
  have fifo := fifo_of_reachable reached
  refine ⟨?_, fifo.count_le, fifo.tail_eq, ?_⟩
  · rw [fifo.history]
    exact prefix_append _ _
  · rw [fifo.history, drop_left]

/-- Task 0 writes two bytes, and task 1 asks for five and gets them. -/
theorem reachable_fifo_hi : ∃ s : System, Reachable s ∧ s.delivered = [104, 105] ∧
    s.delivered <+: s.accepted ∧ s.ring.count ≤ pipeBufSize ∧
      s.ring.tail = (s.ring.head + s.ring.count) % pipeBufSize ∧
      s.accepted.drop s.delivered.length = s.ring.contents := by
  let mem : Store := fun a => if a = 0 then 104 else 105
  let start := initial mem (fun _ => true) (fun _ => .running) (fun _ => false) fun _ => none
  have called := Relation.ReflTransGen.refl.tail (Step.write (s := start) 0 0 2 rfl)
  have written := (called.tail (.advance 0 _ rfl)).tail (.advance 0 _ rfl)
  have read := (written.tail (.read 1 100 5 rfl)).tail (.advance 1 _ rfl)
  have reached : Reachable _ := ⟨_, _, _, _, _, read⟩
  exact ⟨_, reached, by decide, reachable_fifo reached⟩

end AuroraOS.Pipe
