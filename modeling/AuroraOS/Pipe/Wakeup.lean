import AuroraOS.Pipe.Model

/-!
# Wakeups of blocked tasks

`pipe_read` and `pipe_write` check the ring, register the task and mark it as blocked in separate
sections, and `pipe_close` wakes nobody.
-/

namespace AuroraOS.Pipe

open Function Relation

/-- What a registered task waits for has not happened. -/
structure PipeRing.Waits (ring : PipeRing) (t : Tid) : Prop where
  reader : ring.blockedReader = some t → ring.count = 0 ∧ ring.writeOpen = true
  writer : ring.blockedWriter = some t → pipeBufSize ≤ ring.count ∧ ring.readOpen = true

/-- No registered task is left blocked. -/
def System.Wakes (s : System) : Prop := ∀ t, s.state t = .blocked → s.ring.Waits t

/-- The next section of the call of `t` does not put a task to sleep that need not wait. -/
def System.Heeds (s : System) (t : Tid) : Prop :=
  match s.phase t with
  | .readBlock _ _ | .writeBlock _ _ _ => s.ring.Waits t
  | .writeMark _ _ _ => s.state t = .blocked → pipeBufSize ≤ s.ring.count ∧ s.ring.readOpen = true
  | _ => True

def PipeRing.waiting (ring : PipeRing) : End → Option Tid
  | .read => ring.blockedWriter
  | .write => ring.blockedReader

/-- The steps of `Step` that lose no wakeup. -/
inductive Careful (s : System) : System → Prop
  | read (t : Tid) (buf count : Nat) : (s.phase t).isDone →
    Careful s (s.goto t (.readLock buf count))
  | write (t : Tid) (src count : Nat) : (s.phase t).isDone →
    Careful s (s.goto t (.writeStart src count))
  | advance (t : Tid) (s' : System) : s.Heeds t → advance s t = some s' → Careful s s'
  | close (side : End) (ring : PipeRing) :
    (∀ t, s.ring.waiting side = some t → s.state t ≠ .blocked) →
    pipeClose s.ring side = some ring → Careful s { s with ring := ring }
  | other (mem : Lib.Store) (state : Tid → TaskState) (pending : Tid → Bool) :
    (∀ t, state t = .blocked → s.state t = .blocked) →
    Careful s { s with mem := mem, state := state, pending := pending }

variable {s s' : System} {t u : Tid}

lemma Careful.step (careful : Careful s s') : Step s s' := by
  cases careful with
  | read t buf count done => exact .read t buf count done
  | write t src count done => exact .write t src count done
  | advance t s' _ run => exact .advance t s' run
  | close side ring _ run => exact .close side ring run
  | other mem state pending _ => exact .other mem state pending

lemma wake_blocked {target : Option Tid} (blocked : (s.wake target).1 u = .blocked) :
    s.state u = .blocked ∧ (if (s.wake target).2 then none else target) ≠ some u := by
  unfold System.wake at *
  cases target with
  | none => exact ⟨blocked, nofun⟩
  | some v =>
    by_cases sleeps : s.state v = .blocked
    · simp only [sleeps, if_true] at blocked ⊢
      by_cases here : u = v
      · rw [here, update_self] at blocked
        cases blocked
      · rw [update_of_ne here] at blocked
        exact ⟨blocked, nofun⟩
    · simp only [sleeps] at blocked ⊢
      refine ⟨blocked, fun same => sleeps ?_⟩
      cases same
      exact blocked

variable (wakes : s.Wakes)
include wakes

lemma System.Wakes.of_same (ring : s'.ring = s.ring)
    (state : ∀ t, s'.state t = .blocked → s.state t = .blocked) : s'.Wakes :=
  fun t blocked => ring ▸ wakes t (state t blocked)

lemma System.Wakes.block (waits : s.ring.Waits t) (p : Phase) : (s.block t p).Wakes := by
  intro u blocked
  by_cases here : u = t
  · exact here ▸ waits
  · exact wakes u ((update_of_ne here _ _).symm.trans blocked)

lemma System.Wakes.resume {p : Phase} (run : s.resume t p = some s') : s'.Wakes := by
  unfold System.resume at run
  split at run
  · cases run
    refine wakes.of_same rfl fun u (blocked : update s.state t .running u = .blocked) => ?_
    by_cases here : u = t
    · rw [here, update_self] at blocked
      cases blocked
    · exact (update_of_ne here _ _).symm.trans blocked
  · cases run

lemma System.Wakes.readTurn (buf count : Nat) : (readTurn s t buf count).Wakes := by
  unfold Pipe.readTurn
  split_ifs with data closed
  · intro u blocked
    obtain ⟨before, other⟩ := wake_blocked blocked
    exact ⟨fun same => absurd ((wakes u before).reader same).1 (Nat.ne_of_gt data),
      fun same => absurd same other⟩
  · exact wakes.of_same rfl fun _ => id
  · exact fun u blocked => ⟨fun _ => ⟨Nat.eq_zero_of_not_pos data, by simpa using closed⟩,
      (wakes u blocked).writer⟩

lemma System.Wakes.writeTurn (src count total : Nat) : (writeTurn s t src count total).Wakes := by
  unfold Pipe.writeTurn
  split_ifs with room
  · intro u blocked
    obtain ⟨before, other⟩ := wake_blocked blocked
    exact ⟨fun same => absurd same other,
      fun same => absurd ((wakes u before).writer same).1 (Nat.not_le.mpr room)⟩
  all_goals exact wakes.of_same rfl fun _ => id

lemma System.Wakes.advance (heeds : s.Heeds t) (run : advance s t = some s') : s'.Wakes := by
  unfold Pipe.advance at run
  unfold System.Heeds at heeds
  cases phase : s.phase t <;> rw [phase] at run heeds <;> simp only at run heeds
  case readLock buf count => cases run; exact wakes.readTurn buf count
  case writeLock src count total => cases run; exact wakes.writeTurn src count total
  case readBlock => cases run; exact wakes.block heeds _
  case writeBlock => cases run; exact wakes.block heeds _
  case readSleep => exact wakes.resume run
  case writeSleep => exact wakes.resume run
  case readIntr =>
    cases run
    refine fun u blocked => ⟨fun same => (wakes u blocked).reader ?_, (wakes u blocked).writer⟩
    split at same
    · cases same
    · exact same
  case writeMark =>
    cases run
    refine fun u blocked => ⟨(wakes u blocked).reader, fun same => heeds ?_⟩
    rw [System.goto, System.current] at same
    split at same <;> cases same
    exact blocked
  all_goals
    first
    | cases run
    | split_ifs at run <;> cases run <;> exact wakes.of_same rfl fun _ => id

lemma System.Wakes.close {side : End} {ring : PipeRing}
    (nobody : ∀ t, s.ring.waiting side = some t → s.state t ≠ .blocked)
    (run : pipeClose s.ring side = some ring) : { s with ring := ring }.Wakes := by
  intro t blocked
  have waits := wakes t blocked
  unfold pipeClose at run
  cases side <;>
  · simp only at run
    split at run
    · cases run
    cases run
    constructor
    all_goals
      first
      | exact waits.reader
      | exact waits.writer
      | exact fun same => absurd blocked (nobody t same)

lemma System.Wakes.careful (careful : Careful s s') : s'.Wakes := by
  cases careful with
  | read t buf count _ => exact wakes.of_same rfl fun _ => id
  | write t src count _ => exact wakes.of_same rfl fun _ => id
  | advance t s' heeds run => exact wakes.advance heeds run
  | close side ring nobody run => exact wakes.close nobody run
  | other mem state pending kept => exact wakes.of_same rfl kept

omit wakes

/-- In a run of careful steps no task is left blocked as `blocked_reader` while the ring has data
or the write end is closed, nor as `blocked_writer` while it has space or the read end is
closed. -/
theorem wakes_of_careful_run {mem : Lib.Store} {isTask : Tid → Bool} {state : Tid → TaskState}
    {pending : Tid → Bool} {errno : Tid → Option Errno}
    (run : ReflTransGen Careful (initial mem isTask state pending errno) s) : s.Wakes := by
  induction run with
  | refl => exact fun t _ => ⟨nofun, nofun⟩
  | tail _ careful ih => exact ih.careful careful

/-- Task 1 waits for data. -/
theorem wakes_of_careful_run_reader : ∃ s : System, s.state 1 = .blocked ∧
    s.ring.blockedReader = some 1 ∧ Reachable s ∧ s.Wakes := by
  let start := initial (fun _ => 0) (fun _ => true) (fun _ => .running) (fun _ => false)
    fun _ => none
  have called := ReflTransGen.refl.tail (Careful.read (s := start) 1 0 1 rfl)
  have marked := (called.tail (.advance 1 _ trivial rfl)).tail (.advance 1 _ trivial rfl)
  have blocked := marked.tail (.advance 1 _ ⟨fun _ => ⟨rfl, rfl⟩, nofun⟩ rfl)
  exact ⟨_, rfl, rfl, ⟨_, _, _, _, _, ReflTransGen.mono (fun _ _ => Careful.step) _ _ blocked⟩,
    wakes_of_careful_run blocked⟩

/-- Task 1 finds the ring empty, task 0 writes a byte, and task 1 goes to sleep. -/
theorem reader_sleeps : ∃ s : System, Reachable s ∧ s.ring.blockedReader = some 1 ∧
    s.state 1 = .blocked ∧ s.ring.count = 1 := by
  let start := initial (fun _ => 0) (fun _ => true) (fun _ => .running) (fun _ => false)
    fun _ => none
  have empty := (ReflTransGen.refl.tail (Step.read (s := start) 1 0 1 rfl)).tail (.advance 1 _ rfl)
  have written := ((empty.tail (.write 0 9 1 rfl)).tail (.advance 0 _ rfl)).tail (.advance 0 _ rfl)
  have asleep := (written.tail (.advance 1 _ rfl)).tail (.advance 1 _ rfl)
  exact ⟨_, ⟨_, _, _, _, _, asleep⟩, by decide +kernel⟩

end AuroraOS.Pipe
