import AuroraOS.Sched.Fuel
import AuroraOS.Sched.Switch
import Mathlib.Logic.Function.Iterate

/-!
# Charging the processor time

A task that is switched out is charged for what is missing of its time slice.  That is the number of
its ticks where the slice was full at the beginning of the turn and was not used up, and where the
task is still running when `schedule` sees it.
-/

namespace AuroraOS.Sched

open Option Function Relation

def Task.due (t : Task) (ticks : Nat) : Nat := max 1 ticks * 128 / (t.priority.val + 1)

namespace State

open Lib

variable {s s' : State} {cpu : Nat}

inductive Call
  | tick
  | checkResched (cpu : Nat)
  | preemptDisable
  | preemptEnable (cpu : Nat)
  | yield (cpu : Nat)
  | schedule (cpu : Nat)

def Call.run (s : State) : Call → Nat → Option State
  | .tick, _ => some s.scheduleTick
  | .checkResched cpu, fuel => s.checkResched cpu fuel
  | .preemptDisable, _ => some s.preemptDisable
  | .preemptEnable cpu, fuel => s.preemptEnable cpu fuel
  | .yield cpu, fuel => s.yield cpu fuel
  | .schedule cpu, fuel => s.schedule cpu fuel

/-- The turn of the running task: the ticks since it was switched in, and the time slice it
had then. -/
structure Turn where
  ticks : Nat
  slice : Nat

def Turn.start (s : State) : Turn := ⟨0, (s.tasks s.current).timeSlice⟩

def Call.ticks : Call → Nat
  | .tick => 1
  | _ => 0

def Turn.after (turn : Turn) (call : Call) (s s' : State) : Turn :=
  if s'.current ≠ s.current then .start s' else { turn with ticks := turn.ticks + call.ticks }

/-- If the call switches the running task out and leaves it runnable, it charges the task
for the ticks of its turn. -/
def ChargesTurn (s : State) (turn : Turn) (s' : State) : Prop :=
  s'.current ≠ s.current →
    (s'.tasks s.current).state = .ready ∨ (s'.tasks s.current).state = .running →
      (s'.tasks s.current).vruntime =
        ((s.tasks s.current).vruntime + (s.tasks s.current).due turn.ticks) % 2 ^ 64

def Turn.Within (turn : Turn) (t : Task) : Prop :=
  turn.slice = fullSlice t.priority ∧ turn.ticks < turn.slice

/-- A tick counts against the slice, and the task is switched out by `yield` or while it is
running, within a full slice. -/
def Call.Counted (s : State) (turn : Turn) : Call → Prop
  | .tick => (s.tasks s.current).state = .running ∧ (s.tasks s.current).preemptCount = 0
  | .checkResched _ => s.needResched = false ∧ (s.tasks s.current).needResched = false
  | .preemptDisable => True
  | .preemptEnable _ =>
    (s.tasks s.current).needResched = false ∨ 1 < (s.tasks s.current).preemptCount
  | .yield _ => turn.Within (s.tasks s.current)
  | .schedule _ => (s.tasks s.current).state ≠ .ready ∧ turn.Within (s.tasks s.current)

inductive TurnStep (ok : State → Turn → Call → Prop) : State × Turn → State × Turn → Prop
  | call {s s' : State} {turn : Turn} (call : Call) (meets : ok s turn call)
      (run : Returns (call.run s) s') : TurnStep ok (s, turn) (s', turn.after call s s')

/-! ## The slice of a turn -/

/-- While a turn is within its slice, the ticks are what is missing of it. -/
def OnSlice (s : State) (turn : Turn) : Prop :=
  turn.ticks < turn.slice → (s.tasks s.current).timeSlice + turn.ticks = turn.slice

lemma onSlice_start (s : State) : s.OnSlice (.start s) := fun _ => rfl

lemma OnSlice.after {turn : Turn} {call : Call} (onSlice : s.OnSlice turn)
    (silent : call.ticks = 0)
    (kept : (s'.tasks s.current).timeSlice = (s.tasks s.current).timeSlice) :
    s'.OnSlice (turn.after call s s') := by
  unfold Turn.after
  split
  · exact onSlice_start s'
  · rename_i stays
    rw [silent]
    intro within
    rw [not_not.mp stays, kept]
    exact onSlice within

lemma OnSlice.tick {turn : Turn} (onSlice : s.OnSlice turn) (counted : Call.tick.Counted s turn) :
    s.scheduleTick.OnSlice (turn.after .tick s s.scheduleTick) := by
  obtain ⟨running, enabled⟩ := counted
  have turnIs : turn.after .tick s s.scheduleTick = ⟨turn.ticks + 1, turn.slice⟩ :=
    if_neg (not_not.mpr (scheduleTick_current s))
  rw [turnIs]
  intro within
  have before := onSlice (Nat.lt_of_succ_lt within)
  simp only at within ⊢
  have slice : s.scheduleTick = s.setTask s.current fun t =>
      { t with timeSlice := (s.tasks s.current).timeSlice - 1 } := by
    have enabled : ¬(s.tasks s.current).preemptCount > 0 := by omega
    have left : (s.tasks s.current).timeSlice > 0 := by omega
    have more : ¬(s.tasks s.current).timeSlice - 1 ≤ 0 := by omega
    simp only [scheduleTick, if_neg enabled, if_pos running, if_pos left, if_neg more]
  rw [scheduleTick_current, slice, setTask_tasks_self]
  simp only
  omega

lemma timeSlice_schedule {fuel : Nat} (run : s.schedule cpu fuel = some s') :
    (s'.tasks s.current).timeSlice = (s.tasks s.current).timeSlice := by
  rcases schedule_cases fuel run with ⟨next, other, -, rfl⟩ | ⟨rfl, -⟩
  · rw [switchTo_prev other]
    split <;> rfl
  · rfl

lemma preemptEnable_idle {turn : Turn} (counted : (Call.preemptEnable cpu).Counted s turn) :
    ∃ s', (∀ fuel, s.preemptEnable cpu fuel = some s') ∧ s'.current = s.current ∧
      (s'.tasks s.current).timeSlice = (s.tasks s.current).timeSlice := by
  by_cases disabled : (s.tasks s.current).preemptCount > 0
  · let t := s.setTask s.current fun t => { t with preemptCount := t.preemptCount - 1 }
    have task : t.tasks s.current =
        { s.tasks s.current with preemptCount := (s.tasks s.current).preemptCount - 1 } :=
      setTask_tasks_self
    refine ⟨t, fun fuel => ?_, rfl, by rw [task]⟩
    have nobody : ¬((t.tasks s.current).preemptCount = 0 ∧ (t.tasks s.current).needResched) := by
      rw [task]
      rcases counted with quiet | nested
      · simp [quiet]
      · intro none
        have zero : (s.tasks s.current).preemptCount - 1 = 0 := none.1
        omega
    simp only [preemptEnable, if_pos disabled]
    exact if_neg nobody
  · refine ⟨s, fun fuel => ?_, rfl, rfl⟩
    simp only [preemptEnable, if_neg disabled]
    refine if_neg fun none => ?_
    rcases counted with quiet | nested
    · simp [quiet] at none
    · omega

lemma OnSlice.call {turn : Turn} {call : Call} (onSlice : s.OnSlice turn)
    (counted : call.Counted s turn) (run : Returns (call.run s) s') :
    s'.OnSlice (turn.after call s s') := by
  obtain ⟨bound, run⟩ := run.exists_eq
  cases call with
  | tick =>
    cases run
    exact onSlice.tick counted
  | checkResched cpu =>
    obtain ⟨global, task⟩ := counted
    simp only [Call.run, checkResched, global, task] at run
    cases run
    exact onSlice.after rfl rfl
  | preemptDisable =>
    cases run
    exact onSlice.after rfl (by simp [preemptDisable])
  | preemptEnable cpu =>
    obtain ⟨t, quiet, kept⟩ := preemptEnable_idle counted
    cases (quiet bound).symm.trans run
    exact onSlice.after rfl kept.2
  | yield cpu =>
    refine onSlice.after rfl ?_
    exact (timeSlice_schedule run).trans (by rw [setTask_current, setTask_tasks_self]; rfl)
  | schedule cpu => exact onSlice.after rfl (timeSlice_schedule run)

lemma onSlice_of_run {s₀ : State} {now : State × Turn}
    (run : ReflTransGen (TurnStep Call.Counted) (s₀, .start s₀) now) :
    now.1.OnSlice now.2 := by
  induction run with
  | refl => exact onSlice_start s₀
  | tail _ step ih =>
    cases step with
    | call call counted run => exact ih.call counted run

/-! ## What a turn is charged -/

lemma charge_eq_due {t : Task} {turn : Turn} (within : turn.Within t)
    (slice : t.timeSlice + turn.ticks = turn.slice) : t.charge = t.due turn.ticks := by
  have missing : (fullSlice t.priority : Int) - t.timeSlice = turn.ticks := by
    have full := within.1
    omega
  simp only [Task.charge]
  congr 2
  split <;> omega

/-- In a run of counted calls from a task that was just switched in, every task that is
switched out and stays runnable is charged for the ticks of its turn. -/
theorem charged_of_run {s₀ : State} {turn : Turn} {call : Call}
    (run : ReflTransGen (TurnStep Call.Counted) (s₀, .start s₀) (s, turn))
    (counted : call.Counted s turn) (returns : Returns (call.run s) s') :
    ChargesTurn s turn s' := by
  have onSlice : s.OnSlice turn := onSlice_of_run run
  obtain ⟨bound, run⟩ := returns.exists_eq
  cases call with
  | tick =>
    cases run
    exact fun switched => absurd (scheduleTick_current s) switched
  | checkResched cpu =>
    obtain ⟨global, task⟩ := counted
    simp only [Call.run, checkResched, global, task] at run
    cases run
    exact fun switched => absurd rfl switched
  | preemptDisable =>
    cases run
    exact fun switched => absurd rfl switched
  | preemptEnable cpu =>
    obtain ⟨t, quiet, same, -⟩ := preemptEnable_idle counted
    cases (quiet bound).symm.trans run
    exact fun switched => absurd same switched
  | yield cpu =>
    intro switched _
    -- the task is ready when `schedule` sees it, so that it is charged once
    rcases schedule_cases bound run with ⟨next, other, -, rfl⟩ | ⟨rfl, -⟩
    · have prev := switchTo_prev other
      rw [setTask_current, setTask_tasks_self, if_neg (by simp)] at prev
      rw [prev]
      simp only [Task.charged, charge_eq_due counted (onSlice counted.2)]
    · exact absurd rfl switched
  | schedule cpu =>
    obtain ⟨notReady, within⟩ := counted
    intro switched runnable
    rcases schedule_cases bound run with ⟨next, other, -, rfl⟩ | ⟨rfl, -⟩
    · rw [switchTo_prev other] at runnable ⊢
      by_cases running : (s.tasks s.current).state = .running
      · rw [if_pos running, ← charge_eq_due within (onSlice within.2)]
        rfl
      · rw [if_neg running] at runnable
        rcases runnable with ready | running'
        · exact absurd ready notReady
        · exact absurd running' running
    · exact absurd rfl switched

lemma checkResched_steady (s : State) (cpu : Nat) : Steady (s.checkResched cpu) := by
  unfold checkResched
  dsimp only
  split
  · exact schedule_steady _ _
  · exact .const _

lemma iterate_tick_current (s : State) (n : Nat) : (scheduleTick^[n] s).current = s.current := by
  induction n with
  | zero => rfl
  | succ n ih =>
    rw [iterate_succ_apply', scheduleTick_current]
    exact ih

lemma run_ticks {ok : State → Turn → Call → Prop} (s : State) (turn : Turn) (n : Nat)
    (meets : ∀ i < n, ok (scheduleTick^[i] s) ⟨turn.ticks + i, turn.slice⟩ .tick) :
    ReflTransGen (TurnStep ok) (s, turn) (scheduleTick^[n] s, ⟨turn.ticks + n, turn.slice⟩) := by
  induction n with
  | zero => exact .refl
  | succ n ih =>
    have step := TurnStep.call .tick (meets n n.lt_succ_self) ⟨0, fun _ _ => rfl⟩
    rw [Turn.after, if_neg (not_not.mpr (scheduleTick_current _))] at step
    rw [iterate_succ_apply']
    exact (ih fun i lt => meets i (Nat.lt_succ_of_lt lt)).tail step

/-- A task with priority 128 that yields after two ticks of its slice of five is charged
`2 * 128 / 129 = 1`. -/
theorem charged_of_run_yield : ∃ s₀ s turn s', s₀.current = 10 ∧
      ReflTransGen (TurnStep Call.Counted) (s₀, .start s₀) (s, turn) ∧
      (Call.yield 0).Counted s turn ∧ Returns ((Call.yield 0).run s) s' ∧
      turn.ticks = 2 ∧ s'.current = 1 ∧
      (s'.tasks 10).vruntime = (0 + Task.due (s.tasks 10) 2) % 2 ^ 64 := by
  have evaluates : ((schedulerInit 1 (some 2) 1 20).bind fun s =>
      (s.createTask ⟨some 10, true, true⟩ 20).bind fun r =>
      (r.2.yield 0 20).bind fun s₀ =>
      ((scheduleTick^[2] s₀).yield 0 20).map fun s' => decide
        (s₀.current = 10 ∧ (s₀.tasks 10).timeSlice = 5 ∧
          (∀ i < 2, ((scheduleTick^[i] s₀).tasks 10).state = .running ∧
            ((scheduleTick^[i] s₀).tasks 10).preemptCount = 0) ∧
          fullSlice ((scheduleTick^[2] s₀).tasks 10).priority = 5 ∧
          ((scheduleTick^[2] s₀).tasks 10).vruntime = 0 ∧
          s'.current = 1 ∧ (s'.tasks 10).state = .ready)) = some true := by
    decide +kernel
  simp only [bind_eq_some_iff, map_eq_some_iff, decide_eq_true_eq] at evaluates
  obtain ⟨s, -, r, -, s₀, -, s', yields, current, slice, running, full, vruntime, next, ready⟩ :=
    evaluates
  have turn : Turn.start s₀ = ⟨0, 5⟩ := by rw [Turn.start, current, slice]
  have counted (i : Nat) (lt : i < 2) :
      Call.tick.Counted (scheduleTick^[i] s₀) ⟨0 + i, 5⟩ := by
    rw [Call.Counted, iterate_tick_current, current]
    exact running i lt
  have run : ReflTransGen (TurnStep Call.Counted) (s₀, .start s₀)
      (scheduleTick^[2] s₀, ⟨2, 5⟩) := by
    rw [turn]
    exact run_ticks s₀ ⟨0, 5⟩ 2 counted
  have current₂ := (iterate_tick_current s₀ 2).trans current
  have within : (Call.yield 0).Counted (scheduleTick^[2] s₀) ⟨2, 5⟩ := by
    refine ⟨?_, by decide⟩
    rw [current₂, full]
  have returns := (yield_steady _ 0).returns yields
  have charged := charged_of_run run within returns
  rw [ChargesTurn, current₂, vruntime] at charged
  exact ⟨s₀, _, _, s', current, run, within, returns, rfl, next,
    charged (by rw [next]; decide) (.inl ready)⟩

/-- A task with priority 128 that uses up its slice is switched out by the `check_resched`
that follows its fifth tick, and is charged nothing where four units are due. -/
theorem checkResched_charges_nothing :
    ∃ boot created s₀ s turn s', schedulerInit 1 (some 2) 1 20 = some boot ∧
      boot.createTask ⟨some 10, true, true⟩ 20 = some (some 10, created) ∧
      created.yield 0 20 = some s₀ ∧ s₀.current = 10 ∧
      ReflTransGen (TurnStep fun _ _ _ => True) (s₀, .start s₀) (s, turn) ∧
      Returns ((Call.checkResched 0).run s) s' ∧
      turn.ticks = 5 ∧ s'.current = 1 ∧ (s'.tasks 10).state = .ready ∧
      (s'.tasks 10).vruntime = (s.tasks 10).vruntime ∧ Task.due (s.tasks 10) 5 = 4 ∧
      ¬ChargesTurn s turn s' := by
  have evaluates : ((schedulerInit 1 (some 2) 1 20).bind fun s =>
      (s.createTask ⟨some 10, true, true⟩ 20).bind fun r =>
      (r.2.yield 0 20).bind fun s₀ =>
      ((scheduleTick^[5] s₀).checkResched 0 20).map fun s' => decide
        (r.1 = some 10 ∧ s₀.current = 10 ∧ (scheduleTick^[5] s₀).current = 10 ∧
          s'.current = 1 ∧ (s'.tasks 10).state = .ready ∧ (s'.tasks 10).vruntime = 0 ∧
          ((scheduleTick^[5] s₀).tasks 10).vruntime = 0 ∧
          Task.due ((scheduleTick^[5] s₀).tasks 10) 5 = 4)) = some true := by
    decide +kernel
  simp only [bind_eq_some_iff, map_eq_some_iff, decide_eq_true_eq] at evaluates
  obtain ⟨boot, boots, ⟨task, created⟩, creates, s₀, yields, s', leaves, rfl, current, current₅,
    next, ready, after, before, due⟩ := evaluates
  refine ⟨boot, created, s₀, _, _, s', boots, creates, yields, current,
    run_ticks s₀ (.start s₀) 5 fun _ _ => trivial,
    (checkResched_steady _ 0).returns leaves, rfl, next, ready, after.trans before.symm, due, ?_⟩
  intro charges
  rw [ChargesTurn, current₅, before, after] at charges
  have wrong := charges (by rw [next]; decide) (.inl ready)
  rw [show (Turn.start s₀).ticks + 5 = 5 from rfl, due] at wrong
  exact absurd wrong (by decide)

end State

end AuroraOS.Sched
