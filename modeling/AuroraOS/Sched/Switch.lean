import AuroraOS.Sched.Model

/-!
# Switching tasks

`schedule` either switches to another runnable task or returns with nothing changed
(`schedule_cases`); what a switch does to the task that is left is `switchTo_prev`.
-/

namespace AuroraOS.Sched.State

open Rbtree Option Function

variable {s s' : State} {t u cpu : Nat} {f : Task → Task}

@[simp] lemma setTask_tasks_self : (s.setTask t f).tasks t = f (s.tasks t) := by
  simp [setTask]

lemma setTask_tasks_of_ne (other : u ≠ t) : (s.setTask t f).tasks u = s.tasks u := by
  simp [setTask, other]

@[simp] lemma setTask_rq : (s.setTask t f).rq = s.rq := rfl
@[simp] lemma setTask_nodes : (s.setTask t f).nodes = s.nodes := rfl
@[simp] lemma setTask_numCpus : (s.setTask t f).numCpus = s.numCpus := rfl
@[simp] lemma setTask_current : (s.setTask t f).current = s.current := rfl

lemma scheduleTick_eq (s : State) : ∃ slice pending flag,
    s.scheduleTick = { s.setTask s.current fun t =>
      { t with timeSlice := slice, needResched := pending } with needResched := flag } := by
  have same : s = { s.setTask s.current fun t =>
      { t with timeSlice := (s.tasks s.current).timeSlice,
               needResched := (s.tasks s.current).needResched } with
      needResched := s.needResched } := by
    simp [setTask]
  simp only [scheduleTick]
  generalize (if (s.tasks s.current).timeSlice > 0 then _ else _) = slice
  split
  · exact ⟨_, _, _, same⟩
  split
  · split
    · exact ⟨_, _, _, rfl⟩
    · exact ⟨_, _, _, rfl⟩
  · exact ⟨_, _, _, same⟩

lemma scheduleTick_current (s : State) : s.scheduleTick.current = s.current := by
  obtain ⟨slice, pending, flag, is⟩ := scheduleTick_eq s
  rw [is]
  rfl

lemma firstRunnable_spec {h : RbHeap} (P : Option Nat → Prop) (fuel : Nat) {node : Option Nat}
    {next : Nat} (start : P node)
    (step : ∀ {c fuel n}, P (some c) → rbNext h c fuel = some n → P n)
    (run : s.firstRunnable h fuel node = some (some next)) :
    P (some next) ∧ next ≠ s.current ∧
      ((s.tasks next).state = .ready ∨ (s.tasks next).state = .running) := by
  induction fuel generalizing node with
  | zero => cases run
  | succ fuel ih =>
    cases node with
    | none => cases run
    | some candidate =>
      rw [firstRunnable] at run
      split at run
      · cases run
        exact ⟨start, And.right ‹_›, And.left ‹_›⟩
      · obtain ⟨node, next, run⟩ := bind_eq_some_iff.mp run
        exact ih (step start next) run

def Chooses (s : State) (cpu next : Nat) : Prop :=
  ∃ fuel first found, rbFindMin (s.heap cpu) fuel = some first ∧
    s.firstRunnable (s.heap cpu) fuel first = some found ∧
    (found = some next ∨ found = none ∧ next = s.idleTask)

/-- How `schedule` ends: it switches to another runnable task, or a running task goes on. -/
lemma schedule_cases (fuel : Nat) (run : s.schedule cpu fuel = some s') :
    (∃ next, next ≠ s.current ∧
      (((s.tasks next).state = .ready ∨ (s.tasks next).state = .running) ∧ s.Chooses cpu next) ∧
        s' = s.switchTo next) ∨
    (s' = s ∧ ((s.tasks s.current).state = .running ∨ (s.tasks s.current).next = none)) := by
  induction fuel with
  | zero => cases run
  | succ fuel ih =>
    rw [schedule] at run
    split at run
    · cases run
      exact .inr ⟨rfl, .inr ‹_›⟩
    split at run
    · split at run
      · exact ih run
      · cases run
    obtain ⟨first, least, run⟩ := bind_eq_some_iff.mp run
    obtain ⟨found, walk, run⟩ := bind_eq_some_iff.mp run
    cases found with
    | some next =>
      cases run
      obtain ⟨_, other, runnable⟩ :=
        firstRunnable_spec (fun _ => True) fuel trivial (fun _ _ => trivial) walk
      exact .inl ⟨next, other, ⟨runnable, fuel, first, _, least, walk, .inl rfl⟩, rfl⟩
    | none =>
      simp only at run
      split at run
      · rename_i idle
        cases run
        exact .inl ⟨s.idleTask, idle.1,
          ⟨.inl idle.2, fuel, first, _, least, walk, .inr ⟨rfl, rfl⟩⟩, rfl⟩
      · split at run
        · cases run
          exact .inr ⟨rfl, .inl ‹_›⟩
        · split at run
          · exact ih run
          · cases run

lemma switchTo_prev {next : Nat} (other : next ≠ s.current) : (s.switchTo next).tasks s.current =
      if (s.tasks s.current).state = .running then
        { (s.tasks s.current).charged with state := .ready } else s.tasks s.current := by
  simp only [switchTo, setTask]
  rw [update_of_ne other.symm, update_self]

lemma switchTo_next {next : Nat} (other : next ≠ s.current) :
    (s.switchTo next).tasks next = { s.tasks next with state := .running } := by
  simp only [switchTo, setTask]
  rw [update_self, update_of_ne other]

end AuroraOS.Sched.State
