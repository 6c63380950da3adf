import AuroraOS.Sched.Charge
import AuroraOS.Sched.Pick

/-!
# The halting branch of `schedule`

`yield`, `check_resched` and `preempt_enable` make the running task ready before they call
`schedule`, whose walk over the tree passes it by.
-/

namespace AuroraOS.Sched.State

open Lib Rbtree List Option Function Relation

variable {s s₁ : State} {cpu : Nat} {call : Call}

def stuck (s : State) (found : Option Nat) : Bool :=
  found = none ∧ ¬(s.idleTask ≠ s.current ∧ (s.tasks s.idleTask).state = .ready) ∧
    (s.tasks s.current).state ≠ .running

/-- The first pass of `schedule` reaches the branch "no runnable tasks, halting". -/
def halts (s : State) (cpu fuel : Nat) : Option Bool :=
  if (s.tasks s.current).next = none ∨ (s.rq cpu).head = none then some false
  else (rbFindMin (s.heap cpu) fuel).bind fun first =>
    (s.firstRunnable (s.heap cpu) fuel first).map s.stuck

lemma halts_steady (s : State) (cpu : Nat) : Steady (s.halts cpu) :=
  .ite (.const _) ((rbFindMin_steady _).bind fun _ => (firstRunnable_steady _ _ _).map)

/-- The call makes the running task ready and enters `schedule` in the state `s₁`. -/
inductive Enters (cpu : Nat) (s : State) : Call → State → Prop
  | yield : Enters cpu s (.yield cpu)
      (s.setTask s.current fun t => { t.charged with state := .ready })
  | checkResched (pending : (s.needResched || (s.tasks s.current).needResched) = true) :
      Enters cpu s (.checkResched cpu) ({ s with needResched := false }.setTask s.current
        fun t => { t with needResched := false, state := .ready })
  | preemptEnable (last : (s.tasks s.current).preemptCount ≤ 1)
      (pending : (s.tasks s.current).needResched = true) :
      Enters cpu s (.preemptEnable cpu) (s.setTask s.current fun t =>
        { t with preemptCount := 0, needResched := false, state := .ready })

lemma Enters.run_eq (enters : Enters cpu s call s₁) (fuel : Nat) :
    call.run s fuel = s₁.schedule cpu fuel := by
  cases enters with
  | yield => rfl
  | checkResched pending => exact if_pos pending
  | preemptEnable last pending =>
    rcases Nat.le_one_iff_eq_zero_or_eq_one.mp last with count | count <;>
      simp [Call.run, State.preemptEnable, setTask, count, pending]

lemma Enters.same (enters : Enters cpu s call s₁) : SameQueues s s₁ ∧
    s₁.current = s.current ∧ s₁.idleTask = s.idleTask ∧ (s₁.tasks s.current).state = .ready ∧
      ∀ t ≠ s.current, s₁.tasks t = s.tasks t := by
  cases enters <;> exact ⟨⟨nextOf_setTask_of_keeps rfl, rfl, rfl, rfl⟩, rfl, rfl,
    by simp, fun t other => setTask_tasks_of_ne other⟩

lemma firstRunnable_total {h : RbHeap} {t : ItemTree} {front back : List Nat} {fuel : Nat}
    (linked : Focus h [] t) (place : addrs t = front ++ back)
    (enough : t.toList.length + back.length < fuel) :
    ∃ found, s.firstRunnable h fuel back.head? = some found ∧
      (found = none ↔ ∀ u ∈ back, ¬s.Eligible u) := by
  obtain ⟨fuel, rfl⟩ : ∃ n, fuel = n + 1 := ⟨fuel - 1, by omega⟩
  induction back generalizing front fuel with
  | nil => exact ⟨none, rfl, by simp⟩
  | cons u back ih =>
    rw [head?_cons, firstRunnable]
    rw [length_cons] at enough
    split
    · exact ⟨some u, rfl, by simp [Eligible, *]⟩
    rename_i passed
    rw [rbNext_spec linked place (by omega), bind_some]
    obtain ⟨n, rfl⟩ : ∃ n, fuel = n + 1 := ⟨fuel - 1, by omega⟩
    have place : addrs t = (front ++ [u]) ++ back := by simp [place]
    obtain ⟨found, walk, none_iff⟩ := ih place n (by omega)
    refine ⟨found, walk, none_iff.trans ?_⟩
    rw [forall_mem_cons]
    exact ⟨fun rest => ⟨passed, rest⟩, And.right⟩

/-- Some other task of the queue can run, the idle task is ready, or `schedule` returns at once
because the running task is on no list. -/
def CanGoOn (s : State) (cpu : Nat) : Prop :=
  (∃ t, s.Queued cpu t ∧ s.Eligible t) ∨
  (s.idleTask ≠ s.current ∧ (s.tasks s.idleTask).state = .ready) ∨ (s.tasks s.current).next = none

lemma Agrees.halts {q : Nat → List Nat} (agrees : s.Agrees q) (small : cpu < maxCpus)
    {u : Nat} (queued : s.Queued cpu u) (ready : (s.tasks s.current).state = .ready) :
    ∃ stops, Returns (s.halts cpu) stops ∧ (stops = false ↔ s.CanGoOn cpu) := by
  have queue := agrees.holds cpu small
  obtain ⟨t, tree, same⟩ := queue.tree
  by_cases alone : (s.tasks s.current).next = none
  · exact ⟨false, ⟨0, fun _ _ => if_pos (.inl alone)⟩, by simp [CanGoOn, alone]⟩
  obtain ⟨h, headIs⟩ := queue.list.exists_head (queue.queued_iff.mp queued)
  obtain ⟨found, walk, none_iff⟩ := firstRunnable_total tree.linked (nil_append _).symm
    (Nat.lt_succ_self _)
  have first := rbFindMin_spec tree.linked (Nat.lt_succ_of_le (Nat.le_add_right _ (addrs t).length))
  refine ⟨s.stuck found, (halts_steady s cpu).returns (by
    rw [State.halts, if_neg (by simp [alone, headIs]), first, bind_some, walk, map_some]), ?_⟩
  rw [stuck, decide_eq_false_iff_not, none_iff, CanGoOn]
  simp only [same.mem_iff, ← queue.queued_iff]
  grind

/-- In a run from `scheduler_init` in which every task exits on the processor whose queue it is
in, a call that reschedules while a task of the queue is runnable halts the processor exactly
where nothing but the running task can go on. -/
theorem halts_iff {idle numCpus : Nat} {init : Option Nat} {s₀ : State}
    (distinct : init ≠ some idle) (cpus : numCpus ≤ maxCpus) (small : cpu < maxCpus)
    (boot : Returns (schedulerInit idle init numCpus) s₀)
    (run : ReflTransGen (Step fun s op => op.Allowed s ∧ op.Placed s) s₀ s)
    (runnable : ∃ t, s.Queued cpu t ∧ ((s.tasks t).state = .ready ∨ (s.tasks t).state = .running))
    (enters : Enters cpu s call s₁) :
    ∃ stops, Returns (s₁.halts cpu) stops ∧ (stops = false ↔ s.CanGoOn cpu) := by
  obtain ⟨⟨q, agrees⟩, -⟩ := exists_agrees_of_run distinct cpus boot run
  obtain ⟨u, queued, -⟩ := runnable
  obtain ⟨same, current, idleTask, ready, others⟩ := enters.same
  have queued_iff (t : Nat) : s₁.Queued cpu t ↔ s.Queued cpu t := by
    rw [Queued, Queued, same.nextOf, same.rq]
  obtain ⟨stops, returns, iff⟩ := (agrees.congr same).halts small ((queued_iff u).mpr queued)
    (current ▸ ready)
  refine ⟨stops, returns, iff.trans (or_congr (exists_congr fun t => ?_) (or_congr ?_ ?_))⟩
  · rw [queued_iff, Eligible, Eligible, current]
    exact and_congr_right fun _ => and_congr_left fun other => by rw [others t other]
  · rw [idleTask, current]
    exact and_congr_right fun other => by rw [others _ other]
  · rw [current]
    exact Eq.congr_left (congrFun same.nextOf s.current)

lemma boot_alone : ∃ s₀ s₁, Returns (schedulerInit 1 none 1) s₀ ∧
    (s₀.Queued 0 1 ∧ (s₀.tasks 1).state = .running) ∧ Enters 0 s₀ (.yield 0) s₁ ∧
      Returns (s₁.halts 0) true := by
  have evaluates : ((schedulerInit 1 none 1 20).map fun s₀ => decide
      (s₀.ListsAre (update (fun _ => []) 0 [1]) ∧ (s₀.tasks 1).state = .running ∧
        (s₀.setTask s₀.current fun t => { t.charged with state := .ready }).halts 0 20 =
          some true)) = some true := by
    decide +kernel
  simp only [map_eq_some_iff, decide_eq_true_eq] at evaluates
  obtain ⟨s₀, boot, lists, running, halts⟩ := evaluates
  exact ⟨s₀, _, (schedulerInit_steady 1 none 1).returns boot,
    ⟨(lists.queued_iff (by decide)).mpr (by decide), running⟩, .yield,
    (halts_steady _ _).returns halts⟩

/-- The idle task yields, first when nothing but itself can go on, then next to a new task. -/
theorem halts_iff_alone : ∃ s₀ s₁ s s₂, Returns (schedulerInit 1 none 1) s₀ ∧
    (Enters 0 s₀ (.yield 0) s₁ ∧ Returns (s₁.halts 0) true ∧ ¬s₀.CanGoOn 0) ∧
    Step (fun s op => op.Allowed s ∧ op.Placed s) s₀ s ∧
    Enters 0 s (.yield 0) s₂ ∧ Returns (s₂.halts 0) false ∧ s.CanGoOn 0 := by
  obtain ⟨s₀, s₁, boot, runnable, enters, halts⟩ := boot_alone
  obtain ⟨stops, returns, iff⟩ := halts_iff (by decide) (by decide) (by decide) boot .refl
    ⟨1, runnable.1, .inr runnable.2⟩ enters
  cases returns.unique halts
  have evaluates : ((schedulerInit 1 none 1 20).bind fun s₀ =>
      (s₀.createTask ⟨some 10, true, true⟩ 20).map fun r => decide
        (s₀.ListsAre (update (fun _ => []) 0 [1]) ∧ r.2.ListsAre (update (fun _ => []) 0 [1, 10]) ∧
          (r.2.tasks 1).state = .running ∧ (r.2.setTask r.2.current fun t =>
            { t.charged with state := .ready }).halts 0 20 = some false)) = some true := by
    decide +kernel
  simp only [bind_eq_some_iff, map_eq_some_iff, decide_eq_true_eq] at evaluates
  obtain ⟨_, boot', ⟨created, s⟩, create, lists₀, lists, running, goes⟩ := evaluates
  cases boot.unique ((schedulerInit_steady 1 none 1).returns boot')
  have step : Step (fun s op => op.Allowed s ∧ op.Placed s) s₀ s :=
    .call (.create ⟨some 10, true, true⟩) ⟨lists₀.fresh (by decide), trivial⟩
      ((createTask_steady _ _).returns create).map
  have queued : s.Queued 0 1 := (lists.queued_iff (by decide)).mpr (by decide)
  obtain ⟨stops, returns', iff'⟩ := halts_iff (by decide) (by decide) (by decide) boot
    (.single step) ⟨1, queued, .inr running⟩ .yield
  have goesOn := (halts_steady _ _).returns goes
  cases returns'.unique goesOn
  exact ⟨s₀, s₁, s, _, boot, ⟨enters, halts, fun other => by cases iff.mpr other⟩, step, .yield,
    goesOn, iff'.mp rfl⟩

/-- The idle task is runnable and in the queue, and its `yield` reaches the halting branch. -/
theorem yield_halts : ∃ s₀ s₁, Returns (schedulerInit 1 none 1) s₀ ∧
    (∃ t, s₀.Queued 0 t ∧ (s₀.tasks t).state = .running) ∧ Enters 0 s₀ (.yield 0) s₁ ∧
      Returns (s₁.halts 0) true := by
  obtain ⟨s₀, s₁, boot, runnable, rest⟩ := boot_alone
  exact ⟨s₀, s₁, boot, ⟨1, runnable⟩, rest⟩

end AuroraOS.Sched.State
