import AuroraOS.Rbtree.Order
import AuroraOS.Sched.Frame
import AuroraOS.Sched.QueueRun

/-!
# The task that is picked

`schedule` walks the ready tree in the order of the stored keys.  The key is written when a task
enters a queue and the charge is made while the task stays there.
-/

namespace AuroraOS.Sched.State

open Lib Rbtree List Option Function Relation

variable {s s' : State} {cpu : Nat}

def Eligible (s : State) (t : Nat) : Prop :=
  ((s.tasks t).state = .ready ∨ (s.tasks t).state = .running) ∧ t ≠ s.current

/-- If the call switches to another task, then to one with the least virtual run time among
the runnable tasks of the queue. -/
def PicksLeast (s : State) (cpu : Nat) (s' : State) : Prop :=
  s'.current ≠ s.current → ∀ t, s.Queued cpu t → s.Eligible t →
    (s.tasks s'.current).vruntime ≤ (s.tasks t).vruntime

/-- The runnable tasks of the queue are in the tree under their virtual run times. -/
def Keyed (s : State) (cpu : Nat) : Prop :=
  ∀ t, s.Queued cpu t → s.Eligible t → (s.nodes t).key = (s.tasks t).vruntime

/-! ## The walk over the tree -/

/-- The walk skips no task that may be switched to. -/
lemma firstRunnable_order {h : RbHeap} {t : ItemTree} (fuel : Nat) {front back : List Nat}
    {found : Option Nat} (tree : IsRbTree h t) (place : addrs t = front ++ back)
    (skipped : ∀ u ∈ front, ¬s.Eligible u) (run : s.firstRunnable h fuel back.head? = some found)
    {u : Nat} (mem : u ∈ addrs t) (eligible : s.Eligible u) :
    ∃ next, found = some next ∧ next ∈ addrs t ∧ s.Eligible next ∧
      (h.node next).key ≤ (h.node u).key := by
  induction fuel generalizing front back with
  | zero => cases run
  | succ fuel ih =>
    cases back with
    | nil =>
      rw [place, append_nil] at mem
      exact absurd eligible (skipped u mem)
    | cons next back =>
      rw [head?_cons, firstRunnable] at run
      split at run
      · rename_i isEligible
        cases run
        refine ⟨next, rfl, by simp [place], isEligible, ?_⟩
        rw [place, mem_append] at mem
        rcases mem with inFront | inBack
        · exact absurd eligible (skipped u inFront)
        have ordered := tree.ordered
        rw [place] at ordered
        rcases mem_cons.mp inBack with rfl | later
        · exact Nat.le_refl _
        · exact (pairwise_cons.mp (pairwise_append.mp ordered).2.1).1 u later
      · rename_i notEligible
        obtain ⟨node, step, run⟩ := bind_eq_some_iff.mp run
        cases ((rbNext_steady h next).returns step).unique
          ⟨_, fun _ => rbNext_spec tree.linked place⟩
        have place : addrs t = (front ++ [next]) ++ back := by simp [place]
        refine ih place (fun v passed => ?_) run
        rcases mem_append.mp passed with before | last
        · exact skipped v before
        · rw [mem_singleton.mp last]
          exact notEligible

variable {q : Nat → List Nat}

/-- `schedule` picks the least virtual run time of the queue if the tree is keyed by it. -/
lemma Agrees.picksLeast (agrees : s.Agrees q) (small : cpu < maxCpus) (keyed : s.Keyed cpu)
    {fuel : Nat} (run : s.schedule cpu fuel = some s') : s.PicksLeast cpu s' := by
  intro switched u queued eligible
  have queue := agrees.holds cpu small
  obtain ⟨t, tree, same⟩ := queue.tree
  have inTree (v : Nat) : v ∈ addrs t ↔ s.Queued cpu v := same.mem_iff.trans queue.queued_iff.symm
  obtain ⟨next', -, ⟨-, fuel, first, found, least, walk, target⟩, rfl⟩ :=
    (schedule_cases fuel run).resolve_right fun stays => switched (congrArg State.current stays.1)
  cases ((rbFindMin_steady _).returns least).unique ⟨_, fun _ => rbFindMin_spec tree.linked⟩
  obtain ⟨next, rfl, mem, able, le⟩ := firstRunnable_order fuel tree (nil_append _).symm
    (by simp) walk ((inTree u).mpr queued) eligible
  have current : next = next' := by simpa using target
  have nextKey := keyed next ((inTree next).mp mem) able
  have key := keyed u queued eligible
  calc (s.tasks next').vruntime
      = (s.nodes next).key := by rw [← current, nextKey]
    _ ≤ (s.nodes u).key := le
    _ = (s.tasks u).vruntime := key

lemma Agrees.picksLeast_yield (agrees : s.Agrees q) (small : cpu < maxCpus)
    (keyed : s.Keyed cpu) {fuel : Nat} (run : s.yield cpu fuel = some s') :
    s.PicksLeast cpu s' := by
  let s₁ := s.setTask s.current fun t => { t.charged with state := .ready }
  have same : SameQueues s s₁ := SameQueues.setTask rfl
  have task {t : Nat} (other : t ≠ s.current) : s₁.tasks t = s.tasks t := setTask_tasks_of_ne other
  have queued (t : Nat) : s₁.Queued cpu t ↔ s.Queued cpu t := by
    rw [Queued, Queued, same.nextOf, same.rq]
  have able (t : Nat) : s₁.Eligible t ↔ s.Eligible t :=
    and_congr_left fun other => by rw [task other]
  have keyed₁ : s₁.Keyed cpu := fun t inQueue eligible => by
    rw [task eligible.2]
    exact keyed t ((queued t).mp inQueue) ((able t).mp eligible)
  intro switched t inQueue eligible
  have least := (agrees.congr same).picksLeast small keyed₁ run switched t ((queued t).mpr inQueue)
    ((able t).mpr eligible)
  rwa [task switched, task eligible.2] at least

/-! ## Runs -/

inductive Round
  | create (granted : Granted)
  | schedule
  | yield
  | tick
  | balance

def Round.run (cpu : Nat) (s : State) : Round → Nat → Option State
  | .create granted, fuel => (s.createTask granted fuel).map Prod.snd
  | .schedule, fuel => s.schedule cpu fuel
  | .yield, fuel => s.yield cpu fuel
  | .tick, _ => some s.scheduleTick
  | .balance, fuel => s.smpSchedule cpu fuel

def Round.Allowed (s : State) : Round → Prop
  | .create granted => ∀ t, granted.task = some t → s.Unqueued t
  | _ => True

/-- The tree is keyed by the virtual run times when it is searched. -/
def Round.Keyed (cpu : Nat) (s : State) : Round → Prop
  | .schedule | .yield => s.Keyed cpu
  | _ => True

inductive RoundStep (cpu : Nat) (ok : State → Round → Prop) : State → State → Prop
  | round {s s' : State} (round : Round) (meets : ok s round)
      (run : Returns (round.run cpu s) s') : RoundStep cpu ok s s'

lemma Quiet.scheduleTick (s : State) : Quiet s s.scheduleTick := by
  obtain ⟨slice, pending, flag, is⟩ := scheduleTick_eq s
  have marked : Quiet s (s.setTask s.current fun t =>
      { t with timeSlice := slice, needResched := pending }) := Quiet.setTask rfl
  rw [is]
  exact marked.trans ⟨⟨rfl, rfl, rfl, rfl⟩, rfl⟩

lemma createTask_current {granted : Granted} {result : Option Nat} {fuel : Nat}
    (run : s.createTask granted fuel = some (result, s')) : s'.current = s.current := by
  have alloc := (Quiet.allocPid s).2
  rcases createTask_cases run with
    ⟨-, rfl | failed⟩ | ⟨t, pid, s₁, s₂, -, allocated, enqueue, -, rfl⟩
  · rfl
  · rwa [failed] at alloc
  · rw [allocated] at alloc
    exact ((Quiet.addChild s₂ s₂.current t granted.child).2.trans
      (Relinks.enqueue enqueue).current).trans alloc

lemma RoundStep.step {ok : State → Round → Prop}
    (allowed : ∀ s round, ok s round → round.Allowed s) (step : RoundStep cpu ok s s') :
    Step (fun s op => op.Allowed s ∧ op.Placed s) s s' := by
  obtain ⟨round, meets, returns⟩ := step
  have fresh := allowed s round meets
  obtain ⟨bound, run⟩ := returns
  have now := run bound (Nat.le_refl bound)
  cases round with
  | create granted => exact .call (.create granted) ⟨fresh, trivial⟩ ⟨bound, run⟩
  | schedule => exact .other (SameQueues.schedule now)
  | yield => exact .other (SameQueues.yield now)
  | tick =>
    cases now
    exact .other (Quiet.scheduleTick s).1
  | balance => exact .call (.balance cpu) ⟨trivial, trivial⟩ ⟨bound, run⟩

/-- In a run on one processor in which the ready tree is keyed by the virtual run times
whenever it is searched, every switch is to a task with the least one. -/
theorem least_of_run {idle numCpus : Nat} {init : Option Nat} {s₀ : State} {round : Round}
    (distinct : init ≠ some idle) (cpus : numCpus ≤ maxCpus) (small : cpu < maxCpus)
    (boot : Returns (schedulerInit idle init numCpus) s₀)
    (run : ReflTransGen
      (RoundStep cpu fun s round => round.Allowed s ∧ round.Keyed cpu s) s₀ s)
    (meets : round.Allowed s ∧ round.Keyed cpu s) (returns : Returns (round.run cpu s) s') :
    s.PicksLeast cpu s' := by
  obtain ⟨q, agrees⟩ : ∃ q, s.Agrees q := by
    refine (exists_agrees_of_run distinct cpus boot (run.lift id fun _ _ step => ?_)).1
    exact step.step fun _ _ meets => meets.1
  obtain ⟨bound, run⟩ := returns
  have now := run bound (Nat.le_refl bound)
  cases round with
  | schedule => exact agrees.picksLeast small meets.2 now
  | yield => exact agrees.picksLeast_yield small meets.2 now
  -- the other calls do not switch
  | create granted =>
    obtain ⟨⟨result, s'⟩, create, rfl⟩ := map_eq_some_iff.mp now
    exact fun switched => absurd (createTask_current create) switched
  | tick =>
    cases now
    exact fun switched => absurd (Quiet.scheduleTick s).2 switched
  | balance => exact fun switched => absurd (Relinks.smpSchedule now).current switched

/-- The idle task yields to a new task. -/
theorem least_of_run_yield : ∃ s₀ s s', Returns (schedulerInit 1 (some 2) 1) s₀ ∧ ReflTransGen
        (RoundStep 0 fun s round => round.Allowed s ∧ round.Keyed 0 s) s₀ s ∧
      Returns ((Round.yield).run 0 s) s' ∧ s'.current = 10 ∧ s.PicksLeast 0 s' := by
  have evaluates : ((schedulerInit 1 (some 2) 1 20).bind fun s₀ =>
      (s₀.createTask ⟨some 10, true, true⟩ 20).bind fun r₁ =>
      (r₁.2.yield 0 20).map fun s₂ => decide
        (s₀.ListsAre (update (fun _ => []) 0 [1]) ∧
          r₁.2.ListsAre (update (fun _ => []) 0 [1, 10]) ∧
          (∀ t ∈ [1, 10], t = r₁.2.current ∨ (r₁.2.nodes t).key = (r₁.2.tasks t).vruntime) ∧
          s₂.current = 10)) = some true := by
    decide +kernel
  simp only [bind_eq_some_iff, map_eq_some_iff, decide_eq_true_eq] at evaluates
  obtain ⟨s₀, boot, ⟨created, s₁⟩, create, s₂, yields, lists₀, lists₁, keys, current⟩ := evaluates
  have start := (schedulerInit_steady 1 (some 2) 1).returns boot
  have run : ReflTransGen
      (RoundStep 0 fun s round => round.Allowed s ∧ round.Keyed 0 s) s₀ s₁ :=
    .single (.round (.create ⟨some 10, true, true⟩) ⟨lists₀.fresh (by decide), trivial⟩
      ((createTask_steady _ _).returns create).map)
  have keyed : s₁.Keyed 0 := fun t queued eligible =>
    (keys t ((lists₁.queued_iff (by decide)).mp queued)).resolve_left eligible.2
  have meets : (Round.yield).Allowed s₁ ∧ (Round.yield).Keyed 0 s₁ := ⟨trivial, keyed⟩
  have returns : Returns ((Round.yield).run 0 s₁) s₂ := (yield_steady _ _).returns yields
  exact ⟨s₀, s₁, s₂, start, run, returns, current,
    least_of_run (by decide) (by decide) (by decide) start run meets returns⟩

/-- The idle task yields to the first of two new tasks, and that one yields at once.  The
idle task, which was charged 1152 units, is picked again, although the second task has
never run. -/
theorem schedule_picks_charged : ∃ s₀ s s', Returns (schedulerInit 1 (some 2) 1) s₀ ∧
      ReflTransGen (RoundStep 0 fun s round => round.Allowed s) s₀ s ∧
      Returns ((Round.yield).run 0 s) s' ∧ s.current = 10 ∧ s'.current = 1 ∧
      (s.tasks 1).vruntime = 1152 ∧ (s.tasks 11).vruntime = 0 ∧ ¬s.PicksLeast 0 s' := by
  have evaluates : ((schedulerInit 1 (some 2) 1 20).bind fun s₀ =>
      (s₀.createTask ⟨some 10, true, true⟩ 20).bind fun r₁ =>
      (r₁.2.createTask ⟨some 11, true, true⟩ 20).bind fun r₂ =>
      (r₂.2.yield 0 20).bind fun s₃ =>
      (s₃.yield 0 20).map fun s₄ => decide
        (s₀.ListsAre (update (fun _ => []) 0 [1]) ∧
          r₁.2.ListsAre (update (fun _ => []) 0 [1, 10]) ∧
          s₃.ListsAre (update (fun _ => []) 0 [1, 11, 10]) ∧
          s₃.current = 10 ∧ s₄.current = 1 ∧ (s₃.tasks 11).state = .ready ∧
          (s₃.tasks 1).vruntime = 1152 ∧ (s₃.tasks 11).vruntime = 0)) = some true := by
    decide +kernel
  simp only [bind_eq_some_iff, map_eq_some_iff, decide_eq_true_eq] at evaluates
  obtain ⟨s₀, boot, ⟨created, s₁⟩, create₁, ⟨created', s₂⟩, create₂, s₃, yields, s₄, again, lists₀,
    lists₁, lists₃, current, next, ready, charged, zero⟩ := evaluates
  refine ⟨s₀, s₃, s₄, (schedulerInit_steady 1 (some 2) 1).returns boot, ?_,
    (yield_steady _ _).returns again, current, next, charged, zero, fun least => ?_⟩
  · refine .head (.round (.create ⟨some 10, true, true⟩) (lists₀.fresh (by decide))
      ((createTask_steady _ _).returns create₁).map) ?_
    refine .head (.round (.create ⟨some 11, true, true⟩) (lists₁.fresh (by decide))
      ((createTask_steady _ _).returns create₂).map) ?_
    exact .single (.round .yield trivial ((yield_steady _ _).returns yields))
  · have wrong := least (by rw [current, next]; decide) 11
      ((lists₃.queued_iff (by decide)).mpr (by decide)) ⟨.inl ready, by rw [current]; decide⟩
    rw [next, charged, zero] at wrong
    exact absurd wrong (by decide)

end AuroraOS.Sched.State
