import AuroraOS.Sched.Endings

/-!
# Families over whole runs

Runs of `create_task`, `do_exit_current` and `waitpid`, with any ticks and switches between them.
-/

namespace AuroraOS.Sched.State

open Lib Rbtree Function List Option Relation

variable {s s' s₀ : State} {n n' : Census} {idle init : Nat}

/-- One call of a run, with the census of the tasks.  `kmalloc` succeeds for the child node
and returns memory that is not in use. -/
inductive FamilyStep (idle init : Nat) : State × Census → State × Census → Prop
  | create {s s' : State} {n : Census} (granted : Granted) (result : Option Nat)
      (node : granted.child = true)
      (fresh : ∀ t, granted.task = some t → t ≠ idle ∧ t ≠ init ∧ ¬n.Lists t)
      (run : Returns (s.createTask granted) (result, s')) :
      FamilyStep idle init (s, n) (s', result.elim n n.create)
  | exit {s s' : State} {n : Census} (cpu : Nat) (code : Int)
      (run : Returns (s.doExitCurrent cpu code) s') :
      FamilyStep idle init (s, n) (s', n.exit s.current code)
  | collect {s s' : State} {n : Census} (cpu : Nat) (pid : Int) (noHang : Bool)
      (child childPid : Nat) (code : Int)
      (run : Returns (s.waitpidTurn cpu pid noHang) (.collected child childPid code, s')) :
      FamilyStep idle init (s, n) (s', n.collect child)
  | wait {s s' : State} {n : Census} (cpu : Nat) (pid : Int) (noHang : Bool) (waited : Waited)
      (none : waited = .nothing ∨ waited = .blocked)
      (run : Returns (s.waitpidTurn cpu pid noHang) (waited, s')) :
      FamilyStep idle init (s, n) (s', n)
  | switch {s s' : State} {n : Census} (call : Call) (run : Returns (call.run s) s') :
      FamilyStep idle init (s, n) (s', n)

lemma FamilyStep.household {now next : State × Census} (step : FamilyStep idle init now next)
    (house : Household idle init now.1 now.2) : Household idle init next.1 next.2 := by
  have idle' : now.1.idleTask ≠ init := by
    rw [house.idleIs]
    exact house.apart
  cases step with
  | @create s s' n granted result node fresh run =>
    obtain ⟨_, run⟩ := run.exists_eq
    cases result with
    | none =>
      rcases createTask_cases run with ⟨-, rfl | failed⟩ | ⟨t, pid, s₁, s₂, -, -, -, is, -⟩
      · exact house
      · exact house.scan (allocPid_spec house.cursor failed)
      · cases is
    | some t =>
      obtain ⟨notIdle, notInit, out⟩ := fresh t (createTask_granted run)
      obtain ⟨pid, born⟩ := createTask_born house.cursor node (house.ne_current notIdle out) run
      exact house.create notIdle notInit out born (createTask_spares house.spares notInit run)
  | exit cpu code run =>
    obtain ⟨_, run⟩ := run.exists_eq
    exact house.exit run
  | collect cpu pid noHang child childPid code run =>
    obtain ⟨_, run⟩ := run.exists_eq
    exact house.collect (waitpidTurn_collects run house.runs).1
  | wait cpu pid noHang waited none run =>
    obtain ⟨_, run⟩ := run.exists_eq
    rcases waitpidTurn_cases run with
      ⟨child, cut, -, is, -, -⟩ | ⟨-, rfl⟩ | ⟨-, schedule⟩
    · rw [is] at none
      rcases none with none | none <;> cases none
    · exact house
    · refine house.switches (Switches.trans (Switches.setTask ?_ rfl)
        (schedule_switches (house.spares.congr rfl rfl) idle' schedule))
      simp only [Task.kin]
      rw [house.runs]
      rfl
  | switch call run =>
    obtain ⟨_, run⟩ := run.exists_eq
    exact house.switches (call.switches house.spares idle' house.runs run)

lemma schedulerInit_household {numCpus fuel : Nat} (apart : idle ≠ init)
    (boot : schedulerInit idle (some init) numCpus fuel = some s) :
    Household idle init s {} := by
  obtain ⟨h, insert, run⟩ := bind_eq_some_iff.mp boot
  cases run
  let start := ((bootState idle (some init) numCpus).setHeap 0 h).createInit init idle
  have nobody (t : Nat) : ¬({} : Census).Lists t := by
    rintro ⟨_, is⟩
    cases is
  have tasks : start.tasks = update (update (fun _ => { state := .dead }) idle
      { pid := 0, state := .running, timeSlice := 1, next := some idle }) init
      { pid := 1, state := .running, parent := some idle, next := some init } := rfl
  have idleTask : start.tasks idle =
      { pid := 0, state := .running, timeSlice := 1, next := some idle } := by
    rw [tasks, update_of_ne apart, update_self]
  have initTask : start.tasks init =
      { pid := 1, state := .running, parent := some idle, next := some init } := by
    rw [tasks, update_self]
  have others {t : Nat} (notIdle : t ≠ idle) (notInit : t ≠ init) :
      start.tasks t = { state := .dead } := by
    rw [tasks, update_of_ne notInit, update_of_ne notIdle]
  have children (t : Nat) : (start.tasks t).children = [] := by
    rcases eq_or_ne t idle with rfl | notIdle
    · rw [idleTask]
    rcases eq_or_ne t init with rfl | notInit
    · rw [initTask]
    · rw [others notIdle notInit]
  have empty : (bootState idle (some init) numCpus).Spares init := by
    refine fun cpu => ⟨?_, fun _ _ => in_none, fun _ _ d => ?_, fun _ _ => rfl⟩
    · rcases eq_or_ne cpu 0 with rfl | other
      · simp [heap, bootState]
      · simp [heap, bootState, other]
    · cases d <;> exact in_none
  have alive : (start.tasks idle).state.phase = .ready := by
    rw [idleTask]
    rfl
  exact {
    initIs := rfl
    idleIs := rfl
    apart := apart
    spares := (empty.insert apart insert).congr rfl rfl
    notInit := apart
    runs := alive
    roots := fun t root => by
      refine ⟨nobody t, ?_⟩
      rcases root with rfl | rfl
      · exact alive
      · exact (congrArg (fun task => task.state.phase) initTask :)
    free := fun t notIdle notInit _ => by
      exact (congrArg (fun task => task.state.phase) (others notIdle notInit) :)
    filed := by
      refine ⟨fun t => ?_, fun t c => ?_, fun c listed => absurd listed (nobody c)⟩
      · exact (children t).symm ▸ nodup_nil
      · exact iff_of_false (fun inList => by
          rw [show _ = _ from children t] at inList
          cases inList) fun both => nobody c both.1
    parents := fun t _ listed => absurd listed (nobody t)
    rootPids := ⟨(congrArg Task.pid idleTask :), (congrArg Task.pid initTask :)⟩
    pids := fun t listed => absurd listed (nobody t)
    pidsApart := fun t _ listed => absurd listed (nobody t)
    cursor := ⟨Nat.le_refl 2, show 2 < maxPid by decide⟩
    recorded := {
      past := fun t k is => by cases is
      serials := fun t u k is => by cases is
      living := fun t k is => by cases is
      zombies := fun t k code is => by cases is
      exitedPast := by
        rintro k ⟨_, exited⟩
        cases exited
      exitOnce := nodup_nil
      collectedExited := fun k collected => by cases collected
      uncollected := fun t k is => by cases is
      collectOnce := nodup_nil } }

lemma household_of_run {now : State × Census} (start : Household idle init s₀ {})
    (run : ReflTransGen (FamilyStep idle init) (s₀, {}) now) :
    Household idle init now.1 now.2 := by
  induction run with
  | refl => exact start
  | tail _ step ih => exact step.household ih

lemma Household.pid_injective (house : Household idle init s n) {t u : Nat}
    (isT : n.Uncollected idle init t) (isU : n.Uncollected idle init u)
    (equal : (s.tasks t).pid = (s.tasks u).pid) : t = u := by
  have idlePid := house.rootPids.1
  have initPid := house.rootPids.2
  have low {v : Nat} (listed : n.Lists v) : 2 ≤ (s.tasks v).pid := (house.pids v listed).1
  rcases isT with rfl | rfl | listedT <;> rcases isU with rfl | rfl | listedU
  · rfl
  · omega
  · have := low listedU
    omega
  · omega
  · rfl
  · have := low listedU
    omega
  · have := low listedT
    omega
  · have := low listedT
    omega
  · exact house.pidsApart t u listedT listedU equal

/-- Every uncollected task is a child of its parent and of nobody else, process ids are distinct,
and `waitpid` collects a child of the running task that has exited with the code it returns and was
not collected before. -/
theorem families_of_run {numCpus : Nat} (apart : idle ≠ init)
    (boot : Returns (schedulerInit idle (some init) numCpus) s₀)
    (run : ReflTransGen (FamilyStep idle init) (s₀, {}) (s, n)) :
    (∀ t, n.Lists t → ∃ p, (s.tasks t).parent = some p ∧
      ∀ q, (s.tasks q).children.count t = if q = p then 1 else 0) ∧
    (∀ t u, n.Uncollected idle init t → n.Uncollected idle init u →
      (s.tasks t).pid = (s.tasks u).pid → t = u) ∧
    (n.exits.map Prod.fst).Nodup ∧ n.collected.Nodup ∧
    ∀ cpu pid noHang fuel child childPid code s',
      s.waitpidTurn cpu pid noHang fuel = some (.collected child childPid code, s') →
      (s.tasks child).parent = some s.current ∧ childPid = (s.tasks child).pid ∧
        ∃ k, n.serial child = some k ∧ (k, code) ∈ n.exits ∧ k ∉ n.collected := by
  have house : Household idle init s n := by
    obtain ⟨_, boot⟩ := boot.exists_eq
    exact household_of_run (schedulerInit_household apart boot) run
  refine ⟨fun t listed => house.filed.count_eq listed, fun t u => house.pid_injective,
    house.recorded.exitOnce, house.recorded.collectOnce, ?_⟩
  intro cpu pid noHang fuel child childPid code s' wait
  obtain ⟨collects, isPid, rfl⟩ := waitpidTurn_collects wait house.runs
  obtain ⟨⟨k, is⟩, parent⟩ := (house.filed.mem_iff s.current child).mp collects.member
  exact ⟨parent, isPid, k, is, house.recorded.exited is collects.zombie,
    house.recorded.uncollected child k is⟩

lemma waitpidTurn_steady (s : State) (cpu : Nat) (pid : Int) (noHang : Bool) :
    Steady (s.waitpidTurn cpu pid noHang) := by
  unfold waitpidTurn
  dsimp only
  split
  · exact .const _
  · exact .ite (.const _) (schedule_steady _ _).map

/-- The idle task `1` creates the task `10` and waits; the task exits with the code 7, and
the idle task may collect it. -/
theorem families_of_run_collect : ∃ s₀ s n s', Returns (schedulerInit 1 (some 2) 1) s₀ ∧
      ReflTransGen (FamilyStep 1 2) (s₀, {}) (s, n) ∧
      n.exits = [(0, 7)] ∧ s.waitpidTurn 0 (-1) false 20 = some (.collected 10 2 7, s') ∧
      (s.tasks 10).parent = some s.current ∧
      ∃ k, n.serial 10 = some k ∧ (k, 7) ∈ n.exits ∧ k ∉ n.collected := by
  have evaluates : ((schedulerInit 1 (some 2) 1 20).bind fun s₀ =>
      (s₀.createTask ⟨some 10, true, true⟩ 20).bind fun r₁ =>
      (r₁.2.waitpidTurn 0 (-1) false 20).bind fun r₂ =>
      (r₂.2.doExitCurrent 0 7 20).bind fun s₃ =>
      (s₃.waitpidTurn 0 (-1) false 20).map fun r₄ => decide
        (r₁.1 = some 10 ∧ r₂.1 = .blocked ∧ r₂.2.current = 10 ∧
          r₄.1 = .collected 10 2 7)) = some true := by
    decide +kernel
  simp only [bind_eq_some_iff, map_eq_some_iff, decide_eq_true_eq] at evaluates
  obtain ⟨s₀, boot, ⟨created, s₁⟩, create, ⟨waited, s₂⟩, waits, s₃, exits, ⟨result, s₄⟩, collects,
    rfl, rfl, current, rfl⟩ := evaluates
  have start := (schedulerInit_steady 1 (some 2) 1).returns boot
  have run : ReflTransGen (FamilyStep 1 2) (s₀, {})
      (s₃, (Census.create {} 10).exit s₂.current 7) := by
    refine .head (.create ⟨some 10, true, true⟩ (some 10) rfl (fun t is => ?_)
      ((createTask_steady _ _).returns create)) ?_
    · cases is
      exact ⟨by decide, by decide, fun ⟨_, is⟩ => nomatch is⟩
    refine .head (.wait 0 (-1) false .blocked (.inr rfl)
      ((waitpidTurn_steady _ _ _ _).returns waits)) ?_
    exact .single (.exit 0 7 ((doExitCurrent_steady _ _ _).returns exits))
  obtain ⟨-, -, -, -, once⟩ := families_of_run (by decide) start run
  obtain ⟨parent, -, serial⟩ := once 0 (-1) false 20 10 2 7 s₄ collects
  refine ⟨s₀, s₃, _, s₄, start, run, ?_, collects, parent, serial⟩
  rw [current]
  rfl

end AuroraOS.Sched.State
