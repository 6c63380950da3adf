import AuroraOS.Sched.Charge
import AuroraOS.Sched.Frame
import AuroraOS.Sched.QueueRun

/-!
# What switching leaves alone

The tick and the calls that switch tasks keep the process ids, the parents, the lists of children
and the exit codes (`SameKin`), and never switch to the init task, which is in no ready tree
(`Spares`).
-/

namespace AuroraOS.Sched

open Option Function

/-- Whether a task has ended, and whether it was collected. -/
def TaskState.phase : TaskState → TaskState
  | .zombie => .zombie
  | .dead => .dead
  | _ => .ready

lemma priorities_pos : 0 < 256 := by decide

def Task.kin (t : Task) : Task :=
  { pid := t.pid, state := t.state.phase, exitCode := t.exitCode, parent := t.parent,
    children := t.children, priority := ⟨0, priorities_pos⟩ }

namespace State

open Lib Rbtree

variable {s s' s'' : State} {t u cpu fuel init : Nat} {f : Task → Task}

structure SameKin (s s' : State) : Prop where
  kin : ∀ t, (s'.tasks t).kin = (s.tasks t).kin
  bits : s'.pidBitmap = s.pidBitmap
  cursor : s'.nextPid = s.nextPid
  init : s'.initTask = s.initTask
  idle : s'.idleTask = s.idleTask

namespace SameKin

lemma refl (s : State) : SameKin s s := ⟨fun _ => rfl, rfl, rfl, rfl, rfl⟩

lemma trans (first : SameKin s s') (second : SameKin s' s'') : SameKin s s'' :=
  ⟨fun t => (second.kin t).trans (first.kin t), second.bits.trans first.bits,
    second.cursor.trans first.cursor, second.init.trans first.init, second.idle.trans first.idle⟩

lemma setTask (keeps : (f (s.tasks t)).kin = (s.tasks t).kin) : SameKin s (s.setTask t f) := by
  refine ⟨fun u => ?_, rfl, rfl, rfl, rfl⟩
  rcases eq_or_ne u t with rfl | other
  · rw [setTask_tasks_self, keeps]
  · rw [setTask_tasks_of_ne other]

variable (same : SameKin s s')
include same

lemma pid (t : Nat) : (s'.tasks t).pid = (s.tasks t).pid :=
  (congrArg Task.pid (same.kin t) :)

lemma phase (t : Nat) : (s'.tasks t).state.phase = (s.tasks t).state.phase :=
  (congrArg Task.state (same.kin t) :)

lemma exitCode (t : Nat) : (s'.tasks t).exitCode = (s.tasks t).exitCode :=
  (congrArg Task.exitCode (same.kin t) :)

lemma parent (t : Nat) : (s'.tasks t).parent = (s.tasks t).parent :=
  (congrArg Task.parent (same.kin t) :)

lemma children (t : Nat) : (s'.tasks t).children = (s.tasks t).children :=
  (congrArg Task.children (same.kin t) :)

omit same

lemma of_relinks (relinks : Relinks s s') : SameKin s s' := by
  have fields (t : Nat) : (s'.tasks t).kin = (s.tasks t).kin :=
    (congrArg Task.kin (relinks.tasks t) :)
  rw [relinks.rest] at fields ⊢
  exact ⟨fields, rfl, rfl, rfl, rfl⟩

lemma wake (blocked : (s.tasks t).state = .blocked) :
    SameKin s (s.setTask t fun t => { t with state := .ready }) := by
  refine setTask ?_
  simp [Task.kin, blocked, TaskState.phase]

lemma wakeParent (s : State) (child : Nat) : SameKin s (s.wakeParent child) := by
  unfold State.wakeParent
  split
  · exact refl s
  split
  · exact wake ‹_›
  · exact refl s

lemma signalChildEvent (s : State) (child : Nat) : SameKin s (s.signalChildEvent child) := by
  unfold State.signalChildEvent
  split
  · exact refl s
  split
  · exact refl s
  split
  · exact wake (And.left ‹_›)
  · exact refl s

lemma switchTo {next : Nat}
    (runnable : (s.tasks next).state = .ready ∨ (s.tasks next).state = .running) :
    SameKin s (s.switchTo next) := by
  let left := s.setTask s.current fun prev =>
    if prev.state = .running then { prev.charged with state := .ready } else prev
  have first : SameKin s left := by
    refine setTask ?_
    split
    · simp [Task.kin, Task.charged, TaskState.phase, *]
    · rfl
  have second : SameKin left (left.setTask next fun t => { t with state := .running }) := by
    refine setTask ?_
    have alive : (left.tasks next).state.phase = .ready := by
      rw [first.phase]
      rcases runnable with is | is <;> rw [is] <;> rfl
    simp only [Task.kin, alive]
    rfl
  exact (first.trans second).trans ⟨fun _ => rfl, rfl, rfl, rfl, rfl⟩

end SameKin

/-! ## The init task is not in the trees -/

def Spares (s : State) (init : Nat) : Prop :=
  ∀ cpu, Inside (· ≠ init) (s.heap cpu) (s.heap cpu)

variable (spares : s.Spares init)
include spares

lemma Spares.of_roots (nodes : s'.nodes = s.nodes)
    (roots : ∀ c, (s'.rq c).readyTree = (s.rq c).readyTree) : s'.Spares init := by
  intro c
  have same : s'.heap c = s.heap c := by rw [heap, heap, nodes, roots]
  rw [same]
  exact spares c

lemma Spares.congr (nodes : s'.nodes = s.nodes) (rq : s'.rq = s.rq) : s'.Spares init :=
  spares.of_roots nodes fun c => by rw [rq]

lemma Spares.setHeap {h : RbHeap}
    (inside : Inside (· ≠ init) (s.heap cpu) h) : (s.setHeap cpu h).Spares init := by
  intro c
  refine ⟨?_, inside.parent, inside.child, fun _ _ => rfl⟩
  rcases eq_or_ne c cpu with rfl | other
  · rw [heap_setHeap]
    exact inside.root
  · rw [heap, setHeap_rq_of_ne other]
    exact (spares c).root

lemma Spares.of_nodes (roots : ∀ c, (s'.rq c).readyTree = (s.rq c).readyTree)
    (nodes : ∀ a, a ≠ init → In (· ≠ init) (s'.nodes a).parent ∧
      ∀ d, In (· ≠ init) ((s'.nodes a).child d)) : s'.Spares init := by
  refine fun c => ⟨?_, fun a other => (nodes a other).1, fun a other => (nodes a other).2,
    fun _ _ => rfl⟩
  rw [heap, roots]
  exact (spares c).root

omit spares in
lemma linkTask_heap (s : State) (t cpu c : Nat) : (s.linkTask t cpu).heap c = s.heap c := by
  unfold linkTask
  split
  · rcases eq_or_ne c cpu with rfl | other
    · simp [heap]
    · simp [heap, setRq_of_ne other]
  · rfl

lemma Spares.insert {h : RbHeap} (other : t ≠ init)
    (insert : rbInsert (s.heap cpu) t fuel = some h) : (s.setHeap cpu h).Spares init := by
  have inside := rbInsert_inside (spares cpu) insert
  have same : (fun x => x = t ∨ x ≠ init) = fun x => x ≠ init :=
    funext fun x => propext (or_iff_right_of_imp fun is => is ▸ other)
  rw [same] at inside
  exact spares.setHeap inside

lemma Spares.enqueue (other : t ≠ init)
    (run : s.enqueue t cpu fuel = some s') : s'.Spares init := by
  obtain ⟨h, insert, run⟩ := bind_eq_some_iff.mp run
  cases run
  refine Spares.insert ?_ other insert
  have same (c : Nat) : (s.linkTask t cpu).heap c = s.heap c := linkTask_heap s t cpu c
  refine spares.of_nodes (fun c => ?_) fun a notInit => ?_
  · refine Eq.trans ?_ (congrArg RbHeap.root (same c))
    exact setRq_readyTree (g := fun rq => { rq with count := rq.count + 1 }) (fun _ => rfl) c
  have node : (s.linkTask t cpu).nodes = s.nodes := congrArg RbHeap.node (same 0)
  have parent : In (· ≠ init) ((s.linkTask t cpu).nodes a).parent := by
    rw [node]
    exact (spares 0).parent a notInit
  have child (d : RedBlack.Side) : In (· ≠ init) (((s.linkTask t cpu).nodes a).child d) := by
    rw [node]
    exact (spares 0).child a notInit d
  rcases eq_or_ne a t with rfl | notT
  · simp only [update_self]
    refine ⟨parent, fun d => ?_⟩
    cases d with
    | left => exact child .left
    | right => exact child .right
  · simp only [update_of_ne notT]
    exact ⟨parent, child⟩

lemma Spares.eraseNode (other : t ≠ init)
    (run : s.eraseNode t cpu fuel = some s') : s'.Spares init := by
  obtain ⟨⟨malformed, h⟩, erase, rfl⟩ := map_eq_some_iff.mp run
  exact spares.setHeap (rbErase_inside (spares cpu) other erase)

omit spares

/-! ## Switches -/

structure Switches (init : Nat) (s s' : State) : Prop where
  kin : SameKin s s'
  queues : SameQueues s s'
  next : s'.current = s.current ∨
    s'.current ≠ init ∧ (s'.tasks s'.current).state.phase = .ready

lemma Switches.refl (s : State) : Switches init s s := ⟨.refl s, .refl s, .inl rfl⟩

lemma Switches.trans (first : Switches init s s') (second : Switches init s' s'') :
    Switches init s s'' := by
  refine ⟨first.kin.trans second.kin, first.queues.trans second.queues, ?_⟩
  rcases second.next with stays | goes
  · rcases first.next with stayed | ⟨other, alive⟩
    · exact .inl (stays.trans stayed)
    · refine .inr ?_
      rw [stays, second.kin.phase]
      exact ⟨other, alive⟩
  · exact .inr goes

lemma Switches.setTask (keeps : (f (s.tasks t)).kin = (s.tasks t).kin)
    (link : (f (s.tasks t)).next = (s.tasks t).next) : Switches init s (s.setTask t f) :=
  ⟨.setTask keeps, .setTask link, .inl rfl⟩

lemma schedule_switches (spares : s.Spares init) (idle : s.idleTask ≠ init)
    (run : s.schedule cpu fuel = some s') : Switches init s s' := by
  rcases schedule_cases fuel run with ⟨next, other, ⟨runnable, chosen⟩, rfl⟩ | ⟨rfl, -⟩
  · refine ⟨.switchTo runnable, .switchTo s next, .inr ⟨?_, ?_⟩⟩
    · obtain ⟨fuel, first, found, least, walk, rfl | ⟨-, rfl⟩⟩ := chosen
      · exact (firstRunnable_spec (In (· ≠ init)) fuel (rbFindMin_inside (spares cpu) least)
          (fun inside step => rbNext_inside (spares cpu) (inside _ rfl) step) walk).1 _ rfl
      · exact idle
    · rw [show (s.switchTo next).current = next from rfl, switchTo_next other]
      rfl
  · exact Switches.refl _

lemma readied_switches (spares : s.Spares init) (idle : s.idleTask ≠ init)
    (alive : (s.tasks s.current).state.phase = .ready)
    (kin : ∀ t, (f t).kin = { t.kin with state := .ready }) (link : ∀ t, (f t).next = t.next)
    (run : (s.setTask s.current f).schedule cpu fuel = some s') : Switches init s s' := by
  have first : Switches init s (s.setTask s.current f) := by
    refine Switches.setTask ?_ (link _)
    rw [kin]
    simp only [Task.kin, alive]
  refine first.trans (schedule_switches ?_ ?_ run)
  · exact spares.congr rfl rfl
  · exact idle

lemma Switches.setNeedResched (s : State) (flag : Bool) :
    Switches init s { s with needResched := flag } :=
  ⟨⟨fun _ => rfl, rfl, rfl, rfl, rfl⟩, ⟨rfl, rfl, rfl, rfl⟩, .inl rfl⟩

lemma Call.switches (spares : s.Spares init) (idle : s.idleTask ≠ init)
    (alive : (s.tasks s.current).state.phase = .ready) (call : Call)
    (run : call.run s fuel = some s') : Switches init s s' := by
  cases call with
  | tick =>
    obtain ⟨slice, pending, flag, is⟩ := scheduleTick_eq s
    cases run
    rw [is]
    have marked : Switches init s (s.setTask s.current fun t =>
        { t with timeSlice := slice, needResched := pending }) := .setTask rfl rfl
    exact marked.trans (.setNeedResched _ flag)
  | checkResched cpu =>
    have seen : Switches init s { s with needResched := false } := .setNeedResched s false
    simp only [Call.run, State.checkResched] at run
    split at run
    · refine seen.trans (readied_switches (spares.congr rfl rfl) idle alive ?_ ?_ run)
      · exact fun _ => rfl
      · exact fun _ => rfl
    · cases run
      exact seen
  | preemptDisable =>
    cases run
    exact .setTask rfl rfl
  | preemptEnable cpu =>
    simp only [Call.run, State.preemptEnable] at run
    generalize count : (if (s.tasks s.current).preemptCount > 0 then _ else s) = s₁ at run
    have counted : Switches init s s₁ := by
      rw [← count]
      split
      · exact .setTask rfl rfl
      · exact .refl s
    have spares₁ : s₁.Spares init := spares.congr counted.queues.nodes counted.queues.rq
    have current : s₁.current = s.current := by
      rw [← count]
      split <;> rfl
    split at run
    · refine counted.trans (readied_switches spares₁ ?_ ?_ ?_ ?_ run)
      · rwa [counted.kin.idle]
      · rwa [current, counted.kin.phase]
      · exact fun _ => rfl
      · exact fun _ => rfl
    · cases run
      exact counted
  | yield cpu =>
    refine readied_switches spares idle alive
      ?_ ?_ run
    · exact fun _ => rfl
    · exact fun _ => rfl
  | schedule cpu => exact schedule_switches spares idle run

end State

end AuroraOS.Sched
