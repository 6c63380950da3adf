import AuroraOS.Rbtree.Walk
import Mathlib.Algebra.Group.Nat.Defs

/-!
# The scheduler

Model of `kernel/sched.c`.  A task is named by the address of its `task_struct`; its
`rb_node` is the node of the same address in the memory all ready trees share.

What `kmalloc` and `alloc_page` return is an argument of `createTask`.  Locks, logging,
counters, file descriptors, the freed stacks and page tables and the pending signals are
left out.  Loops carry fuel; a result `none` is a loop that has not ended, a processor
that halts for good, or a `NULL` pointer that was dereferenced.
-/

namespace AuroraOS.Sched

open Function

open Rbtree (RbNode RbHeap rbInsert rbErase rbFindMin rbNext)

def maxCpus : Nat := 8
def maxPid : Nat := 8192
def baseSlice : Nat := 10

inductive TaskState
  | running
  | ready
  | blocked
  | zombie
  | dead
deriving DecidableEq, Repr

/-- `struct task_struct`, as `memset` leaves it.  `children` are the tasks of the child
nodes in list order; `chldIgnored` says that `SIGCHLD` is blocked or ignored. -/
structure Task where
  pid : Nat := 0
  state : TaskState := .running
  exitCode : Int := 0
  parent : Option Nat := none
  children : List Nat := []
  next : Option Nat := none
  priority : Fin 256 := 0
  timeSlice : Nat := 0
  vruntime : Nat := 0
  needResched : Bool := false
  preemptCount : Nat := 0
  chldIgnored : Bool := false
deriving DecidableEq, Repr

def fullSlice (priority : Fin 256) : Nat :=
  let slice := baseSlice * (256 - priority.val) / 256
  if slice < 1 then 1 else slice

def Task.charge (t : Task) : Nat :=
  let consumed : Int := (fullSlice t.priority : Int) - t.timeSlice
  let consumed := if consumed ≤ 0 then 1 else consumed
  consumed.toNat * 128 / (t.priority.val + 1)

def Task.charged (t : Task) : Task :=
  { t with vruntime := (t.vruntime + t.charge) % 2 ^ 64 }

structure RunQueue where
  head : Option Nat := none
  readyTree : Option Nat := none
  count : Nat := 0
deriving DecidableEq, Repr

structure State where
  tasks : Nat → Task
  nodes : Nat → RbNode
  rq : Nat → RunQueue
  current : Nat
  idleTask : Nat
  initTask : Option Nat
  pidBitmap : Nat → Bool
  nextPid : Nat
  pidTable : Nat → Option Nat
  minVruntime : Nat
  numCpus : Nat
  needResched : Bool

namespace State

variable (s : State)

def setTask (t : Nat) (f : Task → Task) : State :=
  { s with tasks := update s.tasks t (f (s.tasks t)) }

def setRq (cpu : Nat) (f : RunQueue → RunQueue) : State :=
  { s with rq := update s.rq cpu (f (s.rq cpu)) }

def heap (cpu : Nat) : RbHeap := ⟨s.nodes, (s.rq cpu).readyTree⟩

def setHeap (cpu : Nat) (h : RbHeap) : State :=
  { s.setRq cpu fun rq => { rq with readyTree := h.root } with nodes := h.node }

/-! ## Process ids -/

def allocPidLoop : Nat → State → Option Nat × State
  | 0, s => (none, s)
  | attempts + 1, s =>
    let pid := s.nextPid
    let s := { s with nextPid := if pid + 1 ≥ maxPid then 2 else pid + 1 }
    if s.pidBitmap pid then allocPidLoop attempts s
    else (some pid, { s with pidBitmap := update s.pidBitmap pid true })

def allocPid : Option Nat × State :=
  let bits := update (update s.pidBitmap 0 true) 1 true
  allocPidLoop maxPid { s with pidBitmap := bits }

def freePid (pid : Nat) : State :=
  if 2 ≤ pid ∧ pid < maxPid then
    { s with
      pidBitmap := update s.pidBitmap pid false
      pidTable := update s.pidTable pid none }
  else s

def pidRegister (pid t : Nat) : State :=
  { s with
    pidTable := if pid < maxPid then update s.pidTable pid (some t) else s.pidTable }

def findTaskByPid (pid : Nat) : Option Nat :=
  if maxPid ≤ pid then none
  else (s.pidTable pid).filter fun t =>
    (s.tasks t).state ≠ .dead ∧ (s.tasks t).state ≠ .zombie

/-! ## Children -/

def addChild (parent child : Nat) (allocated : Bool) : State :=
  if allocated then
    let s := s.setTask parent fun p => { p with children := child :: p.children }
    s.setTask child fun c => { c with parent := some parent }
  else s

def adopt (s : State) (init : Nat) : List Nat → State
  | [] => s
  | child :: rest =>
    let s := s.setTask child fun c => { c with parent := some init }
    let s := s.setTask init fun i => { i with children := child :: i.children }
    s.adopt init rest

def reparentChildrenToInit (task : Nat) : State :=
  if (s.tasks task).children = [] then s
  else
    match s.initTask with
    | none => s
    | some init =>
      let s := s.adopt init (s.tasks task).children
      s.setTask task fun t => { t with children := [] }

/-! ## Run queues -/

/-- The circular list of a run queue: `t` goes behind the head. -/
def linkTask (t cpu : Nat) : State :=
  match (s.rq cpu).head with
  | none =>
    let s := s.setTask t fun task => { task with next := some t }
    s.setRq cpu fun rq => { rq with head := some t }
  | some head =>
    let s := s.setTask t fun task => { task with next := (s.tasks head).next }
    s.setTask head fun task => { task with next := some t }

def enqueue (t cpu fuel : Nat) : Option State := do
  let s := s.linkTask t cpu
  let s := s.setRq cpu fun rq => { rq with count := rq.count + 1 }
  let s := { s with
    nodes := update s.nodes t { s.nodes t with key := (s.tasks t).vruntime } }
  let h ← rbInsert (s.heap cpu) t fuel
  some (s.setHeap cpu h)

def smpEnqueueTask (t : Nat) (cpuId : Int) (fuel : Nat) : Option State :=
  if cpuId < 0 ∨ cpuId ≥ maxCpus then some s
  else if cpuId ≥ s.numCpus then some s
  else s.enqueue t cpuId.toNat fuel

def eraseNode (t cpu fuel : Nat) : Option State :=
  (rbErase (s.heap cpu) t fuel).map fun (_, h) => s.setHeap cpu h

/-- The search of `smp_dequeue_task` for the task before `t`; `none` inside says that it
came back to the head. -/
def findBefore (s : State) (t head : Nat) : Nat → Nat → Option (Option Nat)
  | 0, _ => none
  | fuel + 1, prev =>
    if (s.tasks prev).next = some t then some (some prev)
    else
      match (s.tasks prev).next with
      | none => none
      | some next => if next = head then some none else s.findBefore t head fuel next

def smpDequeueTask (t : Nat) (cpuId : Int) (fuel : Nat) : Option State :=
  if cpuId < 0 ∨ cpuId ≥ maxCpus then some s
  else
    let cpu := cpuId.toNat
    match (s.rq cpu).head with
    | none => some s
    | some head =>
      if (s.rq cpu).count = 0 then some s
      else if head = t ∧ (s.tasks t).next = some t then
        (s.setRq cpu fun rq => { rq with head := none, count := 0 }).eraseNode t cpu fuel
      else
        match s.findBefore t head fuel head with
        | none => none
        | some none => some s
        | some (some prev) =>
          let next := (s.tasks t).next
          let s := s.setTask prev fun p => { p with next := next }
          let s := if head = t then s.setRq cpu fun rq => { rq with head := next } else s
          let s := s.setRq cpu fun rq => { rq with count := rq.count - 1 }
          s.eraseNode t cpu fuel

def busiest (me : Nat) : Option Nat × Nat :=
  (List.range s.numCpus).foldl
    (fun found i =>
      if i = me then found
      else if (s.rq i).count > found.2 then (some i, (s.rq i).count) else found)
    (none, 0)

/-- The search of `smp_schedule` around the list of the source queue. -/
def findStealable (s : State) (head : Nat) : Nat → Nat → Option (Option Nat)
  | 0, _ => none
  | fuel + 1, candidate =>
    if (s.tasks candidate).state = .ready ∧ candidate ≠ head then some (some candidate)
    else
      match (s.tasks candidate).next with
      | none => none
      | some next => if next = head then some none else s.findStealable head fuel next

def smpSchedule (myCpuId : Int) (fuel : Nat) : Option State :=
  if myCpuId < 0 ∨ myCpuId ≥ s.numCpus then some s
  else if (s.rq myCpuId.toNat).count > 1 then some s
  else
    match s.busiest myCpuId.toNat with
    | (none, _) => some s
    | (some src, maxCount) =>
      if maxCount ≤ 1 then some s
      else
        match (s.rq src).head with
        | none => some s
        | some head =>
          match s.findStealable head fuel head with
          | none => none
          | some none => some s
          | some (some stolen) => do
            let s ← s.smpDequeueTask stolen src fuel
            s.smpEnqueueTask stolen myCpuId fuel

/-! ## Creation -/

structure Granted where
  task : Option Nat
  stack : Bool
  child : Bool

/-- The new `task_struct` of `create_task`, up to the choice of a processor. -/
def fillTask (t pid : Nat) : State :=
  let task : Task :=
    { pid := pid, state := .ready, priority := 128, timeSlice := fullSlice 128,
      vruntime := s.minVruntime, parent := some s.current }
  let s := s.setTask t fun _ => task
  let s := { s with nodes := update s.nodes t ⟨.red, none, none, none, 0⟩ }
  let s := s.pidRegister pid t
  { s with numCpus := if s.numCpus = 0 then 1 else s.numCpus }

def createTask (granted : Granted) (fuel : Nat) : Option (Option Nat × State) :=
  match granted.task with
  | none => some (none, s)
  | some t =>
    if granted.stack = false then some (none, s)
    else
      match s.allocPid with
      | (none, s) => some (none, s)
      | (some pid, s) => do
        let s := s.fillTask t pid
        let s ← s.enqueue t (pid % s.numCpus) fuel
        some (some t, s.addChild s.current t granted.child)

/-- The globals after the first part of `scheduler_init`, with the idle task on the list of
the first queue but not yet in its tree. -/
def bootState (idle : Nat) (init : Option Nat) (numCpus : Nat) : State where
  tasks := update (fun _ => { state := .dead }) idle
    { pid := 0, state := .running, timeSlice := 1, next := some idle }
  nodes := fun _ => ⟨.red, none, none, none, 0⟩
  rq := update (fun _ => {}) 0 { head := some idle, count := 1 }
  current := idle
  idleTask := idle
  initTask := init
  pidBitmap := fun pid => decide (pid < 2)
  nextPid := 2
  pidTable := update (fun _ => none) 0 (some idle)
  minVruntime := 0
  numCpus := numCpus
  needResched := false

def createInit (init idle : Nat) : State :=
  (s.setTask init fun _ =>
    { pid := 1, state := .running, parent := some idle, next := some init }).pidRegister 1 init

def schedulerInit (idle : Nat) (init : Option Nat) (numCpus fuel : Nat) : Option State := do
  let s := bootState idle init numCpus
  let h ← rbInsert (s.heap 0) idle fuel
  let s := s.setHeap 0 h
  match init with
  | none => some s
  | some init => some (s.createInit init idle)

/-! ## Choosing the next task -/

def firstRunnable (s : State) (h : RbHeap) : Nat → Option Nat → Option (Option Nat)
  | 0, _ => none
  | _ + 1, none => some none
  | fuel + 1, some candidate =>
    if ((s.tasks candidate).state = .ready ∨ (s.tasks candidate).state = .running) ∧
        candidate ≠ s.current then some (some candidate)
    else (rbNext h candidate fuel).bind (s.firstRunnable h fuel)

/-- The end of `schedule`: from `current` to `next`, which is another task. -/
def switchTo (next : Nat) : State :=
  let s := s.setTask s.current fun prev =>
    if prev.state = .running then { prev.charged with state := .ready } else prev
  let vruntime := (s.tasks next).vruntime
  let s := { s with
    minVruntime := if vruntime ≤ s.minVruntime then s.minVruntime else vruntime }
  { s.setTask next fun t => { t with state := .running } with current := next }

/-- `schedule` on the processor `cpu`.  A processor that halts goes on when it is woken
with a nonempty queue. -/
def schedule (s : State) (cpu : Nat) : Nat → Option State
  | 0 => none
  | fuel + 1 =>
    if (s.tasks s.current).next = none then some s
    else
      match (s.rq cpu).head with
      | none => if (s.rq cpu).count > 0 then s.schedule cpu fuel else none
      | some _ => do
        let first ← rbFindMin (s.heap cpu) fuel
        match ← s.firstRunnable (s.heap cpu) fuel first with
        | some next => some (s.switchTo next)
        | none =>
          if s.idleTask ≠ s.current ∧ (s.tasks s.idleTask).state = .ready then
            some (s.switchTo s.idleTask)
          else if (s.tasks s.current).state = .running then some s
          else if (s.rq cpu).count > 0 then s.schedule cpu fuel else none

def yield (cpu fuel : Nat) : Option State :=
  (s.setTask s.current fun t => { t.charged with state := .ready }).schedule cpu fuel

def checkResched (cpu fuel : Nat) : Option State :=
  let pending := s.needResched || (s.tasks s.current).needResched
  let s := { s with needResched := false }
  if pending then
    (s.setTask s.current fun t => { t with needResched := false, state := .ready }).schedule
      cpu fuel
  else some s

def scheduleTick : State :=
  let t := s.tasks s.current
  if t.preemptCount > 0 then s
  else if t.state = .running then
    let slice := if t.timeSlice > 0 then t.timeSlice - 1 else t.timeSlice
    if slice ≤ 0 then
      { s.setTask s.current fun t =>
          { t with needResched := true, timeSlice := fullSlice t.priority }
        with needResched := true }
    else s.setTask s.current fun t => { t with timeSlice := slice }
  else s

def preemptDisable : State :=
  s.setTask s.current fun t => { t with preemptCount := t.preemptCount + 1 }

def preemptEnable (cpu fuel : Nat) : Option State :=
  let s := if (s.tasks s.current).preemptCount > 0 then
    s.setTask s.current fun t => { t with preemptCount := t.preemptCount - 1 } else s
  if (s.tasks s.current).preemptCount = 0 ∧ (s.tasks s.current).needResched then
    (s.setTask s.current fun t => { t with needResched := false, state := .ready }).schedule
      cpu fuel
  else some s

/-! ## Exit and collection -/

/-- The part of `do_sys_kill` for `SIGCHLD` that touches the state of the target. -/
def signalChildEvent (child : Nat) : State :=
  match (s.tasks child).parent with
  | none => s
  | some parent =>
    match s.findTaskByPid (s.tasks parent).pid with
    | none => s
    | some target =>
      if (s.tasks target).state = .blocked ∧ (s.tasks target).chldIgnored = false then
        s.setTask target fun t => { t with state := .ready }
      else s

def wakeParent (child : Nat) : State :=
  match (s.tasks child).parent with
  | none => s
  | some parent =>
    if (s.tasks parent).state = .blocked then
      s.setTask parent fun t => { t with state := .ready }
    else s

def findPrev (s : State) (t : Nat) : Nat → Nat → Option Nat
  | 0, _ => none
  | fuel + 1, prev =>
    if (s.tasks prev).next = some t then some prev
    else (s.tasks prev).next.bind (s.findPrev t fuel)

/-- The end of `do_exit_current`: `current` leaves the list and the tree. -/
def leaveQueue (prev cpu fuel : Nat) : Option State := do
  let next := (s.tasks s.current).next
  let s := s.setTask prev fun p => { p with next := next }
  let s := if (s.rq cpu).head = some s.current then
    s.setRq cpu fun rq => { rq with head := next } else s
  let s ← s.eraseNode s.current cpu fuel
  let s := s.setRq cpu fun rq => { rq with count := rq.count - 1 }
  s.schedule cpu fuel

/-- What `do_exit_current` does before it leaves the run queue. -/
def becomeZombie (code : Int) : State :=
  let s := s.reparentChildrenToInit s.current
  let s := s.signalChildEvent s.current
  let s := s.setTask s.current fun t => { t with exitCode := code, state := .zombie }
  s.wakeParent s.current

def doExitCurrent (cpu : Nat) (code : Int) (fuel : Nat) : Option State := do
  if (s.tasks s.current).pid = 0 then none
  else
    let me := s.current
    let s := s.becomeZombie code
    let prev ← s.findPrev me fuel me
    if prev = me then
      if (s.rq cpu).count > 0 then
        let s ← s.schedule cpu fuel
        if s.current = me then s.leaveQueue prev cpu fuel else some s
      else none
    else s.leaveQueue prev cpu fuel

inductive Waited
  | collected (child pid : Nat) (code : Int)
  | nothing
  | blocked
deriving DecidableEq, Repr

def collectable (pid : Int) (child : Nat) : Bool :=
  (pid = -1 ∨ ((s.tasks child).pid : Int) = pid) ∧ (s.tasks child).state = .zombie

/-- One turn of the loop of `waitpid`; a blocked task makes another one when it runs
again. -/
def waitpidTurn (cpu : Nat) (pid : Int) (noHang : Bool) (fuel : Nat) : Option (Waited × State) :=
  let children := (s.tasks s.current).children
  match children.find? (s.collectable pid) with
  | some child =>
    let result := Waited.collected child (s.tasks child).pid (s.tasks child).exitCode
    let s := s.setTask s.current fun t =>
      { t with children := t.children.eraseP (s.collectable pid) }
    let s := s.freePid (s.tasks child).pid
    some (result, s.setTask child fun c => { c with state := .dead })
  | none =>
    if noHang then some (.nothing, s)
    else
      ((s.setTask s.current fun t => { t with state := .blocked }).schedule cpu fuel).map
        (Waited.blocked, ·)

end State

end AuroraOS.Sched
