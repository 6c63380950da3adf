import AuroraOS.Lib.Offspring
import AuroraOS.Sched.Kin

/-!
# Parents, children and process ids

The tasks that were created and not yet collected are counted by a `Census`.  `Household` relates it
to the state: every such task is on the list of children of its parent, which has not ended; process
ids are distinct; and zombies carry the exit codes they exited with.
-/

namespace AuroraOS.Sched

open Function

/-- The tasks created so far are numbered.  `serial` gives the number of the task at an
address while it is not collected. -/
structure Census where
  created : Nat := 0
  serial : Nat → Option Nat := fun _ => none
  exits : List (Nat × Int) := []
  collected : List Nat := []

namespace Census

def Lists (n : Census) (t : Nat) : Prop := ∃ k, n.serial t = some k

/-- The idle and the init task and the tasks that were created and not collected. -/
def Uncollected (n : Census) (idle init t : Nat) : Prop := t = idle ∨ t = init ∨ n.Lists t

def Exited (n : Census) (k : Nat) : Prop := ∃ code, (k, code) ∈ n.exits

def create (n : Census) (t : Nat) : Census :=
  { n with created := n.created + 1, serial := update n.serial t (some n.created) }

def exit (n : Census) (t : Nat) (code : Int) : Census :=
  { n with exits := (n.serial t).toList.map (·, code) ++ n.exits }

def collect (n : Census) (t : Nat) : Census :=
  { n with
    serial := update n.serial t none
    collected := (n.serial t).toList ++ n.collected }

variable {n : Census} {t u k : Nat}

lemma lists_create : (n.create t).Lists u ↔ u = t ∨ n.Lists u := by
  rcases eq_or_ne u t with rfl | other
  · simp [Lists, create]
  · simp [Lists, create, other]

lemma serial_create (is : (n.create t).serial u = some k) :
    u = t ∧ k = n.created ∨ u ≠ t ∧ n.serial u = some k := by
  rcases eq_or_ne u t with rfl | other
  · simp only [create, update_self, Option.some.injEq] at is
    exact .inl ⟨rfl, is.symm⟩
  · simp only [create, update_of_ne other] at is
    exact .inr ⟨other, is⟩

end Census

namespace State

open Lib Rbtree

variable {s s' : State} {n : Census} {t cpu fuel idle init : Nat}

/-- The census in the states of the tasks: the zombies are those that have exited, and each
carries its exit code. -/
structure Recorded (s : State) (n : Census) : Prop where
  past : ∀ t k, n.serial t = some k → k < n.created
  serials : ∀ t u k, n.serial t = some k → n.serial u = some k → t = u
  living : ∀ t k, n.serial t = some k → ¬n.Exited k → (s.tasks t).state.phase = .ready
  zombies : ∀ t k code, n.serial t = some k → (k, code) ∈ n.exits →
    (s.tasks t).state.phase = .zombie ∧ (s.tasks t).exitCode = code
  exitedPast : ∀ k, n.Exited k → k < n.created
  exitOnce : (n.exits.map Prod.fst).Nodup
  collectedExited : ∀ k ∈ n.collected, n.Exited k
  uncollected : ∀ t k, n.serial t = some k → k ∉ n.collected
  collectOnce : n.collected.Nodup

structure Household (idle init : Nat) (s : State) (n : Census) : Prop where
  initIs : s.initTask = some init
  idleIs : s.idleTask = idle
  apart : idle ≠ init
  spares : s.Spares init
  notInit : s.current ≠ init
  runs : (s.tasks s.current).state.phase = .ready
  roots : ∀ t, t = idle ∨ t = init → ¬n.Lists t ∧ (s.tasks t).state.phase = .ready
  free : ∀ t, t ≠ idle → t ≠ init → ¬n.Lists t → (s.tasks t).state.phase = .dead
  filed : Filed (fun t => (s.tasks t).children) (fun t => (s.tasks t).parent) n.Lists
  parents : ∀ t p, n.Lists t → (s.tasks t).parent = some p → (s.tasks p).state.phase = .ready
  rootPids : (s.tasks idle).pid = 0 ∧ (s.tasks init).pid = 1
  pids : ∀ t, n.Lists t →
    2 ≤ (s.tasks t).pid ∧ (s.tasks t).pid < maxPid ∧ s.pidBitmap (s.tasks t).pid = true
  pidsApart : ∀ t u, n.Lists t → n.Lists u → (s.tasks t).pid = (s.tasks u).pid → t = u
  cursor : 2 ≤ s.nextPid ∧ s.nextPid < maxPid
  recorded : s.Recorded n

lemma Recorded.congr (recorded : s.Recorded n)
    (phase : ∀ t, (s'.tasks t).state.phase = (s.tasks t).state.phase)
    (exitCode : ∀ t, (s'.tasks t).exitCode = (s.tasks t).exitCode) : s'.Recorded n :=
  { recorded with
    living := fun t k is out => by
      rw [phase]
      exact recorded.living t k is out
    zombies := fun t k code is exited => by
      rw [phase, exitCode]
      exact recorded.zombies t k code is exited }

namespace Household

variable (house : Household idle init s n)
include house

lemma congr (same : SameKin s s') (spares : s'.Spares init)
    (notInit : s'.current ≠ init) (runs : (s'.tasks s'.current).state.phase = .ready) :
    Household idle init s' n where
  initIs := same.init.trans house.initIs
  idleIs := same.idle.trans house.idleIs
  apart := house.apart
  spares := spares
  notInit := notInit
  runs := runs
  roots t root := by
    rw [same.phase]
    exact house.roots t root
  free t notIdle notInit out := by
    rw [same.phase]
    exact house.free t notIdle notInit out
  filed := house.filed.congr same.children same.parent fun _ => Iff.rfl
  parents t p listed parent := by
    rw [same.parent] at parent
    rw [same.phase]
    exact house.parents t p listed parent
  rootPids := by
    rw [same.pid, same.pid]
    exact house.rootPids
  pids t listed := by
    rw [same.pid, same.bits]
    exact house.pids t listed
  pidsApart t u listedT listedU equal := by
    rw [same.pid, same.pid] at equal
    exact house.pidsApart t u listedT listedU equal
  cursor := by
    rw [same.cursor]
    exact house.cursor
  recorded := house.recorded.congr same.phase same.exitCode

lemma current_cases : s.current = idle ∨ n.Lists s.current := by
  by_contra neither
  rw [not_or] at neither
  have dead := house.free s.current neither.1 house.notInit neither.2
  rw [house.runs] at dead
  cases dead

lemma ne_current (notIdle : t ≠ idle) (out : ¬n.Lists t) : t ≠ s.current := by
  rintro rfl
  exact house.current_cases.elim notIdle out

lemma switches (switch : Switches init s s') : Household idle init s' n := by
  refine house.congr switch.kin (house.spares.congr switch.queues.nodes switch.queues.rq) ?_ ?_
  · rcases switch.next with stays | ⟨other, -⟩
    · rw [stays]
      exact house.notInit
    · exact other
  · rcases switch.next with stays | ⟨-, runs⟩
    · rw [stays, switch.kin.phase]
      exact house.runs
    · exact runs

end Household

/-! ## Creation -/

/-- The scan for a process id sets the bit of one that is not in use, if there is one. -/
structure PidScan (s : State) (result : Option Nat) (s' : State) : Prop where
  state : ∃ bits next, s' = { s with pidBitmap := bits, nextPid := next }
  cursor : 2 ≤ s'.nextPid ∧ s'.nextPid < maxPid
  used : ∀ pid, s.pidBitmap pid = true → s'.pidBitmap pid = true
  found : ∀ pid, result = some pid →
    2 ≤ pid ∧ pid < maxPid ∧ s.pidBitmap pid = false ∧ s'.pidBitmap pid = true

variable {result : Option Nat}

lemma allocPidLoop_spec (attempts : Nat) (cursor : 2 ≤ s.nextPid ∧ s.nextPid < maxPid)
    (run : s.allocPidLoop attempts = (result, s')) : PidScan s result s' := by
  induction attempts generalizing s with
  | zero =>
    cases run
    exact ⟨⟨s'.pidBitmap, s'.nextPid, rfl⟩, cursor, fun _ set => set, by simp⟩
  | succ attempts ih =>
    have advanced : 2 ≤ (if s.nextPid + 1 ≥ maxPid then 2 else s.nextPid + 1) ∧
        (if s.nextPid + 1 ≥ maxPid then 2 else s.nextPid + 1) < maxPid := by
      split
      · exact ⟨Nat.le_refl 2, by decide⟩
      · omega
    rw [allocPidLoop] at run
    simp only at run
    split at run
    · obtain ⟨⟨bits, next, is⟩, small, used, found⟩ := ih advanced run
      exact ⟨⟨bits, next, is⟩, small, used, found⟩
    rename_i unset
    cases run
    refine ⟨⟨_, _, rfl⟩, advanced, fun pid set => ?_, fun pid is => ?_⟩
    · rcases eq_or_ne pid s.nextPid with rfl | other
      · exact update_self ..
      · exact (update_of_ne other ..).trans set
    · cases is
      exact ⟨cursor.1, cursor.2, Bool.eq_false_iff.mpr unset, update_self ..⟩

lemma allocPid_spec (cursor : 2 ≤ s.nextPid ∧ s.nextPid < maxPid)
    (run : s.allocPid = (result, s')) : PidScan s result s' := by
  let bits := update (update s.pidBitmap 0 true) 1 true
  have reserved {pid : Nat} (low : 2 ≤ pid) : bits pid = s.pidBitmap pid :=
    (update_of_ne (by omega) ..).trans (update_of_ne (by omega) ..)
  obtain ⟨⟨bits', next, is⟩, small, used, found⟩ :=
    allocPidLoop_spec (s := { s with pidBitmap := bits }) maxPid cursor run
  refine ⟨⟨bits', next, is⟩, small, fun pid set => used pid ?_, fun pid is => ?_⟩
  · rcases Nat.lt_or_ge pid 2 with root | low
    · match pid, root with
      | 0, _ => rfl
      | 1, _ => rfl
    · exact (reserved low).trans set
  · obtain ⟨low, high, unset, now⟩ := found pid is
    exact ⟨low, high, (reserved low).symm.trans unset, now⟩

lemma addChild_kin {p : Nat} (other : t ≠ p) (u : Nat) :
    ((s.addChild p t true).tasks u).kin = if u = t then { (s.tasks u).kin with parent := some p }
      else { (s.tasks u).kin with
        children := if u = p then t :: (s.tasks u).children else (s.tasks u).children } := by
  simp only [addChild, if_true]
  rcases eq_or_ne u t with rfl | notT
  · rw [setTask_tasks_self, setTask_tasks_of_ne other, if_pos rfl]
    rfl
  rw [setTask_tasks_of_ne notT, if_neg notT]
  rcases eq_or_ne u p with rfl | notP
  · rw [setTask_tasks_self, if_pos rfl]
    rfl
  · rw [setTask_tasks_of_ne notP, if_neg notP]
    rfl

structure Born (s : State) (t pid : Nat) (s' : State) : Prop where
  unused : s.pidBitmap pid = false
  range : 2 ≤ pid ∧ pid < maxPid
  now : s'.pidBitmap pid = true
  used : ∀ p, s.pidBitmap p = true → s'.pidBitmap p = true
  cursor : 2 ≤ s'.nextPid ∧ s'.nextPid < maxPid
  globals : s'.initTask = s.initTask ∧ s'.idleTask = s.idleTask ∧ s'.current = s.current
  child : (s'.tasks t).kin = { pid := pid, state := .ready, parent := some s.current }
  others : ∀ u, u ≠ t → (s'.tasks u).kin = { (s.tasks u).kin with
    children := if u = s.current then t :: (s.tasks u).children else (s.tasks u).children }

variable {granted : Granted}

lemma createTask_born (cursor : 2 ≤ s.nextPid ∧ s.nextPid < maxPid)
    (child : granted.child = true) (other : t ≠ s.current)
    (run : s.createTask granted fuel = some (some t, s')) : ∃ pid, Born s t pid s' := by
  rcases createTask_cases run with ⟨none, -⟩ | ⟨t', pid, s₁, s₂, -, alloc, enqueue, is, rfl⟩
  · cases none
  cases is
  obtain ⟨⟨bits, next, rfl⟩, small, used, found⟩ := allocPid_spec cursor alloc
  obtain ⟨low, high, unused, now⟩ := found pid rfl
  have relinks := Relinks.enqueue enqueue
  have kin := SameKin.of_relinks relinks
  have current : s₂.current = s.current := relinks.current
  rw [current, child]
  have bits' : (s₂.addChild s.current t true).pidBitmap = bits := kin.bits
  refine ⟨pid, unused, ⟨low, high⟩, ?_, ?_, ?_, ⟨kin.init, kin.idle, current⟩, ?_, fun u notT => ?_⟩
  · rw [bits']
    exact now
  · rw [bits']
    exact used
  · rw [show (s₂.addChild s.current t true).nextPid = next from kin.cursor]
    exact small
  · rw [addChild_kin other, if_pos rfl, kin.kin]
    simp [fillTask, Task.kin, TaskState.phase, pidRegister]
  · have old : (fillTask { s with pidBitmap := bits, nextPid := next } t pid).tasks u = s.tasks u :=
      update_of_ne notT _ _
    rw [addChild_kin other, if_neg notT, kin.kin, kin.children, old]

namespace Born

variable {pid : Nat}

variable (born : Born s t pid s')
include born

variable {u : Nat}

variable (other : u ≠ t)
include other

lemma pid_of_ne : (s'.tasks u).pid = (s.tasks u).pid :=
  (congrArg Task.pid (born.others u other) :)

lemma phase_of_ne : (s'.tasks u).state.phase = (s.tasks u).state.phase :=
  (congrArg Task.state (born.others u other) :)

lemma exitCode_of_ne : (s'.tasks u).exitCode = (s.tasks u).exitCode :=
  (congrArg Task.exitCode (born.others u other) :)

lemma parent_of_ne : (s'.tasks u).parent = (s.tasks u).parent :=
  (congrArg Task.parent (born.others u other) :)

lemma children_of_ne : (s'.tasks u).children =
      if u = s.current then t :: (s.tasks u).children else (s.tasks u).children :=
  (congrArg Task.children (born.others u other) :)

end Born

lemma Household.children_free (house : Household idle init s n) (notIdle : t ≠ idle)
    (notInit : t ≠ init) (out : ¬n.Lists t) : (s.tasks t).children = [] := by
  refine List.eq_nil_iff_forall_not_mem.mpr fun c inList => ?_
  obtain ⟨listed, parent⟩ := (house.filed.mem_iff t c).mp inList
  have alive := house.parents c t listed parent
  rw [house.free t notIdle notInit out] at alive
  cases alive

variable {pid : Nat}

lemma Recorded.create (recorded : s.Recorded n) (born : Born s t pid s') :
    s'.Recorded (n.create t) where
  past u k is := by
    rcases Census.serial_create is with ⟨-, rfl⟩ | ⟨-, old⟩
    · exact Nat.lt_succ_self _
    · exact Nat.lt_succ_of_lt (recorded.past u k old)
  serials u v k isU isV := by
    rcases Census.serial_create isU with ⟨rfl, rfl⟩ | ⟨-, oldU⟩
    · rcases Census.serial_create isV with ⟨rfl, -⟩ | ⟨-, oldV⟩
      · rfl
      · exact absurd (recorded.past v _ oldV) (Nat.lt_irrefl _)
    · rcases Census.serial_create isV with ⟨rfl, rfl⟩ | ⟨-, oldV⟩
      · exact absurd (recorded.past u _ oldU) (Nat.lt_irrefl _)
      · exact recorded.serials u v k oldU oldV
  living u k is out := by
    rcases Census.serial_create is with ⟨rfl, -⟩ | ⟨other, old⟩
    · exact (congrArg Task.state born.child :)
    · rw [born.phase_of_ne other]
      exact recorded.living u k old out
  zombies u k code is exited := by
    rcases Census.serial_create is with ⟨-, rfl⟩ | ⟨other, old⟩
    · exact absurd (recorded.exitedPast _ ⟨code, exited⟩) (Nat.lt_irrefl _)
    · rw [born.phase_of_ne other, born.exitCode_of_ne other]
      exact recorded.zombies u k code old exited
  exitedPast k exited := Nat.lt_succ_of_lt (recorded.exitedPast k exited)
  exitOnce := recorded.exitOnce
  collectedExited := recorded.collectedExited
  uncollected u k is := by
    rcases Census.serial_create is with ⟨-, rfl⟩ | ⟨-, old⟩
    · intro collected
      exact Nat.lt_irrefl _ (recorded.exitedPast _ (recorded.collectedExited _ collected))
    · exact recorded.uncollected u k old
  collectOnce := recorded.collectOnce

lemma Household.create (house : Household idle init s n) (notIdle : t ≠ idle)
    (notInit : t ≠ init) (fresh : ¬n.Lists t) (born : Born s t pid s') (spares : s'.Spares init) :
    Household idle init s' (n.create t) where
  initIs := born.globals.1.trans house.initIs
  idleIs := born.globals.2.1.trans house.idleIs
  apart := house.apart
  spares := spares
  notInit := by
    rw [born.globals.2.2]
    exact house.notInit
  runs := by
    rw [born.globals.2.2, born.phase_of_ne (house.ne_current notIdle fresh).symm]
    exact house.runs
  roots u root := by
    have other : u ≠ t := by
      rintro rfl
      exact root.elim notIdle notInit
    rw [Census.lists_create, born.phase_of_ne other]
    obtain ⟨out, alive⟩ := house.roots u root
    exact ⟨fun now => now.elim other out, alive⟩
  free u notIdle notInit out := by
    rw [Census.lists_create, not_or] at out
    rw [born.phase_of_ne out.1]
    exact house.free u notIdle notInit out.2
  filed := by
    refine (house.filed.add fresh s.current).congr (fun u => ?_) (fun u => ?_)
      fun _ => Census.lists_create
    · rcases eq_or_ne u t with rfl | other
      · rw [update_of_ne (house.ne_current notIdle fresh)]
        exact (congrArg Task.children born.child :).trans
          (house.children_free notIdle notInit fresh).symm
      · rw [born.children_of_ne other, update_apply]
        split
        · rename_i isCurrent
          rw [isCurrent]
        · rfl
    · rcases eq_or_ne u t with rfl | other
      · rw [update_self]
        exact (congrArg Task.parent born.child :)
      · rw [update_of_ne other]
        exact born.parent_of_ne other
  parents u p listed parent := by
    rcases eq_or_ne p t with rfl | notT
    · exact (congrArg Task.state born.child :)
    rw [born.phase_of_ne notT]
    rcases eq_or_ne u t with rfl | other
    · cases (congrArg Task.parent born.child :).symm.trans parent
      exact house.runs
    · rw [born.parent_of_ne other] at parent
      exact house.parents u p ((Census.lists_create.mp listed).resolve_left other) parent
  rootPids := by
    rw [born.pid_of_ne notIdle.symm, born.pid_of_ne notInit.symm]
    exact house.rootPids
  pids u listed := by
    rcases eq_or_ne u t with rfl | other
    · rw [show (s'.tasks u).pid = pid from (congrArg Task.pid born.child :)]
      exact ⟨born.range.1, born.range.2, born.now⟩
    · rw [born.pid_of_ne other]
      obtain ⟨low, high, used⟩ := house.pids u ((Census.lists_create.mp listed).resolve_left other)
      exact ⟨low, high, born.used _ used⟩
  pidsApart u v listedU listedV equal := by
    have isNew : (s'.tasks t).pid = pid := (congrArg Task.pid born.child :)
    have old {w : Nat} (listed : (n.create t).Lists w) (other : w ≠ t) : n.Lists w :=
      (Census.lists_create.mp listed).resolve_left other
    -- the bit of the new process id was not set, those of the others were
    have unlike {w : Nat} (listed : (n.create t).Lists w) (other : w ≠ t) :
        (s'.tasks w).pid ≠ pid := by
      intro same
      rw [born.pid_of_ne other] at same
      have set := (house.pids w (old listed other)).2.2
      rw [same, born.unused] at set
      cases set
    rcases eq_or_ne u t with rfl | notU
    · rcases eq_or_ne v u with rfl | notV
      · rfl
      · exact absurd (equal.symm.trans isNew) (unlike listedV notV)
    · rcases eq_or_ne v t with rfl | notV
      · exact absurd (equal.trans isNew) (unlike listedU notU)
      · rw [born.pid_of_ne notU, born.pid_of_ne notV] at equal
        exact house.pidsApart u v (old listedU notU) (old listedV notV) equal
  cursor := born.cursor
  recorded := house.recorded.create born

lemma createTask_spares (spares : s.Spares init) (other : t ≠ init)
    (run : s.createTask granted fuel = some (some t, s')) : s'.Spares init := by
  rcases createTask_cases run with ⟨none, -⟩ | ⟨t', pid, s₁, s₂, -, alloc, enqueue, is, rfl⟩
  · cases none
  cases is
  have scanned := (Quiet.allocPid s).1
  rw [alloc] at scanned
  have filled : (s₁.fillTask t pid).Spares init := by
    refine (spares.congr scanned.nodes scanned.rq).of_nodes (fun _ => rfl) fun a notInit => ?_
    rcases eq_or_ne a t with rfl | notT
    · have node : (s₁.fillTask a pid).nodes a = ⟨.red, none, none, none, 0⟩ :=
        update_self ..
      rw [node]
      exact ⟨in_none, fun d => by cases d <;> exact in_none⟩
    · have node : (s₁.fillTask t pid).nodes a = s.nodes a :=
        (update_of_ne notT ..).trans (congrFun scanned.nodes a)
      rw [node]
      exact ⟨(spares 0).parent a notInit, (spares 0).child a notInit⟩
  have done := Quiet.addChild s₂ s₂.current t granted.child
  exact (filled.enqueue other enqueue).congr done.1.nodes done.1.rq

lemma Household.scan (house : Household idle init s n)
    (scan : PidScan s result s') : Household idle init s' n := by
  obtain ⟨⟨bits, next, rfl⟩, cursor, used, -⟩ := scan
  exact { house with
    pids := fun t listed => by
      obtain ⟨low, high, set⟩ := house.pids t listed
      exact ⟨low, high, used _ set⟩
    cursor := cursor
    recorded := house.recorded.congr (fun _ => rfl) fun _ => rfl }

end State

end AuroraOS.Sched
