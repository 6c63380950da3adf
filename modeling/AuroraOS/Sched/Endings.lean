import AuroraOS.Sched.Family

/-!
# Exit and collection

`do_exit_current` hands the children of the running task to the init task, makes it a zombie and
does not return to it; `waitpid` takes a zombie out of the list of the running task.
-/

namespace AuroraOS.Sched.State

open Lib Rbtree Function List Option

variable {s s' : State} {n : Census} {t cpu fuel idle init : Nat}

/-! ## Exit -/

lemma adopt_tasks (children : List Nat) (s : State) (u : Nat) :
    (s.adopt init children).tasks u = { s.tasks u with
      parent := if u ∈ children then some init else (s.tasks u).parent
      children := if u = init then children.reverse ++ (s.tasks u).children
        else (s.tasks u).children } := by
  induction children generalizing s with
  | nil => simp [adopt]
  | cons child rest ih =>
    have parents : ((s.setTask child fun c => { c with parent := some init }).setTask init
        fun i => { i with children := child :: i.children }).tasks u = { s.tasks u with
          parent := if u = child then some init else (s.tasks u).parent
          children := if u = init then child :: (s.tasks u).children
            else (s.tasks u).children } := by
      rcases eq_or_ne u init with rfl | notInit
      · rcases eq_or_ne u child with rfl | notChild
        · simp
        · simp [setTask_tasks_of_ne notChild, notChild]
      · rcases eq_or_ne u child with rfl | notChild
        · simp [setTask_tasks_of_ne notInit, notInit]
        · simp [setTask_tasks_of_ne notInit, setTask_tasks_of_ne notChild, notInit, notChild]
    rw [adopt, ih, parents]
    by_cases inRest : u ∈ rest <;> rcases eq_or_ne u init with rfl | notInit <;>
      simp [*]

lemma reparent_kin (initIs : s.initTask = some init) (other : t ≠ init) (u : Nat) :
    ((s.reparentChildrenToInit t).tasks u).kin = { (s.tasks u).kin with
      parent := if u ∈ (s.tasks t).children then some init else (s.tasks u).parent
      children := if u = t then [] else if u = init then
        (s.tasks t).children.reverse ++ (s.tasks u).children else (s.tasks u).children } := by
  unfold reparentChildrenToInit
  split
  · rename_i none
    rcases eq_or_ne u t with rfl | notT
    · simp [none, Task.kin]
    · simp [none, notT, Task.kin]
  · rw [initIs]
    rcases eq_or_ne u t with rfl | notT
    · rw [setTask_tasks_self, adopt_tasks]
      simp [Task.kin]
    · rw [setTask_tasks_of_ne notT, adopt_tasks]
      simp [Task.kin, notT]

/-- What `do_exit_current` does to the families: the children of the running task go to the
init task, and it becomes a zombie with its exit code. -/
structure Exits (s : State) (init : Nat) (code : Int) (s' : State) : Prop where
  bits : s'.pidBitmap = s.pidBitmap
  cursor : s'.nextPid = s.nextPid
  globals : s'.initTask = s.initTask ∧ s'.idleTask = s.idleTask
  kin : ∀ u, (s'.tasks u).kin = { (s.tasks u).kin with
    state := if u = s.current then .zombie else (s.tasks u).state.phase
    exitCode := if u = s.current then code else (s.tasks u).exitCode
    parent := if u ∈ (s.tasks s.current).children then some init else (s.tasks u).parent
    children := if u = s.current then [] else if u = init then
      (s.tasks s.current).children.reverse ++ (s.tasks u).children else (s.tasks u).children }

namespace Exits

variable {code : Int}

variable (exits : Exits s init code s')
include exits

lemma pid (u : Nat) : (s'.tasks u).pid = (s.tasks u).pid :=
  (congrArg Task.pid (exits.kin u) :)

lemma phase (u : Nat) : (s'.tasks u).state.phase =
    if u = s.current then .zombie else (s.tasks u).state.phase :=
  (congrArg Task.state (exits.kin u) :)

lemma exitCode (u : Nat) : (s'.tasks u).exitCode =
    if u = s.current then code else (s.tasks u).exitCode :=
  (congrArg Task.exitCode (exits.kin u) :)

lemma parent (u : Nat) : (s'.tasks u).parent =
    if u ∈ (s.tasks s.current).children then some init else (s.tasks u).parent :=
  (congrArg Task.parent (exits.kin u) :)

lemma children (u : Nat) : (s'.tasks u).children = if u = s.current then [] else if u = init then
      (s.tasks s.current).children.reverse ++ (s.tasks u).children else (s.tasks u).children :=
  (congrArg Task.children (exits.kin u) :)

lemma congr {s'' : State} (same : SameKin s' s'') : Exits s init code s'' where
  bits := same.bits.trans exits.bits
  cursor := same.cursor.trans exits.cursor
  globals := ⟨same.init.trans exits.globals.1, same.idle.trans exits.globals.2⟩
  kin u := (same.kin u).trans (exits.kin u)

end Exits

lemma adopt_eq (children : List Nat) (s : State) :
    s.adopt init children = { s with tasks := (s.adopt init children).tasks } := by
  induction children generalizing s with
  | nil => rfl
  | cons child rest ih =>
    rw [adopt, ih]
    rfl

lemma reparent_eq (s : State) (t : Nat) : s.reparentChildrenToInit t =
    { s with tasks := (s.reparentChildrenToInit t).tasks } := by
  unfold reparentChildrenToInit
  split
  · rfl
  split
  · rfl
  · rw [adopt_eq]
    rfl

lemma becomeZombie_exits (initIs : s.initTask = some init) (other : s.current ≠ init)
    (code : Int) : Exits s init code (s.becomeZombie code) := by
  let orphaned := s.reparentChildrenToInit s.current
  let told := orphaned.signalChildEvent orphaned.current
  let ended := told.setTask told.current fun t => { t with exitCode := code, state := .zombie }
  have me : told.current = s.current :=
    (Quiet.signal orphaned orphaned.current).2.trans (Quiet.reparent s s.current).2
  have signal : SameKin orphaned told := .signalChildEvent _ _
  have wake : SameKin ended (s.becomeZombie code) := .wakeParent _ _
  have globals : orphaned.pidBitmap = s.pidBitmap ∧ orphaned.nextPid = s.nextPid ∧
      orphaned.initTask = s.initTask ∧ orphaned.idleTask = s.idleTask := by
    rw [show orphaned = _ from reparent_eq s s.current]
    exact ⟨rfl, rfl, rfl, rfl⟩
  refine ⟨(wake.bits.trans signal.bits).trans globals.1,
    (wake.cursor.trans signal.cursor).trans globals.2.1,
    ⟨(wake.init.trans signal.init).trans globals.2.2.1,
      (wake.idle.trans signal.idle).trans globals.2.2.2⟩, fun u => ?_⟩
  have kin : (told.tasks u).kin = _ := (signal.kin u).trans (reparent_kin initIs other u)
  rw [wake.kin]
  rcases eq_or_ne u s.current with rfl | notMe
  · have task : (ended.tasks s.current).kin =
        { (told.tasks s.current).kin with state := .zombie, exitCode := code } := by
      rw [← me]
      simp only [ended, setTask_tasks_self]
      rfl
    rw [task, kin]
    simp
  · have task : ended.tasks u = told.tasks u := setTask_tasks_of_ne (by rwa [me])
    rw [task, kin]
    simp [notMe, Task.kin]

structure Leaves (init : Nat) (s s' : State) : Prop where
  kin : SameKin s s'
  spares : s'.Spares init
  notInit : s'.current ≠ init
  runs : (s'.tasks s'.current).state.phase = .ready

lemma schedule_leaves (spares : s.Spares init) (idle : s.idleTask ≠ init)
    (zombie : (s.tasks s.current).state.phase = .zombie) (linked : (s.tasks s.current).next ≠ none)
    (run : s.schedule cpu fuel = some s') : Leaves init s s' ∧ s'.current ≠ s.current := by
  have switch := schedule_switches spares idle run
  have moved : s'.current ≠ s.current := by
    rcases schedule_cases fuel run with ⟨next, other, -, rfl⟩ | ⟨-, running | unlinked⟩
    · exact other
    · rw [running] at zombie
      cases zombie
    · exact absurd unlinked linked
  obtain ⟨notInit, runs⟩ := switch.next.resolve_left moved
  exact ⟨⟨switch.kin, spares.congr switch.queues.nodes switch.queues.rq, notInit, runs⟩, moved⟩

lemma leaveQueue_leaves {prev : Nat} (spares : s.Spares init) (idle : s.idleTask ≠ init)
    (zombie : (s.tasks s.current).state.phase = .zombie) (linked : (s.tasks s.current).next ≠ none)
    (notInit : s.current ≠ init) (other : prev ≠ s.current)
    (run : s.leaveQueue prev cpu fuel = some s') : Leaves init s s' := by
  rw [leaveQueue_eq] at run
  have same := Relinks.bypass s prev s.current cpu
  have spares₁ : (s.bypass prev s.current cpu).Spares init := by
    unfold bypass
    split
    · exact spares.of_roots rfl (setRq_readyTree fun _ => rfl)
    · exact spares.congr rfl rfl
  have task : (s.bypass prev s.current cpu).tasks s.current = s.tasks s.current := by
    unfold bypass
    split <;> exact update_of_ne other.symm _ _
  obtain ⟨erased, erase, run⟩ := bind_eq_some_iff.mp run
  have spares₂ : erased.Spares init := spares₁.eraseNode notInit erase
  let counted := erased.setRq cpu fun rq => { rq with count := rq.count - 1 }
  have relinks : Relinks s counted :=
    (same.trans (Relinks.eraseNode erase)).trans (Relinks.setRq _ _ _)
  have kin := SameKin.of_relinks relinks
  have current : counted.current = s.current := relinks.current
  have spares₃ : counted.Spares init := spares₂.of_roots rfl (setRq_readyTree fun _ => rfl)
  have task : counted.tasks s.current = s.tasks s.current := by
    obtain ⟨⟨malformed, h⟩, -, rfl⟩ := map_eq_some_iff.mp erase
    exact task
  obtain ⟨leaves, -⟩ := schedule_leaves spares₃ (by rwa [kin.idle]) (by rwa [current, task])
    (by rwa [current, task]) run
  exact { leaves with kin := kin.trans leaves.kin }

lemma findPrev_linked {t prev p : Nat} (run : s.findPrev t fuel prev = some p) :
    (s.tasks prev).next ≠ none := by
  cases fuel with
  | zero => cases run
  | succ fuel =>
    intro unlinked
    rw [findPrev, unlinked] at run
    simp at run

variable {code : Int}

lemma doExitCurrent_spec (initIs : s.initTask = some init) (spares : s.Spares init)
    (idle : s.idleTask ≠ init) (notInit : s.current ≠ init)
    (run : s.doExitCurrent cpu code fuel = some s') :
    (s.tasks s.current).pid ≠ 0 ∧ Exits s init code s' ∧ s'.Spares init ∧ s'.current ≠ init ∧
      (s'.tasks s'.current).state.phase = .ready := by
  unfold doExitCurrent at run
  split at run
  · cases run
  rename_i nonzero
  have exits := becomeZombie_exits initIs notInit code
  have quiet := Quiet.becomeZombie s code
  have spares₁ := spares.congr quiet.1.nodes quiet.1.rq
  have zombie : ((s.becomeZombie code).tasks s.current).state.phase = .zombie := by
    rw [exits.phase, if_pos rfl]
  obtain ⟨prev, find, run⟩ := bind_eq_some_iff.mp run
  have linked := findPrev_linked find
  rw [← quiet.2] at zombie linked
  have idle₁ : (s.becomeZombie code).idleTask ≠ init := by rwa [exits.globals.2]
  have notInit₁ : (s.becomeZombie code).current ≠ init := by rwa [quiet.2]
  have leaves : Leaves init (s.becomeZombie code) s' := by
    split at run
    · split at run
      · obtain ⟨next, schedule, run⟩ := bind_eq_some_iff.mp run
        obtain ⟨leaves, moved⟩ := schedule_leaves spares₁ idle₁ zombie linked schedule
        rw [quiet.2] at moved
        rw [if_neg moved] at run
        cases run
        exact leaves
      · cases run
    · refine leaveQueue_leaves spares₁ idle₁ zombie linked notInit₁ ?_ run
      rwa [quiet.2]
  exact ⟨nonzero, exits.congr leaves.kin, leaves.spares, leaves.notInit, leaves.runs⟩

variable {k child : Nat}

lemma Recorded.exit (recorded : s.Recorded n)
    (me : n.serial s.current = some k) (alive : (s.tasks s.current).state.phase = .ready)
    (exits : Exits s init code s') : s'.Recorded (n.exit s.current code) := by
  have is : n.exit s.current code = { n with exits := (k, code) :: n.exits } := by
    simp [Census.exit, me]
  have new : ¬n.Exited k := by
    rintro ⟨old, exited⟩
    have zombie := (recorded.zombies _ k old me exited).1
    rw [alive] at zombie
    cases zombie
  rw [is]
  exact { recorded with
    living := fun u j isJ out => by
      have other : u ≠ s.current := by
        rintro rfl
        cases me.symm.trans isJ
        exact out ⟨code, mem_cons_self ..⟩
      rw [exits.phase, if_neg other]
      refine recorded.living u j isJ fun ⟨old, exited⟩ => out ⟨old, ?_⟩
      exact mem_cons_of_mem _ exited
    zombies := fun u j old isJ exited => by
      rw [exits.phase, exits.exitCode]
      rcases mem_cons.mp exited with now | before
      · cases now
        cases recorded.serials u s.current k isJ me
        rw [if_pos rfl, if_pos rfl]
        exact ⟨rfl, rfl⟩
      · have other : u ≠ s.current := by
          rintro rfl
          cases me.symm.trans isJ
          exact new ⟨old, before⟩
        rw [if_neg other, if_neg other]
        exact recorded.zombies u j old isJ before
    exitedPast := fun j ⟨old, exited⟩ => by
      rcases mem_cons.mp exited with now | before
      · cases now
        exact recorded.past _ k me
      · exact recorded.exitedPast j ⟨old, before⟩
    exitOnce := by
      refine nodup_cons.mpr ⟨fun exited => ?_, recorded.exitOnce⟩
      obtain ⟨⟨j, old⟩, before, rfl⟩ := mem_map.mp exited
      exact new ⟨old, before⟩
    collectedExited := fun j collected => by
      obtain ⟨old, exited⟩ := recorded.collectedExited j collected
      exact ⟨old, mem_cons_of_mem _ exited⟩ }

lemma Household.exit (house : Household idle init s n)
    (run : s.doExitCurrent cpu code fuel = some s') :
    Household idle init s' (n.exit s.current code) := by
  have idle' : s.idleTask ≠ init := by
    rw [house.idleIs]
    exact house.apart
  obtain ⟨nonzero, exits, spares, notInit, runs⟩ :=
    doExitCurrent_spec house.initIs house.spares idle' house.notInit run
  have notIdle : s.current ≠ idle := by
    intro isIdle
    rw [isIdle] at nonzero
    exact nonzero house.rootPids.1
  obtain ⟨k, me⟩ := house.current_cases.resolve_left notIdle
  have notMe {u : Nat} (root : u = idle ∨ u = init) : u ≠ s.current :=
    fun isMe => root.elim (fun isIdle => notIdle (isMe.symm.trans isIdle))
      fun isInit => house.notInit (isMe.symm.trans isInit)
  exact {
    initIs := exits.globals.1.trans house.initIs
    idleIs := exits.globals.2.trans house.idleIs
    apart := house.apart
    spares := spares
    notInit := notInit
    runs := runs
    roots := fun u root => by
      rw [exits.phase, if_neg (notMe root)]
      exact house.roots u root
    free := fun u notIdle notInit out => by
      have other : u ≠ s.current := fun isMe => out ⟨k, isMe ▸ me⟩
      rw [exits.phase, if_neg other]
      exact house.free u notIdle notInit out
    filed := by
      refine house.filed.adopt (notMe (.inr rfl)) ?_ ?_ ?_ ?_ ?_
      · rw [exits.children, if_pos rfl]
      · rw [exits.children, if_neg (notMe (.inr rfl)), if_pos rfl]
      · intro u notMe notInit
        rw [exits.children, if_neg notMe, if_neg notInit]
      · intro u inList
        rw [exits.parent, if_pos inList]
      · intro u out
        rw [exits.parent, if_neg out]
    parents := fun u p listed parent => by
      rw [exits.parent] at parent
      split at parent
      · cases parent
        rw [exits.phase, if_neg (notMe (.inr rfl))]
        exact (house.roots init (.inr rfl)).2
      rename_i out
      have other : p ≠ s.current := by
        rintro rfl
        exact out ((house.filed.mem_iff s.current u).mpr ⟨listed, parent⟩)
      rw [exits.phase, if_neg other]
      exact house.parents u p listed parent
    rootPids := by
      rw [exits.pid, exits.pid]
      exact house.rootPids
    pids := fun u listed => by
      rw [exits.pid, exits.bits]
      exact house.pids u listed
    pidsApart := fun u v listedU listedV equal => by
      rw [exits.pid, exits.pid] at equal
      exact house.pidsApart u v listedU listedV equal
    cursor := by
      rw [exits.cursor]
      exact house.cursor
    recorded := house.recorded.exit me house.runs exits }

/-! ## Collection -/

lemma waitpidTurn_cases {pid : Int} {noHang : Bool} {waited : Waited}
    (run : s.waitpidTurn cpu pid noHang fuel = some (waited, s')) :
    (∃ child cut, (s.tasks s.current).children.find? (s.collectable pid) = some child ∧
      waited = .collected child (s.tasks child).pid (s.tasks child).exitCode ∧
      cut = s.setTask s.current (fun t =>
        { t with children := t.children.eraseP (s.collectable pid) }) ∧
      s' = (cut.freePid (cut.tasks child).pid).setTask child fun c => { c with state := .dead }) ∨
    (waited = .nothing ∧ s' = s) ∨
    (waited = .blocked ∧
      (s.setTask s.current fun t => { t with state := .blocked }).schedule cpu fuel = some s') := by
  unfold waitpidTurn at run
  dsimp only at run
  split at run
  · rename_i child find
    cases run
    exact .inl ⟨child, _, find, rfl, rfl, rfl⟩
  split at run
  · cases run
    exact .inr (.inl ⟨rfl, rfl⟩)
  · obtain ⟨next, schedule, is⟩ := map_eq_some_iff.mp run
    cases is
    exact .inr (.inr ⟨rfl, schedule⟩)

structure Collects (s : State) (child : Nat) (s' : State) : Prop where
  member : child ∈ (s.tasks s.current).children
  zombie : (s.tasks child).state = .zombie
  queues : SameQueues s s'
  globals : s'.initTask = s.initTask ∧ s'.idleTask = s.idleTask ∧ s'.current = s.current ∧
    s'.nextPid = s.nextPid
  bits : ∀ pid, pid ≠ (s.tasks child).pid → s'.pidBitmap pid = s.pidBitmap pid
  kin : ∀ u, (s'.tasks u).kin = { (s.tasks u).kin with
    state := if u = child then .dead else (s.tasks u).state.phase
    children := if u = s.current then (s.tasks u).children.erase child
      else (s.tasks u).children }

lemma eraseP_eq_erase {p : Nat → Bool} {a : Nat} {l : List Nat} (find : l.find? p = some a) :
    l.eraseP p = l.erase a := by
  induction l with
  | nil => cases find
  | cons b l ih =>
    rw [find?_cons] at find
    split at find
    · rename_i holds
      cases find
      rw [eraseP_cons_of_pos holds, erase_cons_head]
    rename_i fails
    have other : b ≠ a := by
      rintro rfl
      rw [find?_some find] at fails
      cases fails
    rw [eraseP_cons_of_neg (by simp [fails]), erase_cons_tail (by simpa using other), ih find]

lemma freePid_spec (s : State) (pid : Nat) : ∃ bits table,
    s.freePid pid = { s with pidBitmap := bits, pidTable := table } ∧
      ∀ p, p ≠ pid → bits p = s.pidBitmap p := by
  unfold freePid
  split
  · refine ⟨_, _, rfl, fun p other => ?_⟩
    exact update_of_ne other _ _
  · exact ⟨_, _, rfl, fun _ _ => rfl⟩

lemma waitpidTurn_collects {pid : Int} {noHang : Bool} {childPid : Nat}
    (run : s.waitpidTurn cpu pid noHang fuel = some (.collected child childPid code, s'))
    (alive : (s.tasks s.current).state.phase = .ready) :
    Collects s child s' ∧ childPid = (s.tasks child).pid ∧ code = (s.tasks child).exitCode := by
  rcases waitpidTurn_cases run with ⟨child', cut, find, is, cutIs, rfl⟩ | ⟨is, -⟩ | ⟨is, -⟩
  · cases is
    refine ⟨?_, rfl, rfl⟩
    have zombie : (s.tasks child).state = .zombie := by
      have found := find?_some find
      simp only [collectable, decide_eq_true_eq] at found
      exact found.2
    have notMe : child ≠ s.current := by
      rintro rfl
      rw [zombie] at alive
      cases alive
    obtain ⟨bits, table, freed, kept⟩ := freePid_spec cut (cut.tasks child).pid
    rw [freed]
    subst cutIs
    rw [setTask_tasks_of_ne notMe] at kept
    have cut : SameQueues s (s.setTask s.current fun t =>
      { t with children := t.children.eraseP (s.collectable pid) }) := .setTask rfl
    refine ⟨mem_of_find?_eq_some find, zombie, SameQueues.trans ?_ (.setTask rfl),
      ⟨rfl, rfl, rfl, rfl⟩, kept, fun u => ?_⟩
    · exact ⟨cut.nextOf, rfl, rfl, rfl⟩
    rcases eq_or_ne u child with rfl | notChild
    · simp [Task.kin, notMe, TaskState.phase, setTask_tasks_of_ne notMe]
    · rw [setTask_tasks_of_ne notChild]
      rcases eq_or_ne u s.current with rfl | notCurrent
      · simp [Task.kin, notChild, eraseP_eq_erase find]
      · simp [Task.kin, notChild, notCurrent, setTask_tasks_of_ne notCurrent]
  · cases is
  · cases is

namespace Collects

variable {child : Nat}

variable (collects : Collects s child s')
include collects

lemma pid (u : Nat) : (s'.tasks u).pid = (s.tasks u).pid :=
  (congrArg Task.pid (collects.kin u) :)

lemma phase (u : Nat) : (s'.tasks u).state.phase =
    if u = child then .dead else (s.tasks u).state.phase :=
  (congrArg Task.state (collects.kin u) :)

lemma exitCode (u : Nat) : (s'.tasks u).exitCode = (s.tasks u).exitCode :=
  (congrArg Task.exitCode (collects.kin u) :)

lemma parent (u : Nat) : (s'.tasks u).parent = (s.tasks u).parent :=
  (congrArg Task.parent (collects.kin u) :)

lemma children (u : Nat) : (s'.tasks u).children =
    if u = s.current then (s.tasks u).children.erase child else (s.tasks u).children :=
  (congrArg Task.children (collects.kin u) :)

end Collects

lemma Recorded.exited (recorded : s.Recorded n) (is : n.serial child = some k)
    (zombie : (s.tasks child).state = .zombie) : (k, (s.tasks child).exitCode) ∈ n.exits := by
  by_contra missing
  by_cases exited : n.Exited k
  · obtain ⟨code, before⟩ := exited
    rw [(recorded.zombies child k code is before).2] at missing
    exact missing before
  · have ready := recorded.living child k is exited
    rw [zombie] at ready
    cases ready

lemma Recorded.collect (recorded : s.Recorded n) (is : n.serial child = some k)
    (collects : Collects s child s') : s'.Recorded (n.collect child) := by
  have census : n.collect child = { n with
      serial := update n.serial child none
      collected := k :: n.collected } := by
    simp [Census.collect, is]
  have old {u j : Nat} (isJ : update n.serial child none u = some j) :
      u ≠ child ∧ n.serial u = some j := by
    rcases eq_or_ne u child with rfl | other
    · rw [update_self] at isJ
      cases isJ
    · rw [update_of_ne other] at isJ
      exact ⟨other, isJ⟩
  rw [census]
  exact { recorded with
    past := fun u j isJ => recorded.past u j (old isJ).2
    serials := fun u v j isU isV => recorded.serials u v j (old isU).2 (old isV).2
    living := fun u j isJ out => by
      obtain ⟨other, isJ⟩ := old isJ
      rw [collects.phase, if_neg other]
      exact recorded.living u j isJ out
    zombies := fun u j code isJ exited => by
      obtain ⟨other, isJ⟩ := old isJ
      rw [collects.phase, if_neg other, collects.exitCode]
      exact recorded.zombies u j code isJ exited
    collectedExited := fun j collected => by
      rcases mem_cons.mp collected with rfl | before
      · exact ⟨_, recorded.exited is collects.zombie⟩
      · exact recorded.collectedExited j before
    uncollected := fun u j isJ collected => by
      obtain ⟨other, was⟩ := old isJ
      rcases mem_cons.mp collected with rfl | before
      · exact other (recorded.serials u child j was is)
      · exact recorded.uncollected u j was before
    collectOnce := nodup_cons.mpr ⟨recorded.uncollected child k is, recorded.collectOnce⟩ }

lemma Household.collect (house : Household idle init s n)
    (collects : Collects s child s') : Household idle init s' (n.collect child) := by
  obtain ⟨listed, -⟩ := (house.filed.mem_iff s.current child).mp collects.member
  obtain ⟨k, is⟩ := listed
  have lists (u : Nat) : (n.collect child).Lists u ↔ n.Lists u ∧ u ≠ child := by
    rcases eq_or_ne u child with rfl | other
    · simp [Census.Lists, Census.collect]
    · simp [Census.Lists, Census.collect, other]
  have notMe : s.current ≠ child := by
    intro isMe
    have runs := house.runs
    rw [isMe, collects.zombie] at runs
    cases runs
  have notRoot {u : Nat} (root : u = idle ∨ u = init) : u ≠ child := by
    rintro rfl
    exact (house.roots u root).1 ⟨k, is⟩
  exact {
    initIs := collects.globals.1.trans house.initIs
    idleIs := collects.globals.2.1.trans house.idleIs
    apart := house.apart
    spares := house.spares.congr collects.queues.nodes collects.queues.rq
    notInit := by
      rw [collects.globals.2.2.1]
      exact house.notInit
    runs := by
      rw [collects.globals.2.2.1, collects.phase, if_neg notMe]
      exact house.runs
    roots := fun u root => by
      rw [collects.phase, if_neg (notRoot root), lists]
      obtain ⟨out, alive⟩ := house.roots u root
      exact ⟨fun now => out now.1, alive⟩
    free := fun u notIdle notInit out => by
      rw [collects.phase]
      split
      · rfl
      · rename_i other
        exact house.free u notIdle notInit fun now => out ((lists u).mpr ⟨now, other⟩)
    filed := by
      refine (house.filed.remove collects.member).congr (fun u => ?_) collects.parent lists
      rw [collects.children, update_apply]
      split
      · rename_i isMe
        rw [isMe]
      · rfl
    parents := fun u p listed parent => by
      rw [collects.parent] at parent
      have alive := house.parents u p ((lists u).mp listed).1 parent
      have other : p ≠ child := by
        rintro rfl
        rw [collects.zombie] at alive
        cases alive
      rw [collects.phase, if_neg other]
      exact alive
    rootPids := by
      rw [collects.pid, collects.pid]
      exact house.rootPids
    pids := fun u now => by
      obtain ⟨before, other⟩ := (lists u).mp now
      rw [collects.pid, collects.bits _ fun same =>
        other (house.pidsApart u child before ⟨k, is⟩ same)]
      exact house.pids u before
    pidsApart := fun u v nowU nowV equal => by
      rw [collects.pid, collects.pid] at equal
      exact house.pidsApart u v ((lists u).mp nowU).1 ((lists v).mp nowV).1 equal
    cursor := by
      rw [collects.globals.2.2.2]
      exact house.cursor
    recorded := house.recorded.collect is collects }

end AuroraOS.Sched.State
