import AuroraOS.Sched.Fuel
import AuroraOS.Sched.Queues
import Mathlib.Order.Basic

/-!
# Runs over the run queues

Every call that touches the run queues keeps their agreement, with one condition: `do_exit_current`
takes the exiting task out of the list it is on, but out of the tree and the count of the processor
it runs on.
-/

namespace AuroraOS.Sched

open Lib Rbtree Function List Option Relation

namespace State

variable {s s' : State} {t cpu : Nat} {q q' : Nat → List Nat}

/-! ## Load balancing -/

lemma busiest_spec {me src n : Nat} (found : s.busiest me = (some src, n)) :
    src < s.numCpus ∧ src ≠ me := by
  have inv : ∀ i, (s.busiest me).1 = some i → i < s.numCpus ∧ i ≠ me := by
    refine foldlRecOn (motive := fun found : Option Nat × Nat =>
      ∀ i, found.1 = some i → i < s.numCpus ∧ i ≠ me) _ _ (by simp) fun found inv j mem i => ?_
    split
    · exact inv i
    · split
      · intro is
        cases is
        exact ⟨mem_range.mp mem, ‹_›⟩
      · exact inv i
  exact inv src (by rw [found])

def Moves (q q' : Nat → List Nat) : Prop :=
  q' = q ∨ ∃ t src dst, src ≠ dst ∧ t ∈ q src ∧
    q' = update (update q src ((q src).erase t)) dst (t :: q dst)

lemma Agrees.balance (agrees : s.Agrees q) (cpus : s.numCpus ≤ maxCpus) (cpuId : Int) :
    ∃ s' q', Returns (s.smpSchedule cpuId) s' ∧ s'.Agrees q' ∧ s'.numCpus = s.numCpus ∧
      Moves q q' := by
  have idle : ∀ {f : Nat → Option State}, (∀ fuel, f fuel = some s) →
      ∃ s' q', Returns f s' ∧ s'.Agrees q' ∧ s'.numCpus = s.numCpus ∧ Moves q q' :=
    fun same => ⟨s, q, ⟨0, fun fuel _ => same fuel⟩, agrees, rfl, .inl rfl⟩
  by_cases range : cpuId < 0 ∨ cpuId ≥ s.numCpus
  · exact idle fun fuel => if_pos range
  by_cases full : (s.rq cpuId.toNat).count > 1
  · exact idle fun fuel => by simp only [smpSchedule, if_neg range, if_pos full]
  obtain ⟨dst, rfl⟩ := Int.eq_ofNat_of_zero_le (show 0 ≤ cpuId by omega)
  rw [Int.toNat_natCast] at full
  have dstSmall : dst < maxCpus := by omega
  rcases busy : s.busiest dst with ⟨found, n⟩
  cases found with
  | none =>
    exact idle fun fuel => by
      simp only [smpSchedule, if_neg range, Int.toNat_natCast, if_neg full, busy]
  | some src =>
    obtain ⟨srcSmall, different⟩ := busiest_spec busy
    have srcSmall : src < maxCpus := by omega
    by_cases few : n ≤ 1
    · exact idle fun fuel => by
        simp only [smpSchedule, if_neg range, Int.toNat_natCast, if_neg full, busy, if_pos few]
    have queue := agrees.holds src srcSmall
    rcases queue.list with ⟨-, headIs⟩ | ⟨h, rest, headIs, circle, same⟩
    · exact idle fun fuel => by
        simp only [smpSchedule, if_neg range, Int.toNat_natCast, if_neg full, busy, if_neg few,
          headIs]
    obtain ⟨found, search, inside⟩ := findStealable_path circle.path circle.fresh
    cases found with
    | none =>
      refine ⟨s, q, Returns.of_succ rest.length fun fuel enough => ?_, agrees, rfl, .inl rfl⟩
      simp only [smpSchedule, if_neg range, Int.toNat_natCast, if_neg full, busy, if_neg few,
        headIs, search fuel enough]
    | some t =>
      have mem : t ∈ q src := same.mem_iff.mp (inside t rfl)
      obtain ⟨s₁, ⟨bound₁, dequeue⟩, agrees₁, cpus₁⟩ := agrees.dequeue srcSmall mem
      have fresh : ∀ c < maxCpus, t ∉ update q src ((q src).erase t) c := by
        intro c small
        rcases eq_or_ne c src with rfl | other
        · rw [update_self]
          exact queue.nodup.not_mem_erase
        · rw [update_of_ne other]
          exact fun there => agrees.apart src srcSmall c small other.symm mem there
      obtain ⟨s₂, ⟨bound₂, enqueue⟩, agrees₂, cpus₂⟩ := agrees₁.enqueue dstSmall fresh
      rw [update_of_ne different.symm] at agrees₂
      refine ⟨s₂, _, Returns.of_succ (max rest.length (max bound₁ bound₂))
        fun fuel enough => ?_, agrees₂, cpus₂.trans cpus₁,
        .inr ⟨t, src, dst, different, mem, rfl⟩⟩
      have first := dequeue (fuel + 1) (by omega)
      have second := enqueue (fuel + 1) (by omega)
      have inRange : ¬((dst : Int) < 0 ∨ (dst : Int) ≥ maxCpus) := by omega
      have online : ¬(dst : Int) ≥ s₁.numCpus := by omega
      simp only [smpSchedule, if_neg range, Int.toNat_natCast, if_neg full, busy, if_neg few,
        headIs, search fuel (by omega), first, bind_eq_bind, bind_some,
        smpEnqueueTask, if_neg inRange, if_neg online, second]

/-! ## Switching tasks -/

lemma SameQueues.switchTo (s : State) (next : Nat) : SameQueues s (s.switchTo next) := by
  have first : SameQueues s (s.setTask s.current fun prev =>
      if prev.state = .running then { prev.charged with state := .ready } else prev) := by
    refine SameQueues.setTask ?_
    split <;> rfl
  have second : SameQueues (s.setTask s.current fun prev =>
      if prev.state = .running then { prev.charged with state := .ready } else prev)
      (s.switchTo next) :=
    ⟨nextOf_setTask_of_keeps (f := fun t => { t with state := .running }) rfl, rfl, rfl, rfl⟩
  exact first.trans second

variable {fuel idle : Nat}

lemma SameQueues.schedule (run : s.schedule cpu fuel = some s') : SameQueues s s' := by
  rcases schedule_cases fuel run with ⟨next, -, -, rfl⟩ | ⟨rfl, -⟩
  · exact SameQueues.switchTo s next
  · exact SameQueues.refl _

lemma SameQueues.yield (run : s.yield cpu fuel = some s') : SameQueues s s' := by
  have charged : SameQueues s (s.setTask s.current fun t => { t.charged with state := .ready }) :=
    SameQueues.setTask rfl
  exact charged.trans (SameQueues.schedule run)

/-! ## Exit -/

def Quiet (s s' : State) : Prop := SameQueues s s' ∧ s'.current = s.current

lemma Quiet.refl (s : State) : Quiet s s := ⟨SameQueues.refl s, rfl⟩

lemma Quiet.trans {s'' : State} (first : Quiet s s') (second : Quiet s' s'') : Quiet s s'' :=
  ⟨first.1.trans second.1, second.2.trans first.2⟩

lemma Quiet.setTask {f : Task → Task} (keeps : (f (s.tasks t)).next = (s.tasks t).next) :
    Quiet s (s.setTask t f) :=
  ⟨SameQueues.setTask keeps, rfl⟩

lemma Quiet.adopt (s : State) (init : Nat) (children : List Nat) :
    Quiet s (s.adopt init children) := by
  induction children generalizing s with
  | nil => exact Quiet.refl s
  | cons child rest ih =>
    have first : Quiet s (s.setTask child fun c => { c with parent := some init }) :=
      Quiet.setTask rfl
    exact (first.trans (Quiet.setTask rfl)).trans (ih _)

lemma Quiet.reparent (s : State) (t : Nat) : Quiet s (s.reparentChildrenToInit t) := by
  unfold reparentChildrenToInit
  split
  · exact Quiet.refl s
  split
  · exact Quiet.refl s
  · exact (Quiet.adopt s _ _).trans (Quiet.setTask rfl)

lemma Quiet.signal (s : State) (t : Nat) : Quiet s (s.signalChildEvent t) := by
  unfold signalChildEvent
  split
  · exact Quiet.refl s
  split
  · exact Quiet.refl s
  split
  · exact Quiet.setTask rfl
  · exact Quiet.refl s

lemma Quiet.wake (s : State) (t : Nat) : Quiet s (s.wakeParent t) := by
  unfold wakeParent
  split
  · exact Quiet.refl s
  split
  · exact Quiet.setTask rfl
  · exact Quiet.refl s

lemma Quiet.becomeZombie (s : State) (code : Int) : Quiet s (s.becomeZombie code) := by
  have first := Quiet.reparent s s.current
  have second := first.trans (Quiet.signal _ (s.reparentChildrenToInit s.current).current)
  exact (second.trans (Quiet.setTask rfl)).trans (Quiet.wake _ _)

lemma wakeParent_zombie {child : Nat} (zombie : (s.tasks t).state = .zombie) :
    ((s.wakeParent child).tasks t).state = .zombie := by
  unfold wakeParent
  split
  · exact zombie
  split
  · rename_i parent _ blocked
    have other : t ≠ parent := by
      rintro rfl
      cases zombie.symm.trans blocked
    rwa [setTask_tasks_of_ne other]
  · exact zombie

lemma becomeZombie_state (s : State) (code : Int) :
    ((s.becomeZombie code).tasks (s.becomeZombie code).current).state = .zombie := by
  have quiet := Quiet.becomeZombie s code
  have current := (Quiet.reparent s s.current).trans
    (Quiet.signal _ (s.reparentChildrenToInit s.current).current)
  rw [quiet.2, ← current.2]
  exact wakeParent_zombie (by rw [setTask_tasks_self])

/-- The end of `do_exit_current` for a task with others in its queue. -/
lemma Agrees.leaveQueue {p bound : Nat} (agrees : s.Agrees q) (small : cpu < maxCpus)
    (mem : s.current ∈ q cpu) (before : p ∈ q cpu) (different : p ≠ s.current)
    (link : s.nextOf p = some s.current)
    (run : ∀ fuel, bound ≤ fuel → s.leaveQueue p cpu fuel = some s') :
    s'.Agrees (update q cpu ((q cpu).erase s.current)) ∧ s'.numCpus = s.numCpus := by
  have queue := agrees.holds cpu small
  obtain ⟨h, headIs⟩ := queue.list.exists_head mem
  obtain ⟨h', ⟨bound', erase⟩, done⟩ := agrees.erase_bypass (s.bypass p s.current cpu)
    small headIs mem before different link rfl bypass_nodes rfl
    (by rw [bypass_rq_self headIs]) fun c other => bypass_rq_of_ne other
  have result := run (max bound bound') (Nat.le_max_left ..)
  rw [leaveQueue_eq, erase _ (Nat.le_max_right ..), bind_some] at result
  have same := SameQueues.schedule result
  have gone := done (((s.bypass p s.current cpu).setHeap cpu h').setRq cpu
    fun rq => { rq with count := rq.count - 1 }) rfl rfl
    (by simp only [setRq_self, setHeap_rq_self, bypass_rq_self headIs, queue.count])
    fun c other => by rw [setRq_of_ne other, setHeap_rq_of_ne other]
  exact ⟨gone.congr same, same.numCpus.trans bypass_numCpus⟩

/-- `do_exit_current` of a task in the queue of its processor takes it out, or leaves it
there when it is alone. -/
lemma Agrees.exit {code : Int} (agrees : s.Agrees q) (small : cpu < maxCpus)
    (mem : s.current ∈ q cpu) (run : Returns (s.doExitCurrent cpu code) s') :
    ∃ q', s'.Agrees q' ∧ s'.numCpus = s.numCpus := by
  obtain ⟨quiet, current⟩ := Quiet.becomeZombie s code
  have zombie := becomeZombie_state s code
  have agrees' := agrees.congr quiet
  have cpus := quiet.numCpus
  obtain ⟨bound, run⟩ := run
  have steps : ∀ fuel, bound ≤ fuel →
      (((s.becomeZombie code).findPrev s.current fuel s.current).bind fun prev =>
        if prev = s.current then
          if ((s.becomeZombie code).rq cpu).count > 0 then
            ((s.becomeZombie code).schedule cpu fuel).bind fun t =>
              if t.current = s.current then t.leaveQueue prev cpu fuel else some t
          else none
        else (s.becomeZombie code).leaveQueue prev cpu fuel) = some s' := by
    intro fuel enough
    have result := run fuel enough
    rw [doExitCurrent] at result
    split at result
    · cases result
    · exact result
  generalize s.becomeZombie code = z at *
  rw [← current] at mem steps
  obtain ⟨ys, turned, cells⟩ := (agrees'.holds cpu small).list.circle_of_mem mem
  have search : ∀ fuel, ys.length ≤ fuel → z.findPrev z.current (fuel + 1) z.current =
      some ((z.current :: ys).getLast (cons_ne_nil _ _)) :=
    fun fuel enough => findPrev_path turned.path turned.fresh enough
  have link := turned.path.getLast_link
  have last := getLast_mem (cons_ne_nil z.current ys)
  generalize (z.current :: ys).getLast (cons_ne_nil _ _) = p at search link last
  rcases eq_or_ne p z.current with rfl | different
  · -- alone in its queue: nothing is unlinked before `schedule` switches away
    have result := steps (max bound ys.length + 1) (by omega)
    rw [search _ (Nat.le_max_right ..), bind_some, if_pos rfl] at result
    split at result
    · obtain ⟨t, switch, result⟩ := bind_eq_some_iff.mp result
      rcases schedule_cases _ switch with ⟨next, other, -, rfl⟩ | ⟨rfl, running | unlinked⟩
      · have moved : (z.switchTo next).current ≠ z.current := other
        rw [if_neg moved] at result
        cases result
        have same := SameQueues.switchTo z next
        exact ⟨q, agrees'.congr same, same.numCpus.trans cpus⟩
      · cases zombie.symm.trans running
      · cases unlinked.symm.trans link
    · cases result
  · have before : p ∈ q cpu := cells.mem_iff.mp last
    have leave : ∀ fuel, max bound (ys.length + 1) ≤ fuel → z.leaveQueue p cpu fuel = some s' := by
      intro fuel enough
      have result := steps fuel (by omega)
      obtain ⟨fuel, rfl⟩ : ∃ n, fuel = n + 1 := ⟨fuel - 1, by omega⟩
      rwa [search fuel (by omega), bind_some, if_neg different] at result
    obtain ⟨done, total⟩ := agrees'.leaveQueue small mem before different link leave
    exact ⟨_, done, total.trans cpus⟩

/-! ## Creation -/

lemma allocPidLoop_state (attempts : Nat) (s : State) : ∃ bits cursor,
    (s.allocPidLoop attempts).2 = { s with pidBitmap := bits, nextPid := cursor } := by
  induction attempts generalizing s with
  | zero => exact ⟨s.pidBitmap, s.nextPid, rfl⟩
  | succ attempts ih =>
    rw [allocPidLoop]
    simp only
    split
    · obtain ⟨bits, cursor, same⟩ :=
        ih { s with nextPid := if s.nextPid + 1 ≥ maxPid then 2 else s.nextPid + 1 }
      exact ⟨bits, cursor, same⟩
    · exact ⟨_, _, rfl⟩

lemma Quiet.allocPid (s : State) : Quiet s s.allocPid.2 := by
  obtain ⟨bits, cursor, same⟩ := allocPidLoop_state maxPid
    { s with pidBitmap := update (update s.pidBitmap 0 true) 1 true }
  rw [show s.allocPid.2 = _ from same]
  exact ⟨⟨rfl, rfl, rfl, rfl⟩, rfl⟩

lemma fillTask_spec (s : State) (t pid : Nat) :
    (s.fillTask t pid).rq = s.rq ∧ (∀ u, u ≠ t → (s.fillTask t pid).nextOf u = s.nextOf u) ∧
      (∀ u, u ≠ t → (s.fillTask t pid).nodes u = s.nodes u) ∧
      (s.fillTask t pid).numCpus = (if s.numCpus = 0 then 1 else s.numCpus) := by
  have kept : ∀ u, u ≠ t → (s.fillTask t pid).tasks u = s.tasks u := fun u other =>
    update_of_ne other _ _
  exact ⟨rfl, fun u other => congrArg Task.next (kept u other),
    fun u other => update_of_ne other _ _, rfl⟩

lemma Quiet.addChild (s : State) (parent child : Nat) (allocated : Bool) :
    Quiet s (s.addChild parent child allocated) := by
  unfold State.addChild
  split
  · have first : Quiet s (s.setTask parent fun p => { p with children := child :: p.children }) :=
      Quiet.setTask rfl
    exact first.trans (Quiet.setTask rfl)
  · exact Quiet.refl s

lemma Agrees.overwrite (agrees : s.Agrees q) (fresh : ∀ c < maxCpus, t ∉ q c)
    (rq : s'.rq = s.rq) (links : ∀ u, u ≠ t → s'.nextOf u = s.nextOf u)
    (nodes : ∀ u, u ≠ t → s'.nodes u = s.nodes u) : s'.Agrees q := by
  refine ⟨fun cpu small => ?_, agrees.apart⟩
  have other : ∀ u ∈ q cpu, u ≠ t := fun u mem is => fresh cpu small (is ▸ mem)
  exact (agrees.holds cpu small).congr (fun u mem => links u (other u mem))
    (fun u mem => nodes u (other u mem)) (congrFun rq cpu)

lemma Agrees.create {granted : Granted} (agrees : s.Agrees q) (cpus : s.numCpus ≤ maxCpus)
    (fresh : ∀ t, granted.task = some t → ∀ c < maxCpus, t ∉ q c) :
    ∃ result s' q', Returns (s.createTask granted) (result, s') ∧ s'.Agrees q' ∧
      s'.numCpus ≤ maxCpus := by
  rcases grant : granted with ⟨task, stack, child⟩
  rw [grant] at fresh
  cases task with
  | none => exact ⟨none, s, q, ⟨0, fun _ _ => rfl⟩, agrees, cpus⟩
  | some t =>
    cases stack with
    | false => exact ⟨none, s, q, ⟨0, fun _ _ => rfl⟩, agrees, cpus⟩
    | true =>
      have alloc := Quiet.allocPid s
      rcases allocated : s.allocPid with ⟨pid, s₁⟩
      rw [allocated] at alloc
      have agrees₁ := agrees.congr alloc.1
      have cpus₁ : s₁.numCpus ≤ maxCpus := alloc.1.numCpus.trans_le cpus
      cases pid with
      | none =>
        refine ⟨none, s₁, q, ⟨0, fun fuel _ => ?_⟩, agrees₁, cpus₁⟩
        simp only [createTask, allocated, Bool.true_eq_false, if_false]
      | some pid =>
        obtain ⟨rq, links, nodes, total⟩ := fillTask_spec s₁ t pid
        have agrees₂ := agrees₁.overwrite (fresh t rfl) rq links nodes
        have some_cpu : 0 < (s₁.fillTask t pid).numCpus := by
          rw [total]
          split <;> omega
        have cpus₂ : (s₁.fillTask t pid).numCpus ≤ maxCpus := by
          rw [total]
          split
          · decide
          · exact cpus₁
        have target := Nat.lt_of_lt_of_le (Nat.mod_lt pid some_cpu) cpus₂
        obtain ⟨s₃, ⟨bound, enqueue⟩, agrees₃, cpus₃⟩ := agrees₂.enqueue target (fresh t rfl)
        have child := Quiet.addChild s₃ s₃.current t child
        refine ⟨some t, _, _, ⟨bound, fun fuel enough => ?_⟩, agrees₃.congr child.1,
          (child.1.numCpus.trans cpus₃).trans_le cpus₂⟩
        simp [createTask, allocated, enqueue fuel enough]

/-! ## Calls for one CPU -/

lemma Agrees.smpEnqueue (agrees : s.Agrees q) (fresh : ∀ c < maxCpus, t ∉ q c) (cpuId : Int) :
    ∃ s' q', Returns (s.smpEnqueueTask t cpuId) s' ∧ s'.Agrees q' ∧ s'.numCpus = s.numCpus := by
  by_cases range : cpuId < 0 ∨ cpuId ≥ maxCpus
  · exact ⟨s, q, ⟨0, fun fuel _ => if_pos range⟩, agrees, rfl⟩
  by_cases offline : cpuId ≥ s.numCpus
  · exact ⟨s, q, ⟨0, fun fuel _ => by rw [smpEnqueueTask, if_neg range, if_pos offline]⟩, agrees,
      rfl⟩
  obtain ⟨s', run, agrees', cpus⟩ := agrees.enqueue (show cpuId.toNat < maxCpus by omega) fresh
  refine ⟨s', _, run.congr fun fuel => ?_, agrees', cpus⟩
  rw [smpEnqueueTask, if_neg range, if_neg offline]

lemma Agrees.smpDequeue (agrees : s.Agrees q) (t : Nat) (cpuId : Int) :
    ∃ s' q', Returns (s.smpDequeueTask t cpuId) s' ∧ s'.Agrees q' ∧ s'.numCpus = s.numCpus := by
  by_cases range : cpuId < 0 ∨ cpuId ≥ maxCpus
  · exact ⟨s, q, ⟨0, fun fuel _ => if_pos range⟩, agrees, rfl⟩
  by_cases mem : t ∈ q cpuId.toNat
  · obtain ⟨cpu, rfl⟩ := Int.eq_ofNat_of_zero_le (show 0 ≤ cpuId by omega)
    obtain ⟨s', run, agrees', cpus⟩ := agrees.dequeue (show cpu < maxCpus by omega) mem
    exact ⟨s', _, run, agrees', cpus⟩
  · exact ⟨s, q, agrees.dequeue_missing cpuId mem, agrees, rfl⟩

/-! ## Runs -/

variable {init : Option Nat}

lemma schedulerInit_agrees (numCpus : Nat) (distinct : init ≠ some idle) :
    ∃ s, Returns (schedulerInit idle init numCpus) s ∧
      s.Agrees (update (fun _ => []) 0 [idle]) ∧ s.numCpus = numCpus := by
  have empty : HoldsTree ((bootState idle init numCpus).heap 0) [] :=
    holdsTree_rbInit ((bootState idle init numCpus).heap 0)
  obtain ⟨h, insert, tree⟩ := empty.insert (by simp)
  have booted : ((bootState idle init numCpus).setHeap 0 h).Agrees
      (update (fun _ => []) 0 [idle]) := by
    refine ⟨fun cpu _ => ?_, fun c _ d _ different => ?_⟩
    · rcases eq_or_ne cpu 0 with rfl | other
      · refine ⟨.inr ⟨idle, [], rfl, ⟨?_, by simp⟩, Perm.refl _⟩, by rwa [heap_setHeap], rfl⟩
        simp [Route, nextOf, bootState]
      rw [update_of_ne other]
      refine ⟨.inl ⟨rfl, ?_⟩, ?_, ?_⟩
      · rw [setHeap_rq_of_ne other]
        simp [bootState, other]
      · have root : ((bootState idle init numCpus).setHeap 0 h).heap cpu = rbInit h := by
          simp [heap, rbInit, setHeap_rq_of_ne other, bootState, other]
        rw [root]
        exact holdsTree_rbInit h
      · rw [setHeap_rq_of_ne other]
        simp [bootState, other]
    · rcases eq_or_ne c 0 with rfl | notC
      · rw [update_of_ne different.symm]
        exact disjoint_nil_right _
      · rw [update_of_ne notC]
        exact disjoint_nil_left _
  cases init with
  | none =>
    refine ⟨_, insert.bind
      ⟨0, fun _ _ => rfl⟩, booted, rfl⟩
  | some init =>
    refine ⟨_, insert.bind
      ⟨0, fun _ _ => rfl⟩, booted.overwrite (t := init) (fun c _ => ?_) rfl (fun u other => ?_)
      fun _ _ => rfl, rfl⟩
    · rcases eq_or_ne c 0 with rfl | other
      · rw [update_self, mem_singleton]
        exact fun is => distinct (congrArg some is)
      · rw [update_of_ne other]
        exact not_mem_nil
    · exact congrArg Task.next (update_of_ne other _ _)

inductive Op
  | create (granted : Granted)
  | exit (cpu : Fin 8) (code : Int)
  | enqueue (t : Nat) (cpuId : Int)
  | dequeue (t : Nat) (cpuId : Int)
  | balance (cpuId : Int)

def Op.run (s : State) : Op → Nat → Option State
  | .create granted, fuel => (s.createTask granted fuel).map Prod.snd
  | .exit cpu code, fuel => s.doExitCurrent cpu code fuel
  | .enqueue t cpuId, fuel => s.smpEnqueueTask t cpuId fuel
  | .dequeue t cpuId, fuel => s.smpDequeueTask t cpuId fuel
  | .balance cpuId, fuel => s.smpSchedule cpuId fuel

def Unqueued (s : State) (t : Nat) : Prop := ∀ cpu < maxCpus, ¬s.Queued cpu t

def Op.Allowed (s : State) : Op → Prop
  | .create granted => ∀ t, granted.task = some t → s.Unqueued t
  | .enqueue t _ => s.Unqueued t
  | _ => True

def Op.Placed (s : State) : Op → Prop
  | .exit cpu _ => s.Queued cpu s.current
  | _ => True

/-- One event of a run: a call that meets `ok`, or anything that leaves the queues alone,
such as a switch to another task. -/
inductive Step (ok : State → Op → Prop) : State → State → Prop
  | call {s s' : State} (op : Op) (meets : ok s op) (run : Returns (op.run s) s') : Step ok s s'
  | other {s s' : State} (same : SameQueues s s') : Step ok s s'

lemma Agrees.unqueued_iff (agrees : s.Agrees q) : s.Unqueued t ↔ ∀ c < maxCpus, t ∉ q c :=
  forall₂_congr fun c small => not_congr (agrees.holds c small).queued_iff

lemma Step.agrees (step : Step (fun s op => op.Allowed s ∧ op.Placed s) s s')
    (inv : (∃ q, s.Agrees q) ∧ s.numCpus ≤ maxCpus) :
    (∃ q, s'.Agrees q) ∧ s'.numCpus ≤ maxCpus := by
  obtain ⟨⟨q, agrees⟩, cpus⟩ := inv
  cases step with
  | other same => exact ⟨⟨q, agrees.congr same⟩, same.numCpus.trans_le cpus⟩
  | call op meets run =>
    obtain ⟨allowed, placed⟩ := meets
    cases op with
    | create granted =>
      obtain ⟨result, t, q', returns, agrees', cpus'⟩ := agrees.create cpus
        fun t is => agrees.unqueued_iff.mp (allowed t is)
      have same : t = s' := returns.map.unique run
      exact ⟨⟨q', same ▸ agrees'⟩, same ▸ cpus'⟩
    | exit cpu code =>
      obtain ⟨q', agrees', cpus'⟩ := agrees.exit cpu.isLt
        ((agrees.holds cpu cpu.isLt).queued_iff.mp placed) run
      exact ⟨⟨q', agrees'⟩, cpus'.trans_le cpus⟩
    | enqueue t cpuId =>
      obtain ⟨t', q', returns, agrees', cpus'⟩ :=
        agrees.smpEnqueue (agrees.unqueued_iff.mp allowed) cpuId
      cases returns.unique run
      exact ⟨⟨q', agrees'⟩, cpus'.trans_le cpus⟩
    | dequeue t cpuId =>
      obtain ⟨t', q', returns, agrees', cpus'⟩ := agrees.smpDequeue t cpuId
      cases returns.unique run
      exact ⟨⟨q', agrees'⟩, cpus'.trans_le cpus⟩
    | balance cpuId =>
      obtain ⟨t, q', returns, agrees', cpus', -⟩ := agrees.balance cpus cpuId
      cases returns.unique run
      exact ⟨⟨q', agrees'⟩, cpus'.trans_le cpus⟩

lemma exists_agrees_of_run {numCpus : Nat} {s₀ : State}
    (distinct : init ≠ some idle) (cpus : numCpus ≤ maxCpus)
    (boot : Returns (schedulerInit idle init numCpus) s₀)
    (run : ReflTransGen (Step fun s op => op.Allowed s ∧ op.Placed s) s₀ s) :
    (∃ q, s.Agrees q) ∧ s.numCpus ≤ maxCpus := by
  obtain ⟨start, boot', agrees₀, total⟩ := schedulerInit_agrees numCpus distinct
  cases boot.unique boot'
  induction run with
  | refl => exact ⟨⟨_, agrees₀⟩, total.trans_le cpus⟩
  | tail _ step ih => exact step.agrees ih

/-- In a run in which every task exits on the processor whose queue it is in, the list, the tree and
the count of every queue hold the same tasks, each in one queue at most, and `smp_schedule` moves at
most one task and loses none. -/
theorem agrees_of_run {idle numCpus : Nat} {init : Option Nat} {s₀ : State}
    (distinct : init ≠ some idle) (cpus : numCpus ≤ maxCpus)
    (boot : Returns (schedulerInit idle init numCpus) s₀)
    (run : ReflTransGen (Step fun s op => op.Allowed s ∧ op.Placed s) s₀ s) :
    ∃ q, s.Agrees q ∧
      (∀ cpuId, ∃ s' q', Returns (s.smpSchedule cpuId) s' ∧ s'.Agrees q' ∧ Moves q q') ∧
      ∀ t cpuId, ¬s.Queued cpuId.toNat t → Returns (s.smpDequeueTask t cpuId) s := by
  obtain ⟨⟨q, agrees⟩, cpus'⟩ := exists_agrees_of_run distinct cpus boot run
  refine ⟨q, agrees, fun cpuId => ?_, fun t cpuId out => ?_⟩
  · obtain ⟨s', q', returns, agrees', -, moves⟩ := agrees.balance cpus' cpuId
    exact ⟨s', q', returns, agrees', moves⟩
  · by_cases range : cpuId < 0 ∨ cpuId ≥ maxCpus
    · exact ⟨0, fun fuel _ => if_pos range⟩
    · refine agrees.dequeue_missing cpuId fun mem => out ?_
      exact (agrees.holds cpuId.toNat (by omega)).queued_iff.mpr mem

/-! ## A task that is moved while it runs -/

def ListsAre (s : State) (lists : Nat → List Nat) : Prop :=
  ∀ cpu < maxCpus,
    match lists cpu with
    | [] => (s.rq cpu).head = none
    | h :: rest => (s.rq cpu).head = some h ∧ Route s.nextOf h rest h ∧ (h :: rest).Nodup

instance (s : State) (lists : Nat → List Nat) : Decidable (s.ListsAre lists) := by
  unfold ListsAre
  haveI : ∀ cpu, Decidable (match lists cpu with
      | [] => (s.rq cpu).head = none
      | h :: rest =>
        (s.rq cpu).head = some h ∧ Route s.nextOf h rest h ∧ (h :: rest).Nodup) := by
    intro cpu
    split <;> infer_instance
  infer_instance

variable {lists : Nat → List Nat}

lemma ListsAre.queued_iff (are : s.ListsAre lists)
    (small : cpu < maxCpus) : s.Queued cpu t ↔ t ∈ lists cpu := by
  have here := are cpu small
  refine CircularList.exists_mem_iff ?_
  cases shape : lists cpu with
  | nil =>
    rw [shape] at here
    exact .inl ⟨rfl, here⟩
  | cons h rest =>
    rw [shape] at here
    obtain ⟨headIs, path, nodup⟩ := here
    exact .inr ⟨h, rest, headIs, ⟨path, nodup⟩, Perm.refl _⟩

lemma ListsAre.unqueued (are : s.ListsAre lists)
    (out : ∀ cpu < maxCpus, t ∉ lists cpu) : s.Unqueued t :=
  fun cpu small => (are.queued_iff small).not.mpr (out cpu small)

lemma ListsAre.fresh (are : s.ListsAre lists) (out : ∀ cpu < maxCpus, t ∉ lists cpu) (u : Nat)
    (is : some t = some u) : s.Unqueued u :=
  some.inj is ▸ are.unqueued out

/-- One processor with the idle task `1` and a task `10`, which runs and exits. -/
theorem agrees_of_run_exit : ∃ s₀ s, Returns (schedulerInit 1 (some 2) 1) s₀ ∧
      ReflTransGen (Step fun s op => op.Allowed s ∧ op.Placed s) s₀ s ∧
      (s.tasks 10).state = .zombie ∧ ∃ q, s.Agrees q := by
  have evaluates : ((schedulerInit 1 (some 2) 1 20).bind fun s₀ =>
      (s₀.createTask ⟨some 10, true, true⟩ 20).bind fun r₁ =>
      (r₁.2.yield 0 20).bind fun s₂ =>
      (s₂.doExitCurrent 0 7 20).map fun s₃ => decide
        (s₀.ListsAre (update (fun _ => []) 0 [1]) ∧
          s₂.ListsAre (update (fun _ => []) 0 [1, 10]) ∧ s₂.current = 10 ∧
          (s₃.tasks 10).state = .zombie)) = some true := by
    decide +kernel
  simp only [bind_eq_some_iff, map_eq_some_iff, decide_eq_true_eq] at evaluates
  obtain ⟨s₀, boot, ⟨created, s₁⟩, create, s₂, yields, s₃, exits, lists₀, lists₂, current, zombie⟩
    := evaluates
  have start := (schedulerInit_steady 1 (some 2) 1).returns boot
  have run : ReflTransGen (Step fun s op => op.Allowed s ∧ op.Placed s) s₀ s₃ := by
    refine .head (.call (.create ⟨some 10, true, true⟩) ⟨lists₀.fresh (by decide), trivial⟩
      ((createTask_steady _ _).returns create).map) ?_
    refine .head (.other (SameQueues.yield yields)) ?_
    refine .single (.call (.exit 0 7) ⟨trivial, ?_⟩ ((doExitCurrent_steady _ _ _).returns exits))
    exact (lists₂.queued_iff (by decide)).mpr (by rw [current]; decide)
  obtain ⟨q, agrees, -⟩ := agrees_of_run (by decide) (by decide) start run
  exact ⟨s₀, s₃, start, run, zombie, q, agrees⟩

/-- Two tasks `10` and `11`, one on the queue of each processor.  The first one runs, is moved to
the queue of the second, and exits: the first queue loses a task from its count, not from its list.
-/
theorem exit_breaks_queues : ∃ s₀ s, Returns (schedulerInit 1 (some 2) 2) s₀ ∧
      ReflTransGen (Step fun s op => op.Allowed s) s₀ s ∧
      (s.rq 0).head = some 1 ∧ (s.rq 0).count = 0 ∧ ¬∃ q, s.Agrees q := by
  have evaluates : ((schedulerInit 1 (some 2) 2 20).bind fun s₀ =>
      (s₀.createTask ⟨some 10, true, true⟩ 20).bind fun r₁ =>
      (r₁.2.createTask ⟨some 11, true, true⟩ 20).bind fun r₂ =>
      (r₂.2.yield 0 20).bind fun s₃ =>
      (s₃.smpDequeueTask 10 0 20).bind fun s₄ =>
      (s₄.smpEnqueueTask 10 1 20).bind fun s₅ =>
      (s₅.doExitCurrent 0 7 20).map fun s₆ => decide
        (s₀.ListsAre (update (fun _ => []) 0 [1]) ∧
          r₁.2.ListsAre (update (fun _ => []) 0 [1, 10]) ∧
          s₄.ListsAre (update (update (fun _ => []) 0 [1]) 1 [11]) ∧
          (s₆.rq 0).head = some 1 ∧ (s₆.rq 0).count = 0)) = some true := by
    decide +kernel
  simp only [bind_eq_some_iff, map_eq_some_iff, decide_eq_true_eq] at evaluates
  obtain ⟨s₀, boot, ⟨created, s₁⟩, create₁, ⟨created', s₂⟩, create₂, s₃, yields, s₄, dequeue, s₅,
    enqueue, s₆, exits, lists₀, lists₁, lists₄, headIs, count⟩ := evaluates
  refine ⟨s₀, s₆, (schedulerInit_steady 1 (some 2) 2).returns boot, ?_, headIs, count, ?_⟩
  · refine .head (.call (.create ⟨some 10, true, true⟩) (lists₀.fresh (by decide))
      ((createTask_steady _ _).returns create₁).map) ?_
    refine .head (.call (.create ⟨some 11, true, true⟩) (lists₁.fresh (by decide))
      ((createTask_steady _ _).returns create₂).map) ?_
    refine .head (.other (SameQueues.yield yields)) ?_
    refine .head (.call (.dequeue 10 0) trivial ((smpDequeueTask_steady _ _ _).returns dequeue)) ?_
    refine .head (.call (.enqueue 10 1) ?_ ((smpEnqueueTask_steady _ _ _).returns enqueue)) ?_
    · exact lists₄.unqueued (by decide)
    exact .single (.call (.exit 0 7) trivial ((doExitCurrent_steady _ _ _).returns exits))
  · intro ⟨q, agrees⟩
    have queue := agrees.holds 0 (by decide)
    have empty : q 0 = [] := length_eq_zero_iff.mp (queue.count.symm.trans count)
    obtain ⟨rest, -, same⟩ := queue.circle headIs
    rw [empty] at same
    cases same.eq_nil

end State

end AuroraOS.Sched
