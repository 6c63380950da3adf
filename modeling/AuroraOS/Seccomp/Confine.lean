import AuroraOS.Seccomp.Model

/-!
# Filters and descendants

A filter is meant to confine a task together with the processes it starts.  A new task has
no filter, whether `sys_fork` or `sys_execve` made it, and every filter denies the numbers
from 256 on; so the family of a task is confined exactly when none of its members can make
a task.
-/

namespace AuroraOS.Seccomp

open Function

open Relation (ReflTransGen)

namespace World

def Created (w : World) (p c : Nat) : Prop :=
  c < w.count ∧ (w.origin c).parent = some p

def Family (w : World) (a t : Nat) : Prop :=
  ReflTransGen w.Created a t

/-- No descendant of `a` that `sys_fork` makes from here on ever has a system call executed
which the filter denies. -/
def Confined (w : World) (a : Nat) (filter : SeccompFilter) : Prop :=
  ∀ w', ReflTransGen Step w w' → ∀ (t : Fin w'.count) (num : Int) (granted : Bool),
    (w'.tasks t).alive = true → w.count ≤ t → (∃ p, w'.origin t = .fork p) → w'.Family a t →
    (w'.syscallTrap t num granted).1 = some .executed → filter.check num = 0

def Sealed (w : World) (a : Nat) : Prop :=
  ∀ t, t < w.count → w.Family a t → (w.tasks t).alive = true →
    seccompCheck (some (w.tasks t)) sysForkNum ≠ 0 ∧
      seccompCheck (some (w.tasks t)) sysExecveNum ≠ 0

/-! ## What a trap does -/

/-- The same tasks under the same filters, none of them revived. -/
structure Same (w w' : World) : Prop where
  count : w'.count = w.count
  origin : w'.origin = w.origin
  seccomp : ∀ t, (w'.tasks t).seccomp = (w.tasks t).seccomp
  alive : ∀ t, (w'.tasks t).alive = true → (w.tasks t).alive = true

lemma Same.refl (w : World) : Same w w :=
  ⟨rfl, rfl, fun _ => rfl, fun _ live => live⟩

lemma Same.setTask (w : World) (t : Nat) {task : Task}
    (seccomp : task.seccomp = (w.tasks t).seccomp)
    (alive : task.alive = true → (w.tasks t).alive = true) : Same w (w.setTask t task) := by
  refine ⟨rfl, rfl, fun u => ?_, fun u => ?_⟩ <;> rcases eq_or_ne u t with rfl | other <;>
    simp_all [World.setTask]

/-- The world with one more task, made by `parent` without a filter. -/
structure Grown (w w' : World) (parent : Nat) : Prop where
  count : w'.count = w.count + 1
  parent : (w'.origin w.count).parent = some parent
  origin : ∀ t, t < w.count → w'.origin t = w.origin t
  tasks : ∀ t, t < w.count → w'.tasks t = w.tasks t

variable {parent a t n : Nat}

lemma Grown.createTask (w : World) (origin : Origin) (task : Task)
    (known : ∀ p, origin.parent = some p → p < w.count) (is : origin.parent = some parent) :
    Grown w (w.createTask origin task known) parent := by
  refine ⟨rfl, ?_, fun t old => ?_, fun t old => ?_⟩
  · simpa [World.createTask] using is
  · exact update_of_ne old.ne _ _
  · exact update_of_ne old.ne _ _

lemma syscallTrap_cases (w : World) (current : Fin w.count) (num : Int) (granted : Bool) :
    Same w (w.syscallTrap current num granted).2 ∨
      Grown w (w.syscallTrap current num granted).2 current ∧
        (seccompCheck (some (w.tasks current)) sysForkNum = 0 ∨
          seccompCheck (some (w.tasks current)) sysExecveNum = 0) := by
  unfold syscallTrap
  split
  · exact .inl (.setTask w current rfl fun live => live)
  dsimp only
  unfold handleSyscall
  split
  · exact .inl (.refl w)
  split
  · exact .inl (.refl w)
  rename_i _ _ allowed
  have allowed := not_not.mp allowed
  split
  · exact .inl (.refl w)
  split
  · rename_i fork
    unfold sysFork
    split
    · rw [fork] at allowed
      exact .inr ⟨.createTask w _ _ (Origin.known current rfl) rfl, .inl allowed⟩
    · exact .inl (.refl w)
  split
  · rename_i exec
    unfold sysExecve
    split
    · rw [exec] at allowed
      exact .inr ⟨.createTask w _ _ (Origin.known current rfl) rfl, .inr allowed⟩
    · exact .inl (.refl w)
  split
  · exact .inl (.setTask w current rfl nofun)
  · exact .inl (.refl w)

/-! ## The family of a sealed task does not grow -/

variable {w w' : World}

lemma Family.of_same (same : Same w w') (mem : w'.Family a t) : w.Family a t :=
  ReflTransGen.mono (fun _ _ created => ⟨same.count ▸ created.1, same.origin ▸ created.2⟩) a t mem

lemma Family.of_grown (grown : Grown w w' parent)
    (mem : w'.Family a t) (old : t < w.count) : w.Family a t := by
  induction mem with
  | refl => exact .refl
  | @tail p c _ created ih =>
    have link : (w.origin c).parent = some p := grown.origin c old ▸ created.2
    have younger := w.older c p old link
    exact (ih (by omega)).tail ⟨old, link⟩

lemma Family.creator_of_grown (grown : Grown w w' parent) (known : a < w.count)
    (mem : w'.Family a w.count) : w'.Family a parent := by
  rcases mem.cases_tail with same | ⟨p, before, created⟩
  · omega
  · have is : some p = some parent := created.2.symm.trans grown.parent
    cases is
    exact before

structure Closed (n a : Nat) (w : World) : Prop where
  known : a < n
  grows : n ≤ w.count
  within : ∀ t, t < w.count → w.Family a t → t < n
  isSealed : w.Sealed a

lemma Sealed.closed (isSealed : w.Sealed a) (known : a < w.count) : Closed w.count a w :=
  ⟨known, le_rfl, fun _ created _ => created, isSealed⟩

variable (closed : Closed n a w)
include closed

lemma Closed.of_same (same : Same w w') : Closed n a w' := by
  refine ⟨closed.known, same.count ▸ closed.grows, fun t created mem => ?_,
    fun t created mem live => ?_⟩
  · exact closed.within t (same.count ▸ created) (mem.of_same same)
  · have before := closed.isSealed t (same.count ▸ created) (mem.of_same same) (same.alive t live)
    simpa only [seccompCheck, same.seccomp t] using before

lemma Closed.of_grown
    (grown : Grown w w' parent) (created : parent < w.count) (outside : ¬w.Family a parent) :
    Closed n a w' := by
  have known : a < w.count := closed.known.trans_le closed.grows
  have old : ∀ t, t < w'.count → w'.Family a t → t < w.count := by
    intro t isTask mem
    have bound := grown.count ▸ isTask
    rcases eq_or_ne t w.count with rfl | other
    · exact absurd ((mem.creator_of_grown grown known).of_grown grown created) outside
    · omega
  refine ⟨closed.known, ?_, fun t isTask mem => ?_, fun t isTask mem live => ?_⟩
  · rw [grown.count]
    exact Nat.le_succ_of_le closed.grows
  · have before := old t isTask mem
    exact closed.within t before (mem.of_grown grown before)
  · have before := old t isTask mem
    rw [grown.tasks t before] at live ⊢
    exact closed.isSealed t before (mem.of_grown grown before) live

lemma Closed.step (step : Step w w') : Closed n a w' := by
  cases step with
  | trap current num granted live =>
    rcases w.syscallTrap_cases current num granted with same | ⟨grown, allowed⟩
    · exact closed.of_same same
    · refine closed.of_grown grown current.isLt fun mem => ?_
      have denied := closed.isSealed current current.isLt mem live
      rcases allowed with fork | exec
      · exact denied.1 fork
      · exact denied.2 exec
  | kill t => exact closed.of_same (.setTask w t rfl nofun)

lemma Closed.run (run : ReflTransGen Step w w') : Closed n a w' := by
  induction run with
  | refl => exact closed
  | tail _ step ih => exact ih.step step

omit closed

lemma Sealed.confined (isSealed : w.Sealed a) (known : a < w.count)
    (filter : SeccompFilter) : w.Confined a filter := by
  intro w' run t num granted _ recent _ mem
  have closed := (isSealed.closed known).run run
  exact absurd (closed.within t t.isLt mem) (not_lt.mpr recent)

/-! ## A family that is not sealed escapes -/

/-- `t` runs in `v` as it does in `w`, and its next system call is not swallowed. -/
structure Settled (w : World) (t : Nat) (v : World) : Prop where
  count : v.count = w.count
  origin : v.origin = w.origin
  task : v.tasks t = { w.tasks t with isForkChild := false }

lemma exists_settled (w : World) (created : t < w.count)
    (live : (w.tasks t).alive = true) : ∃ v, ReflTransGen Step w v ∧ Settled w t v := by
  cases flag : (w.tasks t).isForkChild with
  | true =>
    have step := Step.trap w ⟨t, created⟩ 0 true live
    rw [syscallTrap, if_pos flag] at step
    exact ⟨_, .single step, rfl, rfl, update_self ..⟩
  | false => exact ⟨w, .refl, rfl, rfl, by rw [← flag]⟩

namespace Settled

variable {w v : World} {t : Nat}

variable (settled : Settled w t v)
include settled

lemma check (num : Int) :
    seccompCheck (some (v.tasks t)) num = seccompCheck (some (w.tasks t)) num := by
  rw [settled.task]
  rfl

lemma family {a u : Nat} (mem : w.Family a u) : v.Family a u := by
  have links : v.Created = w.Created := by
    funext p c
    rw [Created, Created, settled.count, settled.origin]
  rw [Family, links]
  exact mem

lemma live (live : (w.tasks t).alive = true) : (v.tasks t).alive = true := by
  rw [settled.task]
  exact live

lemma trap_eq (created : t < v.count) (num : Int) (granted : Bool) :
    v.syscallTrap ⟨t, created⟩ num granted = (some (v.handleSyscall ⟨t, created⟩ num granted).1,
        (v.handleSyscall ⟨t, created⟩ num granted).2) := by
  have flag : (v.tasks t).isForkChild = false := by rw [settled.task]
  rw [syscallTrap, if_neg (by simp [flag])]

end Settled

/-- A task of the family made after the `n`-th, alive and without a filter. -/
structure Free (n a : Nat) (w : World) (t : Nat) : Prop where
  created : t < w.count
  recent : n ≤ t
  member : w.Family a t
  alive : (w.tasks t).alive = true
  seccomp : (w.tasks t).seccomp = none

lemma Free.createTask (grows : n ≤ w.count) {p : Nat}
    (mem : w.Family a p) {origin : Origin} {task : Task}
    (known : ∀ p, origin.parent = some p → p < w.count) (is : origin.parent = some p)
    (alive : task.alive = true) (seccomp : task.seccomp = none) :
    Free n a (w.createTask origin task known) w.count := by
  have grown : Grown w (w.createTask origin task known) p :=
    .createTask w origin task known is
  have old : (w.createTask origin task known).Family a p := by
    refine ReflTransGen.mono (fun _ c link => ⟨grown.count ▸ Nat.lt_succ_of_lt link.1, ?_⟩) a p mem
    rw [grown.origin c link.1]
    exact link.2
  refine ⟨grown.count ▸ Nat.lt_succ_self _, grows,
    old.tail ⟨grown.count ▸ Nat.lt_succ_self _, grown.parent⟩, ?_, ?_⟩
  · simpa [World.createTask] using alive
  · simpa [World.createTask] using seccomp

lemma exists_forked (grows : n ≤ w.count)
    (created : t < w.count) (mem : w.Family a t) (live : (w.tasks t).alive = true)
    (allowed : seccompCheck (some (w.tasks t)) sysForkNum = 0) :
    ∃ w' c, ReflTransGen Step w w' ∧ Free n a w' c ∧ w'.origin c = .fork t := by
  obtain ⟨v, run, settled⟩ := w.exists_settled created live
  have known : t < v.count := settled.count ▸ created
  have passed := not_not.mpr ((settled.check sysForkNum).trans allowed)
  have step := Step.trap v ⟨t, known⟩ sysForkNum true (settled.live live)
  rw [settled.trap_eq, handleSyscall, if_neg (by decide), if_neg passed, if_neg (by decide),
    if_pos rfl, sysFork, if_pos rfl] at step
  refine ⟨_, v.count, run.tail step, ?_, update_self ..⟩
  exact .createTask (settled.count ▸ grows) (settled.family mem)
    (Origin.known ⟨t, known⟩ rfl) rfl rfl rfl

lemma exists_execed (grows : n ≤ w.count)
    (created : t < w.count) (mem : w.Family a t) (live : (w.tasks t).alive = true)
    (allowed : seccompCheck (some (w.tasks t)) sysExecveNum = 0) :
    ∃ w' c, ReflTransGen Step w w' ∧ Free n a w' c := by
  obtain ⟨v, run, settled⟩ := w.exists_settled created live
  have known : t < v.count := settled.count ▸ created
  have passed := not_not.mpr ((settled.check sysExecveNum).trans allowed)
  have step := Step.trap v ⟨t, known⟩ sysExecveNum true (settled.live live)
  rw [settled.trap_eq, handleSyscall, if_neg (by decide), if_neg passed, if_neg (by decide),
    if_neg (by decide), if_pos rfl, sysExecve, if_pos rfl] at step
  refine ⟨_, v.count, run.tail step, ?_⟩
  exact .createTask (settled.count ▸ grows) (settled.family mem)
    (Origin.known ⟨t, known⟩ rfl) rfl rfl rfl

lemma Free.check (free : Free n a w t) (num : Int) : seccompCheck (some (w.tasks t)) num = 0 := by
  rw [seccompCheck, free.seccomp]

/-- Every filter denies the numbers from 256 on, which a forked child without a filter may
use. -/
lemma Confined.not_free {filter : SeccompFilter}
    (confined : w.Confined a filter) (run : ReflTransGen Step w w') {c p : Nat}
    (free : Free w.count a w' c) (fork : w'.origin c = .fork p) : False := by
  obtain ⟨v, more, settled⟩ := w'.exists_settled free.created free.alive
  have known : c < v.count := settled.count ▸ free.created
  have passed := not_not.mpr ((settled.check sysSbrkNum).trans (free.check sysSbrkNum))
  have executed : (v.syscallTrap ⟨c, known⟩ sysSbrkNum true).1 = some .executed := by
    rw [settled.trap_eq, handleSyscall, if_neg (by decide), if_neg passed, if_neg (by decide),
      if_neg (by decide), if_neg (by decide), if_neg (by decide)]
  have origin : v.origin c = .fork p := settled.origin ▸ fork
  have allowed := confined v (run.trans more) ⟨c, known⟩ sysSbrkNum true
    (settled.live free.alive) free.recent ⟨p, origin⟩ (settled.family free.member) executed
  exact absurd allowed (by simp [SeccompFilter.check, sysSbrkNum])

lemma Confined.isSealed {filter : SeccompFilter}
    (confined : w.Confined a filter) : w.Sealed a := by
  intro t created mem live
  refine ⟨fun fork => ?_, fun exec => ?_⟩
  · obtain ⟨w₁, c, run, free, origin⟩ :=
      exists_forked le_rfl created mem live fork
    exact confined.not_free run free origin
  · obtain ⟨w₁, c, run, free⟩ := exists_execed le_rfl created mem live exec
    have grows := (free.recent.trans_lt free.created).le
    obtain ⟨w₂, c₂, run₂, free₂, origin⟩ :=
      exists_forked grows free.created free.member free.alive (free.check sysForkNum)
    exact confined.not_free (run.trans run₂) free₂ origin

/-- After `seccomp_set_filter` has installed a filter on a task, the descendants that
`sys_fork` makes keep within it exactly if every live task of the family, the task itself
included, has a filter that denies `SYS_FORK` and `SYS_EXECVE`. -/
theorem confined_iff_sealed (w w' : World) (a : Nat) (filter : SeccompFilter) (allocated : Bool)
    (created : a < w.count)
    (installed : w.seccompSetFilter (some a) (some filter) allocated = (0, w')) :
    w'.Confined a filter ↔ w'.Sealed a := by
  have known : a < w'.count := by
    unfold seccompSetFilter at installed
    cases allocated with
    | true =>
      cases installed
      exact created
    | false => cases installed
  exact ⟨Confined.isSealed, fun isSealed => isSealed.confined known filter⟩

end World

def booted : World where
  tasks := fun _ => {}
  origin := fun _ => .boot
  count := 1
  older := fun _ _ _ parent => nomatch parent

def allCalls : SeccompFilter := ⟨fun _ => BitVec.allOnes 64⟩

def noNewTasks : SeccompFilter :=
  ⟨fun i => if i.val = 0 then ~~~(1#64 <<< 57 ||| 1#64 <<< 59) else BitVec.allOnes 64⟩

def filtered (filter : SeccompFilter) : World :=
  booted.setTask 0 { seccomp := some filter }

lemma seccompSetFilter_booted (filter : SeccompFilter) :
    booted.seccompSetFilter (some 0) (some filter) true = (0, filtered filter) :=
  rfl

/-- The child of a task that may not grow its heap grows its own. -/
theorem not_confined_allCalls :
    booted.seccompSetFilter (some 0) (some allCalls) true = (0, filtered allCalls) ∧
      ¬(filtered allCalls).Confined 0 allCalls := by
  refine ⟨seccompSetFilter_booted allCalls, fun confined => ?_⟩
  have allowed : seccompCheck (some ((filtered allCalls).tasks 0)) sysForkNum = 0 := by decide
  exact (confined.isSealed 0 Nat.zero_lt_one .refl rfl).1 allowed

lemma family_filtered {filter : SeccompFilter} {t : Nat} (mem : (filtered filter).Family 0 t) :
    t = 0 := by
  rcases mem.cases_tail with same | ⟨p, _, created⟩
  · exact same
  · exact absurd created.2 nofun

/-- A filter without fork and execve. -/
theorem confined_iff_sealed_noNewTasks :
    (filtered noNewTasks).Sealed 0 ∧ (filtered noNewTasks).Confined 0 noNewTasks := by
  have isSealed : (filtered noNewTasks).Sealed 0 := by
    intro t _ mem _
    rw [family_filtered mem]
    decide
  exact ⟨isSealed, (World.confined_iff_sealed booted _ 0 noNewTasks true Nat.zero_lt_one
    (seccompSetFilter_booted noNewTasks)).mpr isSealed⟩

end AuroraOS.Seccomp
