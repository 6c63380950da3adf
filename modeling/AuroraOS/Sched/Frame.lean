import AuroraOS.Sched.Queues

/-!
# What the run queue operations leave alone

Moving tasks between run queues writes the links of the tasks, the tree nodes and the
`run_queue` records, and nothing else (`Relinks`).
-/

namespace AuroraOS.Sched

open Option

def Task.unlinked (t : Task) : Task := { t with next := none }

namespace State

open Rbtree

variable {s s' : State} {t cpu fuel : Nat}

structure Relinks (s s' : State) : Prop where
  tasks : ∀ t, (s'.tasks t).unlinked = (s.tasks t).unlinked
  rest : s' = { s with tasks := s'.tasks, nodes := s'.nodes, rq := s'.rq }

namespace Relinks

lemma refl (s : State) : Relinks s s := ⟨fun _ => rfl, rfl⟩

lemma trans {s'' : State} (first : Relinks s s') (second : Relinks s' s'') : Relinks s s'' := by
  refine ⟨fun t => (second.tasks t).trans (first.tasks t), second.rest.trans ?_⟩
  rw [first.rest]

lemma current (relinks : Relinks s s') : s'.current = s.current := by
  rw [relinks.rest]

lemma setNext (s : State) (t : Nat) (next : Option Nat) :
    Relinks s (s.setTask t fun task => { task with next := next }) := by
  refine ⟨fun u => ?_, rfl⟩
  rcases eq_or_ne u t with rfl | other
  · rw [setTask_tasks_self]
    rfl
  · rw [setTask_tasks_of_ne other]

lemma setRq (s : State) (cpu : Nat) (g : RunQueue → RunQueue) : Relinks s (s.setRq cpu g) :=
  ⟨fun _ => rfl, rfl⟩

lemma bypass (s : State) (p t cpu : Nat) : Relinks s (s.bypass p t cpu) := by
  unfold State.bypass
  split
  · exact (setNext s p _).trans (setRq _ cpu _)
  · exact setNext s p _

lemma linkTask (s : State) (t cpu : Nat) : Relinks s (s.linkTask t cpu) := by
  unfold State.linkTask
  cases (s.rq cpu).head with
  | none => exact (setNext s t _).trans (setRq _ cpu _)
  | some head => exact (setNext s t _).trans (setNext _ head _)

lemma enqueue (run : s.enqueue t cpu fuel = some s') : Relinks s s' := by
  obtain ⟨h, -, run⟩ := bind_eq_some_iff.mp run
  cases run
  exact (linkTask s t cpu).trans ⟨fun _ => rfl, rfl⟩

lemma eraseNode (run : s.eraseNode t cpu fuel = some s') : Relinks s s' := by
  obtain ⟨⟨malformed, h⟩, -, rfl⟩ := map_eq_some_iff.mp run
  exact ⟨fun _ => rfl, rfl⟩

lemma smpEnqueueTask {cpuId : Int} (run : s.smpEnqueueTask t cpuId fuel = some s') :
    Relinks s s' := by
  unfold State.smpEnqueueTask at run
  split at run
  · cases run
    exact refl s
  split at run
  · cases run
    exact refl s
  · exact enqueue run

lemma smpDequeueTask {cpuId : Int} (run : s.smpDequeueTask t cpuId fuel = some s') :
    Relinks s s' := by
  unfold State.smpDequeueTask at run
  split at run
  · cases run
    exact refl s
  dsimp only at run
  split at run
  · cases run
    exact refl s
  split at run
  · cases run
    exact refl s
  split at run
  · exact (setRq s _ _).trans (eraseNode run)
  split at run
  · cases run
  · cases run
    exact refl s
  · refine Relinks.trans ?_ (eraseNode run)
    refine Relinks.trans ?_ (setRq _ _ _)
    split
    · exact (setNext s _ _).trans (setRq _ _ _)
    · exact setNext s _ _

lemma smpSchedule {cpuId : Int} (run : s.smpSchedule cpuId fuel = some s') : Relinks s s' := by
  unfold State.smpSchedule at run
  split at run
  · cases run
    exact refl s
  split at run
  · cases run
    exact refl s
  split at run
  · cases run
    exact refl s
  split at run
  · cases run
    exact refl s
  split at run
  · cases run
    exact refl s
  split at run
  · cases run
  · cases run
    exact refl s
  · obtain ⟨s₁, dequeue, enqueue⟩ := bind_eq_some_iff.mp run
    exact (smpDequeueTask dequeue).trans (smpEnqueueTask enqueue)

end Relinks

/-- How `create_task` ends: without memory or a process id, or with a new task that is in a
run queue and among the children of the running task. -/
lemma createTask_cases {granted : Granted} {result : Option Nat}
    (run : s.createTask granted fuel = some (result, s')) :
    (result = none ∧ (s' = s ∨ s.allocPid = (none, s'))) ∨
    ∃ t pid s₁ s₂, granted.task = some t ∧ s.allocPid = (some pid, s₁) ∧
      (s₁.fillTask t pid).enqueue t (pid % (s₁.fillTask t pid).numCpus) fuel = some s₂ ∧
      result = some t ∧ s' = s₂.addChild s₂.current t granted.child := by
  unfold createTask at run
  split at run
  · cases run
    exact .inl ⟨rfl, .inl rfl⟩
  rename_i t grant
  split at run
  · cases run
    exact .inl ⟨rfl, .inl rfl⟩
  split at run
  · rename_i alloc
    cases run
    exact .inl ⟨rfl, .inr alloc⟩
  · rename_i pid s₁ alloc
    obtain ⟨s₂, enqueue, run⟩ := bind_eq_some_iff.mp run
    cases run
    exact .inr ⟨t, pid, s₁, s₂, grant, alloc, enqueue, rfl, rfl⟩

lemma createTask_granted {granted : Granted}
    (run : s.createTask granted fuel = some (some t, s')) : granted.task = some t := by
  rcases createTask_cases run with ⟨none, -⟩ | ⟨t', pid, s₁, s₂, grant, -, -, is, -⟩
  · cases none
  · cases is
    exact grant

end State

end AuroraOS.Sched
