import AuroraOS.Rbtree.Frame
import AuroraOS.Sched.Model

/-!
# More fuel changes no result

Every function of the scheduler that loops is steady, so that what it returns can be
computed with one amount of fuel.
-/

namespace AuroraOS.Rbtree

open Lib

lemma climb_steady (h : RbHeap) (node : Nat) (parent : Option Nat) :
    Steady fun fuel => climb h fuel node parent := by
  refine .of_extends fun fuel => ?_
  induction fuel generalizing node parent with
  | zero => exact .none
  | succ fuel ih =>
    cases parent with
    | none => exact .refl _
    | some p =>
      unfold climb
      exact .ite (ih _ _) (.refl _)

lemma rbFindMin_steady (h : RbHeap) : Steady (rbFindMin h) := by
  unfold rbFindMin
  cases h.root with
  | none => exact Steady.const _
  | some node => exact (leftmost_steady node).map

lemma rbNext_steady (h : RbHeap) (node : Nat) : Steady (rbNext h node) := by
  unfold rbNext
  cases (h.node node).right with
  | none => exact climb_steady h node _
  | some next => exact (leftmost_steady next).map

end AuroraOS.Rbtree

namespace AuroraOS.Sched.State

open Lib Rbtree

variable (s : State)
include s

lemma firstRunnable_steady (h : RbHeap) (node : Option Nat) :
    Steady fun fuel => s.firstRunnable h fuel node := by
  refine .of_extends fun fuel => ?_
  induction fuel generalizing node with
  | zero => exact .none
  | succ fuel ih =>
    cases node with
    | none => exact .refl _
    | some candidate =>
      unfold firstRunnable
      exact .ite (.refl _) (.bind (rbNext_steady h candidate fuel) ih)

lemma schedule_steady (cpu : Nat) : Steady (s.schedule cpu) := by
  refine .of_extends fun fuel => ?_
  induction fuel with
  | zero => exact .none
  | succ fuel ih =>
    unfold schedule
    refine .ite (.refl _) ?_
    cases (s.rq cpu).head with
    | none => exact .ite ih (.refl _)
    | some head =>
      refine .bind (rbFindMin_steady _ fuel) fun first => ?_
      refine .bind (firstRunnable_steady s _ first fuel) fun next => ?_
      cases next with
      | some next => exact .refl _
      | none => exact .ite (.refl _) (.ite (.refl _) (.ite ih (.refl _)))

lemma yield_steady (cpu : Nat) : Steady (s.yield cpu) := schedule_steady _ cpu

lemma enqueue_steady (t cpu : Nat) : Steady (s.enqueue t cpu) :=
  (rbInsert_steady _ _).bind fun _ => Steady.const _

lemma eraseNode_steady (t cpu : Nat) : Steady (s.eraseNode t cpu) :=
  (rbErase_steady _ _).map

lemma smpEnqueueTask_steady (t : Nat) (cpuId : Int) : Steady (s.smpEnqueueTask t cpuId) :=
  Steady.ite (Steady.const _) (Steady.ite (Steady.const _) (enqueue_steady _ _ _))

lemma findBefore_steady (t head prev : Nat) :
    Steady fun fuel => s.findBefore t head fuel prev := by
  refine .of_extends fun fuel => ?_
  induction fuel generalizing prev with
  | zero => exact .none
  | succ fuel ih =>
    unfold findBefore
    refine .ite (.refl _) ?_
    cases (s.tasks prev).next with
    | none => exact .none
    | some next => exact .ite (.refl _) (ih next)

lemma smpDequeueTask_steady (t : Nat) (cpuId : Int) : Steady (s.smpDequeueTask t cpuId) := by
  unfold smpDequeueTask
  refine .ite (.const _) ?_
  dsimp only
  cases (s.rq cpuId.toNat).head with
  | none => exact .const _
  | some head =>
    refine .ite (.const _) (.ite (eraseNode_steady _ _ _) (.of_extends fun fuel => ?_))
    have search := findBefore_steady s t head head fuel
    dsimp only at search ⊢
    cases found : s.findBefore t head fuel head with
    | none => exact .none
    | some prev =>
      rw [search prev found]
      cases prev with
      | none => exact .refl _
      | some prev => exact eraseNode_steady _ _ _ fuel

lemma findPrev_steady (t prev : Nat) : Steady fun fuel => s.findPrev t fuel prev := by
  refine .of_extends fun fuel => ?_
  induction fuel generalizing prev with
  | zero => exact .none
  | succ fuel ih =>
    unfold findPrev
    exact .ite (.refl _) (.bind (.refl _) ih)

lemma leaveQueue_steady (prev cpu : Nat) : Steady (s.leaveQueue prev cpu) :=
  (eraseNode_steady _ _ _).bind fun _ => schedule_steady _ _

lemma doExitCurrent_steady (cpu : Nat) (code : Int) : Steady (s.doExitCurrent cpu code) :=
  Steady.ite (Steady.const _) <| (findPrev_steady _ _ _).bind fun _ =>
    Steady.ite
      (Steady.ite ((schedule_steady _ _).bind fun _ =>
        Steady.ite (leaveQueue_steady _ _ _) (Steady.const _)) (Steady.const _))
      (leaveQueue_steady _ _ _)

omit s in
lemma schedulerInit_steady (idle : Nat) (init : Option Nat) (numCpus : Nat) :
    Steady (schedulerInit idle init numCpus) :=
  (rbInsert_steady _ _).bind fun _ => by
    cases init <;> exact Steady.const _

lemma createTask_steady (granted : Granted) : Steady (s.createTask granted) := by
  unfold createTask
  cases granted.task with
  | none => exact Steady.const _
  | some t =>
    refine Steady.ite (Steady.const _) ?_
    rcases s.allocPid with ⟨_ | pid, s'⟩
    · exact Steady.const _
    · exact (enqueue_steady _ _ _).bind fun _ => Steady.const _

end AuroraOS.Sched.State
