import AuroraOS.Lib.Circle
import AuroraOS.Rbtree.Frame
import AuroraOS.Sched.Switch

/-!
# Run queues

A run queue holds a set of tasks three times: in the circular list behind its head, in its ready
tree and as a count.  `QueueHolds s cpu ts` says that the three agree on `ts`, and `Agrees s q` that
they do on every processor and that no task is in two queues.
-/

namespace AuroraOS.Sched

open Lib Rbtree Function List Option

namespace State

variable {s s' : State} {t u cpu c : Nat} {f : Task → Task} {g : RunQueue → RunQueue}

def nextOf (s : State) (t : Nat) : Option Nat := (s.tasks t).next

@[simp] lemma setRq_tasks : (s.setRq cpu g).tasks = s.tasks := rfl
@[simp] lemma setRq_nodes : (s.setRq cpu g).nodes = s.nodes := rfl
@[simp] lemma setRq_numCpus : (s.setRq cpu g).numCpus = s.numCpus := rfl
@[simp] lemma setRq_nextOf : (s.setRq cpu g).nextOf = s.nextOf := rfl

@[simp] lemma setRq_self : (s.setRq cpu g).rq cpu = g (s.rq cpu) := by simp [setRq]

lemma setRq_of_ne (other : c ≠ cpu) : (s.setRq cpu g).rq c = s.rq c := by
  simp [setRq, other]

lemma setRq_readyTree (keeps : ∀ rq, (g rq).readyTree = rq.readyTree) (c : Nat) :
    ((s.setRq cpu g).rq c).readyTree = (s.rq c).readyTree := by
  rcases eq_or_ne c cpu with rfl | other
  · rw [setRq_self, keeps]
  · rw [setRq_of_ne other]

variable {h : RbHeap}

@[simp] lemma setHeap_tasks : (s.setHeap cpu h).tasks = s.tasks := rfl
@[simp] lemma setHeap_nextOf : (s.setHeap cpu h).nextOf = s.nextOf := rfl
@[simp] lemma setHeap_nodes : (s.setHeap cpu h).nodes = h.node := rfl
@[simp] lemma setHeap_numCpus : (s.setHeap cpu h).numCpus = s.numCpus := rfl

@[simp] lemma setHeap_rq_self :
    (s.setHeap cpu h).rq cpu = { s.rq cpu with readyTree := h.root } := by
  simp [setHeap]

lemma setHeap_rq_of_ne (other : c ≠ cpu) : (s.setHeap cpu h).rq c = s.rq c := by
  simp [setHeap, setRq_of_ne other]

@[simp] lemma heap_setHeap : (s.setHeap cpu h).heap cpu = h := by
  simp [heap]

lemma nextOf_setTask : (s.setTask t f).nextOf = update s.nextOf t (f (s.tasks t)).next := by
  funext u
  rcases eq_or_ne u t with rfl | other
  · simp [nextOf]
  · simp [nextOf, setTask_tasks_of_ne other, other]

lemma nextOf_setTask_of_keeps (keeps : (f (s.tasks t)).next = (s.tasks t).next) :
    (s.setTask t f).nextOf = s.nextOf := by
  rw [nextOf_setTask, keeps]
  exact update_eq_self t s.nextOf

/-! ## Agreement -/

structure QueueHolds (s : State) (cpu : Nat) (ts : List Nat) : Prop where
  list : CircularList s.nextOf (s.rq cpu).head ts
  tree : HoldsTree (s.heap cpu) ts
  count : (s.rq cpu).count = ts.length

/-- Every queue holds its tasks, and no task is in two of them. -/
structure Agrees (s : State) (q : Nat → List Nat) : Prop where
  holds : ∀ cpu < maxCpus, s.QueueHolds cpu (q cpu)
  apart : ∀ c < maxCpus, ∀ d < maxCpus, c ≠ d → (q c).Disjoint (q d)

def Queued (s : State) (cpu t : Nat) : Prop :=
  ∃ ts, CircularList s.nextOf (s.rq cpu).head ts ∧ t ∈ ts

structure SameQueues (s s' : State) : Prop where
  nextOf : s'.nextOf = s.nextOf
  nodes : s'.nodes = s.nodes
  rq : s'.rq = s.rq
  numCpus : s'.numCpus = s.numCpus

lemma SameQueues.refl (s : State) : SameQueues s s := ⟨rfl, rfl, rfl, rfl⟩

lemma SameQueues.trans {s'' : State} (first : SameQueues s s') (second : SameQueues s' s'') :
    SameQueues s s'' :=
  ⟨second.nextOf.trans first.nextOf, second.nodes.trans first.nodes, second.rq.trans first.rq,
    second.numCpus.trans first.numCpus⟩

lemma SameQueues.setTask (keeps : (f (s.tasks t)).next = (s.tasks t).next) :
    SameQueues s (s.setTask t f) :=
  ⟨nextOf_setTask_of_keeps keeps, rfl, rfl, rfl⟩

variable {ts : List Nat} {q : Nat → List Nat}

lemma QueueHolds.nodup (queue : s.QueueHolds cpu ts) : ts.Nodup := queue.list.nodup

lemma QueueHolds.congr (queue : s.QueueHolds cpu ts)
    (links : ∀ t ∈ ts, s'.nextOf t = s.nextOf t) (nodes : ∀ t ∈ ts, s'.nodes t = s.nodes t)
    (rq : s'.rq cpu = s.rq cpu) : s'.QueueHolds cpu ts where
  list := by
    rw [rq]
    exact queue.list.congr links
  tree := queue.tree.outside (by simp [heap, rq]) nodes
  count := by rw [rq, queue.count]

lemma Agrees.congr (agrees : s.Agrees q) (same : SameQueues s s') : s'.Agrees q :=
  ⟨fun cpu small => (agrees.holds cpu small).congr (fun t _ => congrFun same.nextOf t)
    (fun t _ => congrFun same.nodes t) (congrFun same.rq cpu), agrees.apart⟩

lemma QueueHolds.queued_iff (queue : s.QueueHolds cpu ts) : s.Queued cpu t ↔ t ∈ ts :=
  queue.list.exists_mem_iff

lemma QueueHolds.circle {h : Nat} (queue : s.QueueHolds cpu ts)
    (headIs : (s.rq cpu).head = some h) : ∃ rest, Circle s.nextOf h rest ∧ (h :: rest).Perm ts := by
  have list := queue.list
  rw [headIs] at list
  exact list.circle

lemma Agrees.change (agrees : s.Agrees q) (small : cpu < maxCpus) (queue : s'.QueueHolds cpu ts)
    (others : ∀ c < maxCpus, c ≠ cpu → s'.rq c = s.rq c ∧ ts.Disjoint (q c) ∧
      ∀ u ∈ q c, s'.nextOf u = s.nextOf u ∧ s'.nodes u = s.nodes u) :
    s'.Agrees (update q cpu ts) := by
  refine ⟨fun c cSmall => ?_, fun c cSmall d dSmall different => ?_⟩
  · rcases eq_or_ne c cpu with rfl | other
    · rw [update_self]
      exact queue
    · rw [update_of_ne other]
      obtain ⟨rq, -, kept⟩ := others c cSmall other
      exact (agrees.holds c cSmall).congr (fun u mem => (kept u mem).1)
        (fun u mem => (kept u mem).2) rq
  · rcases eq_or_ne c cpu with rfl | notC
    · rw [update_self, update_of_ne different.symm]
      exact (others d dSmall different.symm).2.1
    rw [update_of_ne notC]
    rcases eq_or_ne d cpu with rfl | notD
    · rw [update_self]
      exact disjoint_symm (others c cSmall notC).2.1
    · rw [update_of_ne notD]
      exact agrees.apart c cSmall d dSmall different

/-! ## Enqueueing -/

lemma linkTask_spec (list : CircularList s.nextOf (s.rq cpu).head ts) (fresh : t ∉ ts) :
    CircularList (s.linkTask t cpu).nextOf ((s.linkTask t cpu).rq cpu).head (t :: ts) ∧
      (∀ u, u ≠ t → u ∉ ts → (s.linkTask t cpu).nextOf u = s.nextOf u) ∧
      ((s.linkTask t cpu).rq cpu).count = (s.rq cpu).count ∧
      ((s.linkTask t cpu).rq cpu).readyTree = (s.rq cpu).readyTree ∧
      (∀ c, c ≠ cpu → (s.linkTask t cpu).rq c = s.rq c) := by
  unfold linkTask
  cases headIs : (s.rq cpu).head with
  | none =>
    rw [headIs] at list
    simp only [setRq_nextOf, nextOf_setTask, setRq_self, setTask_rq]
    exact ⟨list.single, fun u other _ => update_of_ne other _ _, trivial, trivial,
      fun c other => setRq_of_ne other⟩
  | some h =>
    rw [headIs] at list
    obtain ⟨rest, -, same⟩ := list.circle
    have headIn : h ∈ ts := same.mem_iff.mp (mem_cons_self ..)
    simp only [nextOf_setTask, setTask_rq, headIs]
    refine ⟨list.push fresh, fun u notT outside => ?_, trivial, trivial, fun _ _ => trivial⟩
    have notH : u ≠ h := fun same => outside (same ▸ headIn)
    rw [update_of_ne notH, update_of_ne notT]

lemma Agrees.enqueue (agrees : s.Agrees q) (small : cpu < maxCpus)
    (fresh : ∀ c < maxCpus, t ∉ q c) :
    ∃ s', Returns (s.enqueue t cpu) s' ∧ s'.Agrees (update q cpu (t :: q cpu)) ∧
      s'.numCpus = s.numCpus := by
  have queue := agrees.holds cpu small
  obtain ⟨list, links, count, root, others⟩ := linkTask_spec queue.list (fresh cpu small)
  have nodes : (s.linkTask t cpu).nodes = s.nodes := by
    unfold linkTask
    split <;> rfl
  have cpus : (s.linkTask t cpu).numCpus = s.numCpus := by
    unfold linkTask
    split <;> rfl
  let s₁ := (s.linkTask t cpu).setRq cpu fun rq => { rq with count := rq.count + 1 }
  let s₂ := { s₁ with
    nodes := update s₁.nodes t { s₁.nodes t with key := (s₁.tasks t).vruntime } }
  have tree₂ : HoldsTree (s₂.heap cpu) (q cpu) := by
    refine queue.tree.outside (by simp [heap, s₂, s₁, root]) fun u mem => ?_
    have other : u ≠ t := fun same => fresh cpu small (same ▸ mem)
    simp [heap, s₂, s₁, other, nodes]
  obtain ⟨h, insert, tree'⟩ := tree₂.insert (fresh cpu small)
  refine ⟨s₂.setHeap cpu h, ?_, ?_, cpus⟩
  · obtain ⟨bound, insert⟩ := insert
    refine ⟨bound, fun fuel enough => ?_⟩
    simp only [State.enqueue]
    rw [show rbInsert _ t fuel = some h from insert fuel enough]
    rfl
  · refine agrees.change small ⟨?_, ?_, ?_⟩ fun c cSmall other => ⟨?_, ?_, fun u mem => ?_⟩
    · rw [setHeap_rq_self, show s₂.rq = s₁.rq from rfl, setRq_self]
      exact list
    · rwa [heap_setHeap]
    · rw [setHeap_rq_self, show s₂.rq = s₁.rq from rfl, setRq_self]
      simp [count, queue.count]
    · rw [setHeap_rq_of_ne other, ← others c other]
      exact (setRq_of_ne other : s₁.rq c = (s.linkTask t cpu).rq c)
    · refine disjoint_cons_left.mpr ⟨fresh c cSmall, ?_⟩
      exact agrees.apart cpu small c cSmall other.symm
    · have notT : u ≠ t := fun same => fresh c cSmall (same ▸ mem)
      have outside : u ∉ q cpu := fun inside =>
        agrees.apart c cSmall cpu small other mem inside
      refine ⟨links u notT outside, ?_⟩
      have kept : h.node u = (s₂.heap cpu).node u :=
        tree₂.insert_outside insert (by simp [notT, outside])
      simpa [heap, s₂, s₁, notT, nodes] using kept

/-! ## Dequeueing -/

/-- `rb_erase` of `t` returns, and with the count adjusted the queue is without `t`. -/
def Erases (s : State) (q : Nat → List Nat) (cpu t : Nat) : Prop :=
  ∃ h, Returns (s.eraseNode t cpu) (s.setHeap cpu h) ∧
    ∀ s' : State, s'.nextOf = s.nextOf → s'.nodes = h.node →
      s'.rq cpu = { (s.rq cpu) with readyTree := h.root, count := (q cpu).length - 1 } →
      (∀ c, c ≠ cpu → s'.rq c = s.rq c) → s'.Agrees (update q cpu ((q cpu).erase t))

lemma Agrees.eraseNode (agrees : s.Agrees q) (s' : State) (small : cpu < maxCpus)
    (mem : t ∈ q cpu)
    (nodes : s'.nodes = s.nodes) (tree : (s'.rq cpu).readyTree = (s.rq cpu).readyTree)
    (list : CircularList s'.nextOf (s'.rq cpu).head ((q cpu).erase t))
    (links : ∀ u, u ∉ q cpu → s'.nextOf u = s.nextOf u)
    (others : ∀ c, c ≠ cpu → s'.rq c = s.rq c) : s'.Erases q cpu t := by
  have queue := agrees.holds cpu small
  have tree' : HoldsTree (s'.heap cpu) (q cpu) :=
    queue.tree.outside tree fun u _ => congrFun nodes u
  obtain ⟨h, erase, without⟩ := tree'.erase mem
  refine ⟨h, ?_, fun s'' nextOf heapIs rq rest => ?_⟩
  · obtain ⟨bound, erase⟩ := erase
    exact ⟨bound, fun fuel enough => by simp [State.eraseNode, erase fuel enough]⟩
  refine agrees.change small ⟨?_, ?_, ?_⟩ fun c cSmall other => ⟨?_, ?_, fun u inside => ?_⟩
  · rw [rq, nextOf]
    exact list
  · have same : s''.heap cpu = h := by simp [heap, rq, heapIs]
    rwa [same]
  · rw [rq, length_erase_of_mem mem]
  · rw [rest c other, others c other]
  · exact fun u inside there =>
      agrees.apart cpu small c cSmall other.symm (mem_of_mem_erase inside) there
  · have outside : u ∉ q cpu := fun there => agrees.apart c cSmall cpu small other inside there
    refine ⟨by rw [nextOf, links u outside], ?_⟩
    rw [heapIs, tree'.erase_outside mem erase outside]
    exact congrFun nodes u

variable {a head fuel p : Nat} {xs : List Nat}

/-- The search of `smp_dequeue_task` along a path to the task it looks for or back to the head. -/
lemma findBefore_path {c : Nat} (path : Route s.nextOf a xs c) (stops : c = t ∨ c = head)
    (fresh : t ∉ xs) (notHead : head ∉ xs) (enough : xs.length ≤ fuel) :
    s.findBefore t head (fuel + 1) a =
      some (if c = t then some ((a :: xs).getLast (cons_ne_nil a xs)) else none) := by
  induction xs generalizing a fuel with
  | nil =>
    have here : (s.tasks a).next = some c := path
    by_cases same : c = t
    · simp [findBefore, here, same]
    · obtain rfl := stops.resolve_left same
      simp [findBefore, here, same]
  | cons b xs ih =>
    obtain ⟨step, rest⟩ := path
    have here : (s.tasks a).next = some b := step
    rw [mem_cons, not_or] at fresh notHead
    cases fuel with
    | zero => cases enough
    | succ fuel =>
      have tail := ih rest fresh.2 notHead.2 (Nat.le_of_succ_le_succ enough)
      rw [getLast_cons (cons_ne_nil b xs), findBefore]
      simp [here, Ne.symm fresh.1, Ne.symm notHead.1, tail]

lemma findPrev_path (path : Route s.nextOf a xs t) (fresh : t ∉ xs) (enough : xs.length ≤ fuel) :
    s.findPrev t (fuel + 1) a = some ((a :: xs).getLast (cons_ne_nil a xs)) := by
  induction xs generalizing a fuel with
  | nil =>
    have here : (s.tasks a).next = some t := path
    simp [findPrev, here]
  | cons b xs ih =>
    obtain ⟨step, rest⟩ := path
    have here : (s.tasks a).next = some b := step
    rw [mem_cons, not_or] at fresh
    cases fuel with
    | zero => cases enough
    | succ fuel =>
      have tail := ih rest fresh.2 (Nat.le_of_succ_le_succ enough)
      rw [getLast_cons (cons_ne_nil b xs), findPrev]
      simp [here, Ne.symm fresh.1, tail]

/-- The search of `smp_schedule` ends, with a task of the list if it finds one. -/
lemma findStealable_path (path : Route s.nextOf a xs head) (notHead : head ∉ xs) :
    ∃ found, (∀ fuel, xs.length ≤ fuel → s.findStealable head (fuel + 1) a = some found) ∧
      ∀ t, found = some t → t ∈ a :: xs := by
  induction xs generalizing a with
  | nil =>
    have here : (s.tasks a).next = some head := path
    by_cases take : (s.tasks a).state = .ready ∧ a ≠ head
    · exact ⟨some a, fun fuel _ => if_pos take, by simp⟩
    · exact ⟨none, fun fuel _ => by simp [findStealable, if_neg take, here], by simp⟩
  | cons b xs ih =>
    obtain ⟨step, rest⟩ := path
    have here : (s.tasks a).next = some b := step
    rw [mem_cons, not_or] at notHead
    by_cases take : (s.tasks a).state = .ready ∧ a ≠ head
    · exact ⟨some a, fun fuel _ => if_pos take, by simp⟩
    obtain ⟨found, run, inside⟩ := ih rest notHead.2
    refine ⟨found, fun fuel enough => ?_, fun t is => mem_cons_of_mem _ (inside t is)⟩
    cases fuel with
    | zero => cases enough
    | succ fuel =>
      rw [findStealable, if_neg take]
      simp [here, Ne.symm notHead.1, run fuel (Nat.le_of_succ_le_succ enough)]

lemma QueueHolds.exists_before {h b : Nat} {ys : List Nat} (queue : s.QueueHolds cpu ts)
    (headIs : (s.rq cpu).head = some h) (turned : Circle s.nextOf t (b :: ys))
    (cells : (t :: b :: ys).Perm ts) :
    ∃ p ∈ ts, p ≠ t ∧ s.nextOf p = some t ∧
      ∃ bound, ∀ fuel, bound ≤ fuel → s.findBefore t h (fuel + 1) h = some (some p) := by
  have different : ∀ p, s.nextOf p = some t → p ≠ t := by
    rintro p link rfl
    cases turned.path.1.symm.trans link
    exact turned.fresh (mem_cons_self ..)
  obtain ⟨rest, circle, same⟩ := queue.circle headIs
  have mem : t ∈ h :: rest := same.mem_iff.mpr (cells.mem_iff.mp (mem_cons_self ..))
  rcases mem_cons.mp mem with rfl | inner
  · have link := circle.path.getLast_link
    exact ⟨_, same.mem_iff.mp (getLast_mem _), different _ link, link, rest.length,
      fun fuel enough => (findBefore_path circle.path (.inl rfl) circle.fresh circle.fresh
        enough).trans (congrArg some (if_pos rfl))⟩
  · obtain ⟨front, back, rfl⟩ := append_of_mem inner
    obtain ⟨path, -⟩ := Route.append.mp circle.path
    have nodup := nodup_cons.mp circle.nodup
    have fresh : t ∉ front := fun inside =>
      (nodup_append.mp nodup.2).2.2 t inside t (mem_cons_self ..) rfl
    have notHead : h ∉ front := fun inside => nodup.1 (mem_append_left _ inside)
    have link := path.getLast_link
    refine ⟨_, same.mem_iff.mp ?_, different _ link, link, front.length, fun fuel enough =>
      (findBefore_path path (.inl rfl) fresh notHead enough).trans (congrArg some (if_pos rfl))⟩
    rcases mem_cons.mp (getLast_mem (cons_ne_nil h front)) with is | inFront
    · rw [is]
      exact mem_cons_self ..
    · exact mem_cons_of_mem _ (mem_append_left _ inFront)

/-- The links past `t`, as `smp_dequeue_task` and `do_exit_current` write them. -/
def bypass (s : State) (p t cpu : Nat) : State :=
  let next := (s.tasks t).next
  let s' := s.setTask p fun task => { task with next := next }
  if (s.rq cpu).head = some t then s'.setRq cpu fun rq => { rq with head := next } else s'

lemma bypass_nextOf : (s.bypass p t cpu).nextOf = update s.nextOf p (s.nextOf t) := by
  have links := nextOf_setTask (s := s) (t := p) (f := fun task =>
    { task with next := (s.tasks t).next })
  unfold bypass
  split
  · exact links
  · exact links

lemma bypass_rq_self {h : Nat} (headIs : (s.rq cpu).head = some h) :
    (s.bypass p t cpu).rq cpu = { s.rq cpu with head := if h = t then s.nextOf t else some h } := by
  unfold bypass
  rw [headIs]
  rcases eq_or_ne h t with rfl | other
  · simp [nextOf]
  · simp only [some.injEq, other, ↓reduceIte, setTask_rq]
    rw [← headIs]

lemma bypass_rq_of_ne (other : c ≠ cpu) : (s.bypass p t cpu).rq c = s.rq c := by
  unfold bypass
  split
  · exact setRq_of_ne other
  · rfl

@[simp] lemma bypass_nodes : (s.bypass p t cpu).nodes = s.nodes := by
  unfold bypass
  split <;> rfl

@[simp] lemma bypass_numCpus : (s.bypass p t cpu).numCpus = s.numCpus := by
  unfold bypass
  split <;> rfl

lemma leaveQueue_eq {fuel : Nat} : s.leaveQueue p cpu fuel =
    ((s.bypass p s.current cpu).eraseNode s.current cpu fuel).bind
      fun t => (t.setRq cpu fun rq => { rq with count := rq.count - 1 }).schedule cpu fuel := by
  have current : (s.bypass p s.current cpu).current = s.current := by
    unfold bypass
    split <;> rfl
  have steps : s.leaveQueue p cpu fuel =
      ((s.bypass p s.current cpu).eraseNode (s.bypass p s.current cpu).current cpu fuel).bind
        fun t => (t.setRq cpu fun rq => { rq with count := rq.count - 1 }).schedule cpu fuel := rfl
  rw [steps, current]

/-- `rb_erase` after the links past `t` were written, in any state with these links. -/
lemma Agrees.erase_bypass {h : Nat} (agrees : s.Agrees q) (s₁ : State)
    (small : cpu < maxCpus) (headIs : (s.rq cpu).head = some h) (mem : t ∈ q cpu)
    (before : p ∈ q cpu) (different : p ≠ t) (link : s.nextOf p = some t)
    (nextOf : s₁.nextOf = (s.bypass p t cpu).nextOf) (nodes : s₁.nodes = s.nodes)
    (head : (s₁.rq cpu).head = ((s.bypass p t cpu).rq cpu).head)
    (tree : (s₁.rq cpu).readyTree = (s.rq cpu).readyTree)
    (others : ∀ c, c ≠ cpu → s₁.rq c = s.rq c) : s₁.Erases q cpu t := by
  have list := (agrees.holds cpu small).list
  rw [headIs] at list
  refine agrees.eraseNode s₁ small mem nodes tree ?_ (fun u outside => ?_) others
  · rw [head, bypass_rq_self headIs, nextOf, bypass_nextOf]
    exact list.remove mem before different link
  · have other : u ≠ p := fun is => outside (is.symm ▸ before)
    rw [nextOf, bypass_nextOf, update_of_ne other]

lemma Agrees.dequeue_missing (agrees : s.Agrees q) (cpuId : Int)
    (missing : t ∉ q cpuId.toNat) : Returns (s.smpDequeueTask t cpuId) s := by
  by_cases range : cpuId < 0 ∨ cpuId ≥ maxCpus
  · exact ⟨0, fun fuel _ => if_pos range⟩
  have queue := agrees.holds cpuId.toNat (by omega)
  rcases queue.list with ⟨-, headIs⟩ | ⟨h, rest, headIs, circle, same⟩
  · exact ⟨0, fun fuel _ => by simp only [smpDequeueTask, if_neg range, headIs]⟩
  have outside : t ∉ h :: rest := fun inside => missing (same.mem_iff.mp inside)
  rw [mem_cons, not_or] at outside
  refine Returns.of_succ rest.length fun fuel enough => ?_
  have search := findBefore_path circle.path (.inr rfl) outside.2 circle.fresh enough
  simp only [smpDequeueTask, headIs, search, Ne.symm outside.1, false_and,
    ↓reduceIte, ite_self]

lemma Agrees.dequeue (agrees : s.Agrees q) (small : cpu < maxCpus) (mem : t ∈ q cpu) :
    ∃ s', Returns (s.smpDequeueTask t cpu) s' ∧
      s'.Agrees (update q cpu ((q cpu).erase t)) ∧ s'.numCpus = s.numCpus := by
  have queue := agrees.holds cpu small
  have range : ¬((cpu : Int) < 0 ∨ (cpu : Int) ≥ maxCpus) := by omega
  have nonzero : (s.rq cpu).count ≠ 0 := by
    rw [queue.count]
    exact Nat.ne_of_gt (length_pos_of_mem mem)
  obtain ⟨h, headIs⟩ := queue.list.exists_head mem
  obtain ⟨ys, turned, cells⟩ := queue.list.circle_of_mem mem
  cases ys with
  | nil =>
    -- the only task of the queue
    have only : q cpu = [t] := perm_singleton.mp cells.symm
    have link : (s.tasks t).next = some t := turned.path
    obtain ⟨rest, -, same⟩ := queue.circle headIs
    have inside := same.mem_iff.mp (mem_cons_self ..)
    rw [only] at inside
    obtain rfl := mem_singleton.mp inside
    obtain ⟨h', erase, done⟩ := agrees.eraseNode
      (s.setRq cpu fun rq => { rq with head := none, count := 0 }) small mem rfl
      (by simp) (by simp [only, CircularList]) (fun _ _ => rfl) fun c other => setRq_of_ne other
    refine ⟨_, ?_, done ((s.setRq cpu _).setHeap cpu h') rfl rfl (by simp [only])
      fun c other => setHeap_rq_of_ne other, rfl⟩
    refine erase.congr fun fuel => ?_
    simp only [smpDequeueTask, if_neg range, Int.toNat_natCast, headIs, if_neg nonzero, link,
      and_self, ↓reduceIte]
  | cons b ys =>
    have notSelf : ¬(h = t ∧ (s.tasks t).next = some t) := by
      rintro ⟨-, is⟩
      cases turned.path.1.symm.trans is
      exact turned.fresh (mem_cons_self ..)
    obtain ⟨p, before, different, link, bound₁, search⟩ :=
      queue.exists_before headIs turned cells
    obtain ⟨h', ⟨bound₂, erase⟩, done⟩ := agrees.erase_bypass
      ((s.bypass p t cpu).setRq cpu fun rq => { rq with count := rq.count - 1 })
      small headIs mem before different link rfl bypass_nodes (by rw [setRq_self])
      (by rw [setRq_self, bypass_rq_self headIs])
      fun c other => by rw [setRq_of_ne other, bypass_rq_of_ne other]
    refine ⟨_, Returns.of_succ (max bound₁ bound₂) fun fuel enough => ?_,
      done (((s.bypass p t cpu).setRq cpu _).setHeap cpu h') rfl rfl ?_
        fun c other => setHeap_rq_of_ne other, bypass_numCpus⟩
    · have search := search fuel (Nat.le_trans (Nat.le_max_left ..) enough)
      have steps : s.smpDequeueTask t cpu (fuel + 1) = ((s.bypass p t cpu).setRq cpu
          fun rq => { rq with count := rq.count - 1 }).eraseNode t cpu (fuel + 1) := by
        simp only [smpDequeueTask, if_neg range, Int.toNat_natCast, headIs, if_neg nonzero,
          if_neg notSelf, search, bypass, some.injEq]
      rw [steps]
      exact erase _ (Nat.le_succ_of_le (Nat.le_trans (Nat.le_max_right ..) enough))
    · simp only [setHeap_rq_self, setRq_self, bypass_rq_self headIs, queue.count]

end State

end AuroraOS.Sched
