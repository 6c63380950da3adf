import Mathlib.Algebra.Group.Nat.Defs
import Mathlib.Logic.Function.Basic
import Mathlib.Logic.Relation

/-!
# NVMe completion queues

Model of `nvme_queue_init` and `nvme_wait_completion` of `kernel/nvme.c`.  The driver runs
beside the controller, which writes to the queue at any time: a call of
`nvme_wait_completion` stands at a `Pc`, and between two of its accesses to the queue the
controller may post.  What `kmalloc` returns is an argument.
-/

namespace AuroraOS.Nvme

structure Cqe where
  cmdSpecific : BitVec 32
  rsvd : BitVec 32
  sqHead : BitVec 16
  sqId : BitVec 16
  cid : BitVec 16
  status : BitVec 16
deriving DecidableEq, Repr

def Cqe.zero : Cqe := ⟨0, 0, 0, 0, 0, 0⟩

def Cqe.phase (e : Cqe) : BitVec 8 := (e.status &&& 0x0001#16).setWidth 8

/-- `struct nvme_queue`; addresses are 0 where nothing is allocated. -/
structure NvmeQueue where
  qid : BitVec 16
  numEntries : BitVec 16
  entrySize : BitVec 32
  sq : BitVec 64
  cq : BitVec 64
  sqPhys : BitVec 64
  cqPhys : BitVec 64
  sqTail : BitVec 16
  sqHead : BitVec 16
  cqHead : BitVec 16
  phase : BitVec 8
deriving DecidableEq, Repr

def sizeofSqe : Nat := 64
def sizeofCqe : Nat := 16

def sizeMax : Nat := 2 ^ 64 - 1

def safeEntries (numEntries : BitVec 16) : Nat :=
  let maxSqEntries := sizeMax / sizeofSqe
  let maxCqEntries := sizeMax / sizeofCqe
  let safe := numEntries.toNat
  let safe := if safe > maxSqEntries then maxSqEntries else safe
  if safe > maxCqEntries then maxCqEntries else safe

/-- `nvme_queue_init`; the allocated queues are filled with zero bytes. -/
def nvmeQueueInit (kmalloc : Nat → BitVec 64) (qid numEntries : BitVec 16) : NvmeQueue :=
  let sq := kmalloc (safeEntries numEntries * sizeofSqe)
  let cq := kmalloc (safeEntries numEntries * sizeofCqe)
  { qid := qid, numEntries := numEntries, entrySize := BitVec.ofNat 32 sizeofSqe
    sq := sq, cq := cq, sqPhys := sq, cqPhys := cq
    sqTail := 0, sqHead := 0, cqHead := 0, phase := 1 }

/-- Where a call of `nvme_wait_completion` stands. -/
inductive Pc
  /-- no call is running -/
  | idle
  /-- at the top of the loop; `wanted` says whether `result` is not NULL -/
  | poll (timeout : Nat) (wanted : Bool)
  /-- the tag was right -/
  | copy (head : BitVec 16) (wanted : Bool)
  /-- the entry is copied -/
  | advance (head : BitVec 16) (result : Option Cqe)
  /-- the head is advanced, about to ring the doorbell -/
  | ring (result : Option Cqe)
deriving DecidableEq, Repr

/-- The queue of the driver, the entries in memory and the controller's side of the ring.
`posted` records the entries as the controller wrote them, `consumed` how often the driver
advanced its head, and `returned` what each call that returned 0 left in `result`. -/
structure System where
  queue : NvmeQueue
  entries : Nat → Cqe
  doorbell : BitVec 32
  pc : Pc
  tail : Nat
  tag : Bool
  posted : List Cqe
  consumed : Nat
  returned : List (Option Cqe)

def NvmeQueue.advanced (q : NvmeQueue) (head : BitVec 16) : NvmeQueue :=
  let cqHead := BitVec.ofNat 16 ((head.toNat + 1) % q.numEntries.toNat)
  { q with cqHead := cqHead, phase := if cqHead = 0 then q.phase ^^^ 1 else q.phase }

def advance (s : System) : Option System :=
  match s.pc with
  | .idle => none
  | .poll 0 _ => some { s with pc := .idle }
  | .poll (timeout + 1) wanted =>
    let head := s.queue.cqHead
    if (s.entries head.toNat).phase = s.queue.phase then some { s with pc := .copy head wanted }
    else some { s with pc := .poll timeout wanted }
  | .copy head wanted =>
    some { s with pc := .advance head (if wanted then some (s.entries head.toNat) else none) }
  | .advance head result =>
    some { s with
      queue := s.queue.advanced head
      pc := .ring result
      consumed := s.consumed + 1 }
  | .ring result =>
    some { s with
      doorbell := s.queue.cqHead.setWidth 32
      pc := .idle
      returned := s.returned ++ [result] }

def Cqe.tagged (e : Cqe) (tag : Bool) : Cqe :=
  { e with status := (e.status &&& ~~~0x0001#16) ||| (if tag then 1#16 else 0#16) }

/-- The controller writes a completion at its tail, and turns the tag where the ring wraps. -/
def post (s : System) (e : Cqe) : System :=
  let tail := (s.tail + 1) % s.queue.numEntries.toNat
  { s with
    entries := Function.update s.entries s.tail (e.tagged s.tag)
    tail := tail
    tag := if tail = 0 then !s.tag else s.tag
    posted := s.posted ++ [e.tagged s.tag] }

/-- What can happen; the controller does not overwrite an entry that is not consumed. -/
inductive Step (s : System) : System → Prop
  | call (wanted : Bool) : s.pc = .idle → Step s { s with pc := .poll 1000000 wanted }
  | advance (s' : System) : advance s = some s' → Step s s'
  | post (e : Cqe) : s.posted.length < s.consumed + s.queue.numEntries.toNat → Step s (post s e)

def initial (kmalloc : Nat → BitVec 64) (qid numEntries : BitVec 16) (doorbell : BitVec 32) :
    System where
  queue := nvmeQueueInit kmalloc qid numEntries
  entries := fun _ => Cqe.zero
  doorbell := doorbell
  pc := .idle
  tail := 0
  tag := true
  posted := []
  consumed := 0
  returned := []

def Reachable (n : BitVec 16) (s : System) : Prop :=
  ∃ kmalloc qid doorbell, kmalloc (safeEntries n * sizeofCqe) ≠ 0 ∧
    Relation.ReflTransGen Step (initial kmalloc qid n doorbell) s

end AuroraOS.Nvme
