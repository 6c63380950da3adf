import Mathlib.Logic.Function.Basic

/-!
# Virtqueues

Model of `virtq_init`, `virtq_add_descriptor`, `virtq_add_chain`, `virtq_kick` and
`virtq_get_buf` of `kernel/virtio_blk.c`, beside a device that takes the chains submitted to
it and completes them in any order.
-/

namespace AuroraOS.Virtio

open Function

/-- `VIRTIO_VQ_MAX_SIZE`. -/
def virtioVqMaxSize : Nat := 256

/-- `VIRTQ_DESC_F_NEXT`. -/
def virtqDescFNext : BitVec 16 := 0x01

/-- `struct virtq_desc`. -/
structure VirtqDesc where
  addr : BitVec 64
  len : BitVec 32
  flags : BitVec 16
  next : BitVec 16
deriving DecidableEq, Repr

/-- `struct virtq_used_elem`. -/
structure VirtqUsedElem where
  id : BitVec 32
  len : BitVec 32
deriving DecidableEq, Repr

/-- `struct virtq` with the rings it points to. -/
structure Virtq where
  num : Nat
  freeHead : Nat
  lastUsedIdx : BitVec 16
  queueIndex : BitVec 16
  desc : Nat → VirtqDesc
  availIdx : BitVec 16
  availRing : Nat → BitVec 16
  usedIdx : BitVec 16
  usedRing : Nat → VirtqUsedElem

/-- `virtq_init`, where `kmalloc` has memory for the table and for the rings.  On a queue of size 0
the loop runs up to `queue_size - 1`, which wraps, and writes behind the table. -/
def virtqInit (queueSize : Nat) (allocated : Bool) : Option Virtq :=
  let queueSize := if queueSize > virtioVqMaxSize then virtioVqMaxSize else queueSize
  if !allocated || queueSize == 0 then none
  else some {
    num := queueSize
    freeHead := 0
    lastUsedIdx := 0
    queueIndex := 0
    desc := fun i => ⟨0, 0, 0, if i < queueSize - 1 then BitVec.ofNat 16 (i + 1) else 0⟩
    availIdx := 0
    availRing := fun _ => 0
    usedIdx := 0
    usedRing := fun _ => ⟨0, 0⟩ }

/-- The arguments of `virtq_add_descriptor`. -/
structure Buffer where
  addr : BitVec 64
  len : BitVec 32
  flags : BitVec 16
deriving DecidableEq, Repr

variable (vq : Virtq)

/-- `virtq_add_descriptor`; `none` is -1. -/
def virtqAddDescriptor (buf : Buffer) : Option Nat × Virtq :=
  if vq.freeHead ≥ vq.num then (none, vq)
  else
    let idx := vq.freeHead
    (some idx, { vq with
      freeHead := (vq.desc idx).next.toNat
      desc := update vq.desc idx ⟨buf.addr, buf.len, buf.flags, 0⟩ })

/-- The descriptor `prev` leads to `idx`. -/
def linkDesc (prev idx : Nat) : Virtq :=
  let d := vq.desc prev
  { vq with
    desc := update vq.desc prev
      { d with flags := d.flags ||| virtqDescFNext, next := BitVec.ofNat 16 idx } }

/-- The loop of `virtq_add_chain`. -/
def chainLoop : List Buffer → List Nat → Virtq → Bool × List Nat × Virtq
  | [], taken, vq => (true, taken, vq)
  | buf :: rest, taken, vq =>
    match virtqAddDescriptor vq buf with
    | (none, vq) => (false, taken, vq)
    | (some idx, vq) =>
      let vq := match taken.getLast? with
        | some prev => linkDesc vq prev idx
        | none => vq
      chainLoop rest (taken ++ [idx]) vq

/-- `virtq_add_chain`: the first descriptor, or `none` for -1, and all that were taken. -/
def virtqAddChain (bufs : List Buffer) : Option Nat × List Nat × Virtq :=
  if bufs.length = 0 then (none, [], vq)
  else
    let (done, taken, vq) := chainLoop bufs [] vq
    (if done then taken.head? else none, taken, vq)

/-- `virtq_kick` without the write to the device. -/
def virtqKick (head : BitVec 16) : Virtq :=
  { vq with
    availRing := update vq.availRing (vq.availIdx.toNat % vq.num) head
    availIdx := vq.availIdx + 1 }

/-- `virtq_get_buf`: the descriptor, or `none` for -1, and what is left in `len`. -/
def virtqGetBuf : Option Nat × Option (BitVec 32) × Virtq :=
  if vq.lastUsedIdx = vq.usedIdx then (none, none, vq)
  else
    let elem := vq.usedRing (vq.lastUsedIdx.toNat % vq.num)
    if elem.id.toNat ≥ vq.num then (none, some elem.len, vq)
    else
      let descId := elem.id.toNat
      (some descId, some elem.len, { vq with
        desc := update vq.desc descId
          { vq.desc descId with next := BitVec.ofNat 16 vq.freeHead }
        freeHead := descId
        lastUsedIdx := vq.lastUsedIdx + 1 })

/-- The device puts a chain in the used ring. -/
def deviceComplete (head : Nat) (len : BitVec 32) : Virtq :=
  { vq with
    usedRing := update vq.usedRing (vq.usedIdx.toNat % vq.num) ⟨BitVec.ofNat 32 head, len⟩
    usedIdx := vq.usedIdx + 1 }

/-! ## The driver and the device -/

/-- A queue and its chains: those that are built, those submitted to the device, those the
device has completed and the driver has not fetched yet, and the descriptors of chains that
could not be built. -/
structure System where
  vq : Virtq
  built : List (List Nat)
  flying : List (List Nat)
  done : List (List Nat)
  lost : List Nat

/-- What the driver and the device do. -/
inductive Op
  | addChain (bufs : List Buffer)
  | kick (chain : List Nat)
  | complete (chain : List Nat) (len : BitVec 32)
  | getBuf
deriving DecidableEq, Repr

/-- One step; the driver submits each chain that it has built once, and the device
completes each chain that it has got once. -/
def exec (s : System) : Op → Option System
  | .addChain bufs =>
    match virtqAddChain s.vq bufs with
    | (some _, taken, vq) => some { s with vq := vq, built := taken :: s.built }
    | (none, taken, vq) => some { s with vq := vq, lost := taken ++ s.lost }
  | .kick chain =>
    match chain with
    | [] => none
    | head :: _ =>
      if chain ∈ s.built then
        some { s with
          vq := virtqKick s.vq (BitVec.ofNat 16 head)
          built := s.built.erase chain
          flying := chain :: s.flying }
      else none
  | .complete chain len =>
    match chain with
    | [] => none
    | head :: _ =>
      if chain ∈ s.flying then
        some { s with
          vq := deviceComplete s.vq head len
          flying := s.flying.erase chain
          done := s.done ++ [chain] }
      else none
  | .getBuf =>
    match virtqGetBuf s.vq with
    | (none, _, vq) => some { s with vq := vq }
    | (some _, _, vq) => some { s with vq := vq, done := s.done.tail }

/-- No chain is under way. -/
def start : System := ⟨vq, [], [], [], []⟩

/-- The descriptors that `n` calls hand out. -/
def handOut : Nat → Virtq → List Nat
  | 0, _ => []
  | n + 1, vq =>
    match virtqAddDescriptor vq ⟨0, 0, 0⟩ with
    | (none, _) => []
    | (some idx, vq) => idx :: handOut n vq

/-- Some number of calls hands the descriptor out. -/
def Available (d : Nat) : Prop := ∃ n, d ∈ handOut n vq

end AuroraOS.Virtio
