import AuroraOS.Lib.Bytes
import AuroraOS.Lib.Ring

/-!
# Anonymous pipes

Model of `pipe_read`, `pipe_write` and `pipe_close` of `kernel/pipe.c`.  The sections a call runs
under `ring->lock` are atomic; between them the call stands at a `Phase`, and other code may run and
change the memory of its caller.

`accepted` and `delivered` record the bytes copied from writers and to readers, in this order.
-/

namespace AuroraOS.Pipe

open Lib Function

def pipeBufSize : Nat := 4096

/-- A context that makes calls; `current` is its task, if it has one. -/
abbrev Tid := Nat

inductive TaskState where
  | ready
  | running
  | blocked
deriving DecidableEq

inductive Errno where
  | eintr
  | epipe
deriving DecidableEq

/-- `struct pipe_ring`; positions and count are of type `uint32_t`. -/
structure PipeRing where
  buf : Store
  head : Nat
  tail : Nat
  count : Nat
  readOpen : Bool
  writeOpen : Bool
  blockedReader : Option Tid
  blockedWriter : Option Tid

def sub32 (a b : Nat) : Nat := (a + 2 ^ 32 - b % 2 ^ 32) % 2 ^ 32

inductive Phase where
  | idle
  /-- About to take the lock at the top of the loop of `pipe_read`. -/
  | readLock (buf count : Nat)
  /-- Found the ring empty and released the lock. -/
  | readWait (buf count : Nat)
  /-- Interrupted, about to take back `blocked_reader`. -/
  | readIntr
  /-- About to mark itself as blocked and call `schedule`. -/
  | readBlock (buf count : Nat)
  | readSleep (buf count : Nat)
  /-- About to check that the read end is open. -/
  | writeStart (src count : Nat)
  /-- About to take the lock at the top of the inner loop of `pipe_write`. -/
  | writeLock (src count total : Nat)
  /-- Found the ring full and released the lock. -/
  | writeWait (src count total : Nat)
  /-- About to take the lock to set `blocked_writer`. -/
  | writeMark (src count total : Nat)
  | writeBlock (src count total : Nat)
  | writeSleep (src count total : Nat)
  | returned (value : Int)
  /-- Dereferenced a null `current`. -/
  | fault
deriving DecidableEq

structure System where
  ring : PipeRing
  mem : Store
  phase : Tid → Phase
  /-- Whether `current` is a task in this context. -/
  isTask : Tid → Bool
  state : Tid → TaskState
  /-- `current->sig && current->sig->pending`. -/
  pending : Tid → Bool
  errno : Tid → Option Errno
  accepted : List UInt8
  delivered : List UInt8

namespace System

variable (s : System) (t : Tid)

def current : Option Tid := if s.isTask t then some t else none

def goto (p : Phase) : System := { s with phase := update s.phase t p }

def fail (e : Errno) : System :=
  { s with
    phase := update s.phase t (.returned (-1))
    errno := update s.errno t (some e) }

/-- `current->state = TASK_BLOCKED` before the call of `schedule`. -/
def block (p : Phase) : System :=
  { s with
    phase := update s.phase t p
    state := update s.state t .blocked }

/-- The call of `schedule` returns once another task has made this one ready. -/
def resume (p : Phase) : Option System :=
  if s.state t = .ready then
    some { s with
      phase := update s.phase t p
      state := update s.state t .running }
  else none

def wake (target : Option Tid) : (Tid → TaskState) × Bool :=
  match target with
  | some u =>
    if s.state u = .blocked then (update s.state u .ready, true) else (s.state, false)
  | none => (s.state, false)

end System

variable (s : System)

/-- The part of `pipe_read` after its loop, up to the release of the lock. -/
def readCopy (t : Tid) (buf count : Nat) : System :=
  let ring := s.ring
  let toread := if ring.count < count then ring.count else count
  let chunk := sub32 pipeBufSize ring.head
  let firstChunk := if toread < chunk then toread else chunk
  let mem := blit s.mem buf firstChunk fun i => ring.buf (ring.head + i)
  let mem :=
    if firstChunk < toread then blit mem (buf + firstChunk) (toread - firstChunk) ring.buf else mem
  let woken := s.wake ring.blockedWriter
  { s with
    ring := { ring with
      head := (ring.head + toread) % pipeBufSize
      count := sub32 ring.count toread
      blockedWriter := if woken.2 then none else ring.blockedWriter }
    mem := mem
    state := woken.1
    phase := update s.phase t (.returned toread)
    delivered := s.delivered ++ slice mem buf toread }

/-- One turn of the loop of `pipe_read` under the lock. -/
def readTurn (t : Tid) (buf count : Nat) : System :=
  if 0 < s.ring.count then readCopy s t buf count
  else if !s.ring.writeOpen then s.goto t (.returned 0)
  else
    { s with
      ring := { s.ring with blockedReader := s.current t }
      phase := update s.phase t (.readWait buf count) }

def writeNext (src count total : Nat) : Phase :=
  if total < count then .writeLock src count total else .returned total

/-- The body of the loop of `pipe_write` after the inner loop, up to the release of the lock. -/
def writeCopy (t : Tid) (src count total : Nat) : System :=
  let ring := s.ring
  let space := sub32 pipeBufSize ring.count
  let towrite := if space < count - total then space else count - total
  let chunk := sub32 pipeBufSize ring.tail
  let firstChunk := if towrite < chunk then towrite else chunk
  let buf := blit ring.buf ring.tail firstChunk fun i => s.mem (src + total + i)
  let buf :=
    if firstChunk < towrite then
      blit buf 0 (towrite - firstChunk) fun i => s.mem (src + total + firstChunk + i)
    else buf
  let woken := s.wake ring.blockedReader
  { s with
    ring := { ring with
      buf := buf
      tail := (ring.tail + towrite) % pipeBufSize
      count := (ring.count + towrite) % 2 ^ 32
      blockedReader := if woken.2 then none else ring.blockedReader }
    state := woken.1
    phase := update s.phase t (writeNext src count (total + towrite))
    accepted := s.accepted ++ slice s.mem (src + total) towrite }

def writeTurn (t : Tid) (src count total : Nat) : System :=
  if s.ring.count < pipeBufSize then writeCopy s t src count total
  else if !s.ring.readOpen then
    if s.isTask t then s.fail t .epipe else s.goto t .fault
  else s.goto t (.writeWait src count total)

def advance (t : Tid) : Option System :=
  match s.phase t with
  | .idle | .returned _ | .fault => none
  | .readLock buf count => some (readTurn s t buf count)
  | .readWait buf count =>
    if !s.isTask t then some (s.goto t (.returned (-1)))
    else if s.pending t then some (s.goto t .readIntr)
    else some (s.goto t (.readBlock buf count))
  | .readIntr =>
    let reader := if s.ring.blockedReader = s.current t then none else s.ring.blockedReader
    some ({ s with ring := { s.ring with blockedReader := reader } }.fail t .eintr)
  | .readBlock buf count => some (s.block t (.readSleep buf count))
  | .readSleep buf count => s.resume t (.readLock buf count)
  | .writeStart src count =>
    if !s.ring.readOpen then some (s.goto t (.returned (-1)))
    else some (s.goto t (writeNext src count 0))
  | .writeLock src count total => some (writeTurn s t src count total)
  | .writeWait src count total =>
    if !s.isTask t then some (s.goto t (.returned (-1)))
    else if s.pending t then some (s.fail t .eintr)
    else some (s.goto t (.writeMark src count total))
  | .writeMark src count total =>
    some ({ s with ring := { s.ring with blockedWriter := s.current t } }.goto t
      (.writeBlock src count total))
  | .writeBlock src count total => some (s.block t (.writeSleep src count total))
  | .writeSleep src count total => s.resume t (.writeLock src count total)

/-- The two ends; `pipe_close` tells them apart by the operations of the inode. -/
inductive End where
  | read
  | write
deriving DecidableEq

def pipeClose (ring : PipeRing) (side : End) : Option PipeRing :=
  let ring := match side with
    | .read => { ring with readOpen := false }
    | .write => { ring with writeOpen := false }
  if !ring.readOpen && !ring.writeOpen then none else some ring

def Phase.isDone : Phase → Bool
  | .idle | .returned _ => true
  | _ => false

inductive Step (s : System) : System → Prop
  | read (t : Tid) (buf count : Nat) : (s.phase t).isDone →
    Step s (s.goto t (.readLock buf count))
  | write (t : Tid) (src count : Nat) : (s.phase t).isDone →
    Step s (s.goto t (.writeStart src count))
  | advance (t : Tid) (s' : System) : advance s t = some s' → Step s s'
  | close (side : End) (ring : PipeRing) : pipeClose s.ring side = some ring →
    Step s { s with ring := ring }
  /-- Other code: it does not touch the ring. -/
  | other (mem : Store) (state : Tid → TaskState) (pending : Tid → Bool) :
    Step s { s with mem := mem, state := state, pending := pending }

def newRing : PipeRing where
  buf := fun _ => 0
  head := 0
  tail := 0
  count := 0
  readOpen := true
  writeOpen := true
  blockedReader := none
  blockedWriter := none

def initial (mem : Store) (isTask : Tid → Bool) (state : Tid → TaskState) (pending : Tid → Bool)
    (errno : Tid → Option Errno) : System where
  ring := newRing
  mem := mem
  phase := fun _ => .idle
  isTask := isTask
  state := state
  pending := pending
  errno := errno
  accepted := []
  delivered := []

def Reachable : Prop :=
  ∃ mem isTask state pending errno,
    Relation.ReflTransGen Step (initial mem isTask state pending errno) s

end AuroraOS.Pipe
