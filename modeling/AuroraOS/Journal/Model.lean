import AuroraOS.Block.Device

/-!
# The write-ahead journal

Model of `kernel/journal.c`.  The handle `g_journal` and the flag
`g_journal_initialized` are the record `Handle`; the device is part of it.  A
transaction is the list of its target blocks and data.  Every `kmalloc` is taken to succeed: the
paths after a failed one are left out.

Return codes are kept as `Int`s.  Positions are 64-bit, and the checkpoint's sector
is the 32-bit product the source computes.
-/

namespace AuroraOS.Journal

open Lib Block

def journalMagicSb : Nat := 0x4A524E4C
def journalMagicDesc : Nat := 0x5452414E
def journalMagicCommit : Nat := 0x434F4D54

structure Handle where
  bdev : BlockDevice
  blockSize : Nat
  journalStart : Nat
  journalBlocks : Nat
  fsTotalBlocks : Nat
  head : Nat := 0
  tail : Nat := 0
  sequence : Nat := 0
  inTransaction : Bool := false
  txnCapacity : Nat := 0
  /-- `txn_fs_blocks` and `txn_data`, `txn_blocks` entries -/
  txn : List (Nat × Store) := []
  dirty : Bool := false
  initialized : Bool := false

/-! ## Internal helpers -/

def calcChecksum (data : Store) (len : Nat) : Nat :=
  (List.range len).foldl
    (fun sum i => ((sum * 2) % 2 ^ 32 ||| sum / 2 ^ 31) ^^^ (data i).toNat) 0

variable (j : Handle)

def journalToDevice (offset : Nat) : Nat := (j.journalStart + offset) % 2 ^ 64

def sectorsPerBlock : Nat := j.blockSize / j.bdev.blockSize

def journalWriteBlock (offset : Nat) (data : Store) : Option Handle :=
  let sector := journalToDevice j offset * sectorsPerBlock j % 2 ^ 64
  (blockDevWrite j.bdev data sector (sectorsPerBlock j)).map fun d => { j with bdev := d }

def journalReadBlock (offset : Nat) : Option Store :=
  let sector := journalToDevice j offset * sectorsPerBlock j % 2 ^ 64
  blockDevRead j.bdev sector (sectorsPerBlock j)

def superblock : Store :=
  let b : Store := fun _ => 0
  let b := leWrite b 0 4 journalMagicSb
  let b := leWrite b 4 4 j.blockSize
  let b := leWrite b 12 8 j.journalStart
  let b := leWrite b 20 8 j.journalBlocks
  let b := leWrite b 28 8 j.head
  let b := leWrite b 36 8 j.tail
  let b := leWrite b 44 8 j.sequence
  let b := leWrite b 52 4 (if j.dirty then 1 else 0)
  leWrite b 56 4 (calcChecksum b 56)

def writeJsb : Int × Handle :=
  match journalWriteBlock j 0 (superblock j) with
  | none => (-1, j)
  | some j => (0, j)

def freeTransaction : Handle :=
  { j with txn := [], txnCapacity := 0, inTransaction := false }

/-- The blocks of the oldest transaction, counted in 32 bits: descriptor, data and commit. -/
def oldestBlocks : Nat :=
  match journalReadBlock j j.tail with
  | some buf =>
    if leRead buf 0 4 = journalMagicDesc then (1 + leRead buf 12 4 + 1) % 2 ^ 32 else 1
  | none => 1

def evictTail : Nat → Handle → Option Handle
  | 0, _ => none
  | fuel + 1, j =>
    let usable := j.journalBlocks - 1
    if j.head ≥ (j.tail + usable) % 2 ^ 64 then
      evictTail fuel { j with tail := (j.tail + oldestBlocks j) % 2 ^ 64 }
    else some j

def advanceHead (n fuel : Nat) : Option Handle := do
  let j ← evictTail fuel { j with head := (j.head + n) % 2 ^ 64 }
  let j :=
    if j.head ≥ j.journalBlocks then
      let j := { j with head := j.head - j.journalBlocks }
      if j.tail ≥ j.journalBlocks then { j with tail := j.tail - j.journalBlocks } else j
    else j
  some (writeJsb j).2

/-! ## Recovery -/

def replayBlock (pos : Nat) (desc : Store) (j : Handle) (i : Nat) : Handle :=
  let fsBlock := leRead desc (36 + 20 * i) 8
  if j.fsTotalBlocks > 0 ∧ fsBlock ≥ j.fsTotalBlocks then j
  else
    match journalReadBlock j (pos + 1 + i) with
    | none => j
    | some dataBuf =>
      if calcChecksum dataBuf j.blockSize = leRead desc (36 + 20 * i + 8) 4 then
        let sector := fsBlock * sectorsPerBlock j % 2 ^ 64
        match blockDevWrite j.bdev dataBuf sector (sectorsPerBlock j) with
        | none => j
        | some d => { j with bdev := d }
      else j

/-- The scan of `journal_recover` from `pos` to `end`.  Every turn moves `pos`
forward, so `end - pos` turns are enough. -/
def recoverLoop (endPos : Nat) : Nat → Nat → Handle → Handle
  | 0, _, j => j
  | fuel + 1, pos, j =>
    if pos < endPos then
      match journalReadBlock j pos with
      | none => j
      | some hdr =>
        if leRead hdr 0 4 ≠ journalMagicDesc then recoverLoop endPos fuel (pos + 1) j
        else
          let commitPos := pos + 1 + leRead hdr 12 4
          if commitPos ≥ endPos then j
          else
            match journalReadBlock j commitPos with
            | none => j
            | some cmt =>
              -- `hdr` and `cmt` point into the same buffer, which now holds the
              -- commit block: the two sequence numbers are the same bytes
              if leRead cmt 0 4 ≠ journalMagicCommit ∨ leRead cmt 4 8 ≠ leRead cmt 4 8 then
                recoverLoop endPos fuel (commitPos + 1) j
              else
                match journalReadBlock j pos with
                | none => j
                | some desc =>
                  let j := (List.range (leRead desc 12 4)).foldl (replayBlock pos desc) j
                  recoverLoop endPos fuel (commitPos + 1) j
    else j

def journalRecover : Int × Handle :=
  if !j.initialized then (-1, j)
  else
    let j := recoverLoop j.head (j.head - j.tail) j.tail j
    let j := { j with tail := j.head, dirty := false }
    (0, (writeJsb j).2)

/-! ## Public interface -/

/-- The arguments of `journal_init` besides the device. -/
structure Geometry where
  journalStart : Nat
  journalBlocks : Nat
  blockSize : Nat
  fsTotalBlocks : Nat
deriving DecidableEq, Repr

def emptyHandle (initialized : Bool) (bdev : BlockDevice) (g : Geometry) : Handle :=
  { bdev := bdev, blockSize := g.blockSize, journalStart := g.journalStart,
    journalBlocks := g.journalBlocks, fsTotalBlocks := g.fsTotalBlocks,
    initialized := initialized }

/-- `journal_init`; `initialized` is the flag as the call finds it, false after a boot.
The flag is set only on success. -/
def journalInit (initialized : Bool) (bdev : BlockDevice) (g : Geometry) : Int × Handle :=
  let j := emptyHandle initialized bdev g
  if g.journalBlocks < 8 ∨ g.blockSize < 512 then (-1, j)
  else
    match journalReadBlock j 0 with
    | some buf =>
      if leRead buf 0 4 = journalMagicSb then
        let j :=
          { j with
            head := leRead buf 28 8
            tail := leRead buf 36 8
            sequence := leRead buf 44 8
            dirty := decide (leRead buf 52 4 ≠ 0) }
        if j.dirty then
          match journalRecover j with
          | (ret, j) => if ret < 0 then (-1, j) else (0, { j with initialized := true })
        else (0, { j with initialized := true })
      else journalCreate j
    | none => journalCreate j
where
  /-- No superblock was found: write a new one. -/
  journalCreate (j : Handle) : Int × Handle :=
    let j := { j with head := 1, tail := 1, sequence := 1, dirty := false }
    match writeJsb j with
    | (ret, j) => if ret < 0 then (-1, j) else (0, { j with initialized := true })

def journalBegin (maxBlocks : Nat) : Int × Handle :=
  if !j.initialized then (-1, j)
  else if j.inTransaction then (-1, j)
  else
    let maxBlocks := if maxBlocks = 0 then 1 else maxBlocks
    let descCapacity := (j.blockSize - 36) / 20
    let maxBlocks := if maxBlocks > descCapacity then descCapacity else maxBlocks
    (0, { j with inTransaction := true, txn := [], txnCapacity := maxBlocks })

/-- `journal_write`: the target block is cut to 32 bits. -/
def journalWrite (fsBlock : Nat) (data : Store) : Int × Handle :=
  if !j.initialized || !j.inTransaction then (-1, j)
  else if j.txn.length ≥ j.txnCapacity then (-1, j)
  else (0, { j with txn := j.txn ++ [(fsBlock % 2 ^ 32, data)] })

def descriptor (seq : Nat) : Store :=
  let b : Store := fun _ => 0
  let b := leWrite b 0 4 journalMagicDesc
  let b := leWrite b 4 8 seq
  let b := leWrite b 12 4 j.txn.length
  let b := j.txn.zipIdx.foldl
    (fun b (entry, i) =>
      let b := leWrite b (36 + 20 * i) 8 entry.1
      leWrite b (36 + 20 * i + 8) 4 (calcChecksum entry.2 j.blockSize)) b
  leWrite b 16 4 (calcChecksum b 32)

/-- The commit block: a `struct journal_commit_record` of 32 bytes on the stack, of
which a whole block is written; `stack` is what follows it there. -/
def commitRecord (seq : Nat) (stack : Store) : Store :=
  let b : Store := fun i => if i < 32 then 0 else stack i
  let b := leWrite b 0 4 journalMagicCommit
  let b := leWrite b 4 8 seq
  leWrite b 12 4 (calcChecksum b 28)

def writeDataBlocks (j : Handle) (pos : Nat) : List (Nat × Store) → Bool × Handle
  | [] => (true, j)
  | (_, data) :: rest =>
    match journalWriteBlock j pos data with
    | none => (false, j)
    | some j => writeDataBlocks j (pos + 1) rest

def writeLog (desc commit : Store) : Bool × Handle :=
  match journalWriteBlock j j.head desc with
  | none => (false, j)
  | some j =>
    match writeDataBlocks j (j.head + 1) j.txn with
    | (false, j) => (false, j)
    | (true, j) =>
      match journalWriteBlock j (j.head + 1 + j.txn.length) commit with
      | none => (false, j)
      | some j => (true, j)

def checkpoint (j : Handle) : List (Nat × Store) → Bool × Handle
  | [] => (true, j)
  | (fsBlock, data) :: rest =>
    let sector := fsBlock * sectorsPerBlock j % 2 ^ 32
    match blockDevWrite j.bdev data sector (sectorsPerBlock j) with
    | none => (false, j)
    | some d => checkpoint { j with bdev := d } rest

/-- Phases 1 to 5 of a commit; `none` is an eviction loop that has not ended. -/
def commitPhases (desc commit : Store) (fuel : Nat) : Option (Int × Handle) :=
  match writeLog j desc commit with
  | (false, j) => some (-1, freeTransaction j)
  | (true, j) =>
    match checkpoint j j.txn with
    | (false, j) => some (-1, freeTransaction j)
    | (true, j) =>
      (advanceHead j (1 + j.txn.length + 1) fuel).map fun j =>
        (0, freeTransaction (writeJsb { j with dirty := false }).2)

def journalCommit (stack : Store) (fuel : Nat) : Option (Int × Handle) :=
  if !j.initialized || !j.inTransaction then some (-1, j)
  else if j.txn.length = 0 then some (0, freeTransaction j)
  else
    let seq := j.sequence
    let j := { j with sequence := (j.sequence + 1) % 2 ^ 64 }
    let desc := descriptor j seq
    let j := (writeJsb { j with dirty := true }).2
    commitPhases j desc (commitRecord seq stack) fuel

def journalRollback : Int × Handle :=
  if !j.initialized || !j.inTransaction then (-1, j) else (0, freeTransaction j)

end AuroraOS.Journal
