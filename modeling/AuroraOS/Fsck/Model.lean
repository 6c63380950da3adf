import AuroraOS.Ext2.Mount

/-!
# The file system checker

Model of `kernel/fsck.c`.  Reads and writes of the device succeed within its bounds.  The
counters of `struct fsck_stats` are grouped by phase; they are far from their 32-bit limit.

What the checker takes from outside is the record `Env`: the bytes in memory behind a
buffer, which some reads reach, whether `kmalloc` has a number of bytes, and the contents of
the local superblock before it is set.  A run that has not ended within the fuel has no
result code.
-/

namespace AuroraOS.Fsck

open Lib Block Ext2 List

structure Env where
  behind : Store
  kmalloc : Nat → Bool
  uninit : Superblock

inductive Code
  | ok
  | warn
  | error
  | fatal
deriving DecidableEq, Repr

def fsckFlagFix : BitVec 32 := 0x01#32

structure Tally where
  checked : Nat := 0
  errors : Nat := 0
  fixed : Nat := 0
deriving DecidableEq, Repr

/-- `struct fsck_stats`, without the counters of orphans. -/
structure Stats where
  superblock : Tally := {}
  groups : Tally := {}
  inodes : Tally := {}
  blocks : Tally := {}
  dirs : Tally := {}
deriving DecidableEq, Repr

def Stats.totalErrors (st : Stats) : Nat :=
  st.superblock.errors + st.groups.errors + st.blocks.errors + st.inodes.errors + st.dirs.errors

def Stats.totalFixed (st : Stats) : Nat :=
  st.superblock.fixed + st.groups.fixed + st.blocks.fixed + st.inodes.fixed + st.dirs.fixed

/-! ## Helpers -/

def inMemory (env : Env) (size : Nat) (buf : Store) : Store :=
  fun i => if i < size then buf i else env.behind (i - size)

def readFsBlock (d : BlockDevice) (blockSize block : Nat) : Option Store :=
  readBlock d blockSize (block % 2 ^ 32)

def writeFsBlock (d : BlockDevice) (blockSize block : Nat) (buf : Store) : Option BlockDevice :=
  blockDevWrite d buf (block % 2 ^ 32 * (blockSize / d.blockSize)) (blockSize / d.blockSize)

/-! ## Backups of the superblock -/

def fsckReadSuperblock (d : BlockDevice) (group : Nat) : Option Store := do
  let primary ← blockDevRead d 2 2
  if group = 0 then
    if (Superblock.ofRaw primary).magic ≠ ext2SuperMagic then none else some primary
  else if (Superblock.ofRaw primary).magic ≠ ext2SuperMagic then none
  else do
    let sb := Superblock.ofRaw primary
    let backup ← blockDevRead d
      ((group * sb.blocksPerGroup * (sb.blockSize / d.blockSize) + 2) % 2 ^ 64) 2
    if (Superblock.ofRaw backup).magic ≠ ext2SuperMagic then none else some backup

def fsckRestoreSuperblock (d : BlockDevice) : Option BlockDevice :=
  [1, 3, 5, 7].findSome? fun group => do
    let backup ← fsckReadSuperblock d group
    if (Superblock.ofRaw backup).magic = ext2SuperMagic then blockDevWrite d backup 2 2 else none

/-! ## Superblock -/

inductive SuperCheck
  | failed
  /-- the superblock came from a backup, and the caller's variables are not set -/
  | restored
  | checked (sb : Superblock) (blockSize : Nat)
deriving DecidableEq, Repr

/-- The way out of `check_superblock` without a primary superblock. -/
def restorePath (d : BlockDevice) (fix : Bool) (t : Tally) : SuperCheck × BlockDevice × Tally :=
  let t := { t with errors := t.errors + 1 }
  if fix then
    match fsckRestoreSuperblock d with
    | none => (.failed, d, t)
    | some d =>
      let t := { t with fixed := t.fixed + 1 }
      match blockDevRead d 2 2 with
      | none => (.failed, d, t)
      | some _ => (.restored, d, t)
  else (.failed, d, t)

def markValid (raw : Store) : Store := leWrite raw 58 2 ext2ValidFs

/-- The two repairs of `s_state`.  The superblock goes to the block behind
`s_first_data_block`, a whole block of it. -/
def repairState (d : BlockDevice) (fix : Bool) (raw : Store) (t : Tally) :
    Store × BlockDevice × Tally :=
  let sb := Superblock.ofRaw raw
  let (raw, d, t) :=
    if sb.state ≠ ext2ValidFs ∧ sb.state ≠ ext2ErrorFs ∧ fix then
      match writeFsBlock d sb.blockSize (sb.firstDataBlock + 1) (markValid raw) with
      | some d => (markValid raw, d, { t with fixed := t.fixed + 1 })
      | none => (markValid raw, d, t)
    else (raw, d, t)
  if (Superblock.ofRaw raw).state = ext2ErrorFs ∧ fix then
    let written := writeFsBlock d sb.blockSize (sb.firstDataBlock + 1) (markValid raw)
    (markValid raw, written.getD d, { t with fixed := t.fixed + 1 })
  else (raw, d, t)

def checkSuperblock (env : Env) (d : BlockDevice) (fix : Bool) (t : Tally) :
    SuperCheck × BlockDevice × Tally :=
  let t := { t with checked := t.checked + 1 }
  match blockDevRead d 2 2 with
  | none => restorePath d fix t
  | some buf =>
    let raw := inMemory env 1024 buf
    let sb := Superblock.ofRaw raw
    if sb.magic ≠ ext2SuperMagic then restorePath d fix t
    else if sb.blockSize < 1024 ∨ sb.blockSize > 4096 then
      (.failed, d, { t with errors := t.errors + 1 })
    else if sb.blocksCount = 0 ∨ sb.inodesCount = 0 then
      (.failed, d, { t with errors := t.errors + 1 })
    else if sb.blocksPerGroup = 0 ∨ sb.inodesPerGroup = 0 then
      (.failed, d, { t with errors := t.errors + 1 })
    else
      let (raw, d, t) := repairState d fix raw t
      (.checked (Superblock.ofRaw raw) sb.blockSize, d, t)

/-! ## Group descriptors -/

def gdBlocks (sb : Superblock) (blockSize : Nat) : Nat :=
  (sb.numGroups + blockSize / 32 - 1) % 2 ^ 32 / (blockSize / 32)

def gdStart (sb : Superblock) : Nat := sb.firstDataBlock + 2

def descAt (buf : Store) (group : Nat) : GroupDesc := GroupDesc.ofRaw buf (group * 32 % 2 ^ 32)

def descErrors (sb : Superblock) (gd : GroupDesc) : Nat :=
  [gd.blockBitmap, gd.inodeBitmap, gd.inodeTable].countP fun block =>
    decide (block = 0 ∨ block ≥ sb.blocksCount)

def checkGroupDescriptors (env : Env) (d : BlockDevice) (sb : Superblock) (blockSize : Nat)
    (t : Tally) : Int × Tally :=
  let count := gdBlocks sb blockSize
  if count > (2 ^ 64 - 1) / blockSize then (-1, t)
  else if !env.kmalloc (count * blockSize % 2 ^ 32) then (-1, t)
  else
    let table := (range count).foldlM (fun gd i =>
      (readFsBlock d blockSize (gdStart sb + i)).map fun buf =>
        blit gd (i * blockSize % 2 ^ 32) blockSize buf)
      (inMemory env (count * blockSize % 2 ^ 32) fun _ => 0)
    match table with
    | none => (-1, t)
    | some gd => (0, (range sb.numGroups).foldl (fun t g =>
      { t with
        checked := t.checked + 1
        errors := t.errors + descErrors sb (descAt gd g) }) t)

/-! ## Bitmaps -/

def clearBits (bitmap : Store) (bits : Nat) : Nat :=
  (range bits).countP fun b => !(bitmap (b / 8)).toNat.testBit (b % 8)

/-- The number of items in a group: what is left for the last one. -/
def inGroup (sb : Superblock) (perGroup total g : Nat) : Nat :=
  if g = sb.numGroups - 1 then (total + 2 ^ 32 - g * perGroup % 2 ^ 32) % 2 ^ 32 else perGroup

def checkBitmap (env : Env) (d : BlockDevice) (blockSize block bits freeCount : Nat) (t : Tally) :
    Tally :=
  let t := { t with checked := t.checked + 1 }
  match readFsBlock d blockSize block with
  | none => t
  | some buf =>
    if clearBits (inMemory env blockSize buf) bits ≠ freeCount then
      { t with errors := t.errors + 1 }
    else t

/-- `check_bitmaps`, with the counters of the blocks and of the inodes.  A block of the
table that cannot be read is left as it is in the buffer. -/
def checkBitmaps (env : Env) (d : BlockDevice) (sb : Superblock) (blockSize : Nat)
    (blocks inodes : Tally) : Int × Tally × Tally :=
  let count := gdBlocks sb blockSize
  if count > (2 ^ 64 - 1) / blockSize then (-1, blocks, inodes)
  else if !(env.kmalloc (count * blockSize % 2 ^ 32) && env.kmalloc blockSize) then
    (-1, blocks, inodes)
  else
    let gd := (range count).foldl (fun gd i =>
      match readFsBlock d blockSize (gdStart sb + i) with
      | none => gd
      | some buf => blit gd (i * blockSize % 2 ^ 32) blockSize buf)
      (inMemory env (count * blockSize % 2 ^ 32) fun _ => 0)
    let done := (range sb.numGroups).foldl (fun t g =>
      let desc := descAt gd g
      (checkBitmap env d blockSize desc.blockBitmap
          (inGroup sb sb.blocksPerGroup sb.blocksCount g) desc.freeBlocksCount t.1,
        checkBitmap env d blockSize desc.inodeBitmap
          (inGroup sb sb.inodesPerGroup sb.inodesCount g) desc.freeInodesCount t.2))
      (blocks, inodes)
    (0, done.1, done.2)

/-! ## Directories -/

/-- What the loops of `check_directory` change: the buffer of the block, the offset in it
and in the directory, and the counters. -/
structure DirScan where
  buf : Store
  blockOff : Nat
  off : Nat
  tally : Tally

namespace DirScan

/-! The fields of the `struct ext2_dir_entry` at the offset. -/

variable (scan : DirScan)

def inode : Nat := leRead scan.buf scan.blockOff 4
def recLen : Nat := leRead scan.buf (scan.blockOff + 4) 2
def nameLen : UInt8 := scan.buf (scan.blockOff + 6)

def countChecked : DirScan :=
  { scan with tally := { scan.tally with checked := scan.tally.checked + 1 } }

def countError : DirScan :=
  { scan with tally := { scan.tally with errors := scan.tally.errors + 1 } }

def countFixed : DirScan :=
  { scan with tally := { scan.tally with fixed := scan.tally.fixed + 1 } }

/-- The check of the inode number; the repair changes the buffer only. -/
def checkInode (inodesCount : Nat) (fix : Bool) (scan : DirScan) : DirScan :=
  if scan.inode ≠ 0 ∧ scan.inode > inodesCount then
    if fix then { scan.countError with buf := leWrite scan.buf scan.blockOff 4 0 }.countFixed
    else scan.countError
  else scan

def checkName (fix : Bool) (scan : DirScan) : DirScan :=
  if scan.nameLen > 250 then
    if fix then { scan.countError with buf := leWrite scan.buf (scan.blockOff + 6) 1 0 }.countFixed
    else scan.countError
  else scan

def wraps : Bool :=
  decide (scan.recLen = 0 ∨ (scan.blockOff + scan.recLen) % 2 ^ 32 < scan.blockOff ∨
    (scan.off + scan.recLen) % 2 ^ 32 < scan.off)

def advance : DirScan :=
  { scan with blockOff := scan.blockOff + scan.recLen, off := scan.off + scan.recLen }

end DirScan

def checkEntry (inodesCount : Nat) (fix : Bool) (scan : DirScan) : DirScan :=
  (scan.countChecked.checkInode inodesCount fix).checkName fix

/-- The loop over the entries of one block.  Each round moves on by at least one byte, so
that a block has at most as many rounds as bytes. -/
def entryLoop (inodesCount blockSize : Nat) (fix : Bool) : Nat → DirScan → DirScan
  | 0, scan => scan
  | left + 1, scan =>
    if scan.blockOff < blockSize then
      if scan.inode = 0 ∧ scan.recLen = 0 then scan
      else if scan.recLen = 0 then scan.countError
      else
        let scan := checkEntry inodesCount fix scan
        if scan.wraps then scan else entryLoop inodesCount blockSize fix left scan.advance
    else scan

def ext2NdirBlocks : Nat := 12

/-- The loop over the blocks of a directory; `inode` is the raw inode. -/
def blockLoop (env : Env) (d : BlockDevice) (inodesCount blockSize : Nat) (inode : Store)
    (fix : Bool) : Nat → Nat → Tally → Option Tally
  | 0, _, _ => none
  | fuel + 1, off, t =>
    if off < leRead inode 4 4 ∧ off < blockSize * ext2NdirBlocks then
      let block := leRead inode (40 + 4 * (off / blockSize)) 4
      if block = 0 then some t
      else
        match readFsBlock d blockSize block with
        | none => some { t with errors := t.errors + 1 }
        | some buf =>
          let scan := entryLoop inodesCount blockSize fix blockSize
            { buf := inMemory env blockSize buf, blockOff := off % blockSize, off := off,
              tally := t }
          blockLoop env d inodesCount blockSize inode fix fuel scan.off scan.tally
    else some t

def checkDirectory (env : Env) (fuel : Nat) (d : BlockDevice) (sb : Superblock)
    (blockSize inum : Nat) (fix : Bool) (t : Tally) : Option (Int × Tally) :=
  let group := (inum - 1) / sb.inodesPerGroup
  let index := (inum - 1) % sb.inodesPerGroup
  let perBlock := blockSize / 32
  if !env.kmalloc blockSize then some (-1, t)
  else
    match readFsBlock d blockSize (gdStart sb + group / perBlock) with
    | none => some (-1, { t with errors := t.errors + 1 })
    | some gdBuf =>
      let gd := descAt gdBuf (group % perBlock)
      let position := index * sb.inodeSize % 2 ^ 32
      match readFsBlock d blockSize (gd.inodeTable + position / blockSize) with
      | none => some (-1, { t with errors := t.errors + 1 })
      | some table =>
        let buf := inMemory env blockSize table
        let inode : Store := fun i => buf (position % blockSize + i)
        if leRead inode 0 2 &&& ext2SIfdir = 0 then some (0, t)
        else (blockLoop env d sb.inodesCount blockSize inode fix fuel 0 t).map fun t => (0, t)

/-! ## The run -/

/-- The phases behind the superblock; `none` while the directory check goes on. -/
def phases (env : Env) (fuel : Nat) (d : BlockDevice) (sb : Superblock) (blockSize : Nat)
    (fix : Bool) (st : Stats) : Option Stats :=
  let groups := (checkGroupDescriptors env d sb blockSize st.groups).2
  let bitmaps := (checkBitmaps env d sb blockSize st.blocks st.inodes).2
  (checkDirectory env fuel d sb blockSize 2 fix st.dirs).map fun dirs =>
    { st with groups := groups, blocks := bitmaps.1, inodes := bitmaps.2, dirs := dirs.2 }

def Stats.code (st : Stats) : Code :=
  if st.totalErrors = 0 then .ok
  else if st.totalErrors = st.totalFixed then .warn
  else .error

def fsckRun (env : Env) (fuel : Nat) (d : BlockDevice) (flags : BitVec 32) (st : Stats) :
    Option Code × BlockDevice × Stats :=
  let fix := flags &&& fsckFlagFix != 0
  let (check, d, t) := checkSuperblock env d fix st.superblock
  let st := { st with superblock := t }
  let finish (sb : Superblock) (blockSize : Nat) : Option Code × BlockDevice × Stats :=
    match phases env fuel d sb blockSize fix st with
    | none => (none, d, st)
    | some st => (some st.code, d, st)
  match check with
  | .failed => (some .fatal, d, st)
  | .restored => finish env.uninit 1024
  | .checked sb blockSize => finish sb blockSize

end AuroraOS.Fsck
