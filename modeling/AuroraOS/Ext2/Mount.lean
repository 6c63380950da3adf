import AuroraOS.Block.Device

/-!
# Mounting an ext2 volume

Model of `ext2_mount` of `kernel/ext2.c` and of the reads below it.  Kernel memory is taken
to suffice.  Block numbers and sizes are 32-bit; the shift by `s_log_block_size` is the one
of the processor, which takes the count modulo 32.
-/

namespace AuroraOS.Ext2

open Lib Block

/-- `EXT2_SUPER_MAGIC`. -/
def ext2SuperMagic : Nat := 0xEF53
/-- `EXT2_VALID_FS`. -/
def ext2ValidFs : Nat := 1
/-- `EXT2_ERROR_FS`. -/
def ext2ErrorFs : Nat := 2
/-- `EXT2_S_IFDIR`. -/
def ext2SIfdir : Nat := 0x4000

/-! ## On-disk structures -/

/-- The fields of `struct ext2_superblock` that are read. -/
structure Superblock where
  inodesCount : Nat
  blocksCount : Nat
  firstDataBlock : Nat
  logBlockSize : Nat
  blocksPerGroup : Nat
  inodesPerGroup : Nat
  magic : Nat
  state : Nat
  inodeSize : Nat
deriving DecidableEq, Repr

/-- The superblock in the bytes that were read. -/
def Superblock.ofRaw (raw : Store) : Superblock where
  inodesCount := leRead raw 0 4
  blocksCount := leRead raw 4 4
  firstDataBlock := leRead raw 20 4
  logBlockSize := leRead raw 24 4
  blocksPerGroup := leRead raw 32 4
  inodesPerGroup := leRead raw 40 4
  magic := leRead raw 56 2
  state := leRead raw 58 2
  inodeSize := leRead raw 88 2

/-- `1024 << s_log_block_size`. -/
def Superblock.blockSize (sb : Superblock) : Nat := 1024 * 2 ^ (sb.logBlockSize % 32) % 2 ^ 32

/-- The number of block groups, rounded up. -/
def Superblock.numGroups (sb : Superblock) : Nat :=
  (sb.blocksCount + sb.blocksPerGroup - 1) % 2 ^ 32 / sb.blocksPerGroup

/-- `struct ext2_group_desc`. -/
structure GroupDesc where
  blockBitmap : Nat
  inodeBitmap : Nat
  inodeTable : Nat
  freeBlocksCount : Nat
  freeInodesCount : Nat
deriving DecidableEq, Repr

/-- The descriptor at the offset `off` of the table. -/
def GroupDesc.ofRaw (raw : Store) (off : Nat) : GroupDesc where
  blockBitmap := leRead raw off 4
  inodeBitmap := leRead raw (off + 4) 4
  inodeTable := leRead raw (off + 8) 4
  freeBlocksCount := leRead raw (off + 12) 2
  freeInodesCount := leRead raw (off + 14) 2

/-! ## Reads -/

variable (d : BlockDevice)

/-- `read_block`. -/
def readBlock (blockSize block : Nat) : Option Store :=
  blockDevRead d (block * (blockSize / d.blockSize)) (blockSize / d.blockSize)

/-- `struct ext2_sb_info`; `gd` is the table of group descriptors. -/
structure SbInfo where
  sbRaw : Superblock
  blockSize : Nat
  blocksPerGroup : Nat
  inodesPerGroup : Nat
  inodeSize : Nat
  firstDataBlock : Nat
  numGroups : Nat
  gd : Store
  gdBlocks : Nat

/-- The descriptor of a group. -/
def SbInfo.desc (sbi : SbInfo) (group : Nat) : GroupDesc := GroupDesc.ofRaw sbi.gd (32 * group)

/-- `ext2_read_inode_raw`: the bytes from the start of the inode on. -/
def ext2ReadInodeRaw (sbi : SbInfo) (inum : Nat) : Option Store :=
  if inum = 0 then none
  else if sbi.inodeSize = 0 ∨ sbi.inodeSize > sbi.blockSize then none
  else
    let group := (inum - 1) / sbi.inodesPerGroup
    let index := (inum - 1) % sbi.inodesPerGroup
    if group ≥ sbi.numGroups then none
    else do
      let inodesPerBlock := sbi.blockSize / sbi.inodeSize
      let block := ((sbi.desc group).inodeTable + index / inodesPerBlock) % 2 ^ 32
      let buf ← readBlock d sbi.blockSize block
      some fun i => buf (index % inodesPerBlock * sbi.inodeSize + i)

/-! ## Mounting -/

/-- The three attempts of `ext2_mount` to read the superblock. -/
def readSuper : Option Store :=
  match blockDevRead d 2 2 with
  | some raw => some raw
  | none =>
    match blockDevRead d 1 1 with
    | some raw => some raw
    | none => (blockDevRead d 0 4).map fun temp i => temp (1024 + i)

/-- The first block of the group descriptors. -/
def gdStart (blockSize : Nat) : Nat := if blockSize = 1024 then 2 else 1

/-- The loop of `ext2_mount` that reads the group descriptors. -/
def readTable (blockSize start count : Nat) : Option Store :=
  (List.range count).foldlM (fun gd i =>
    (readBlock d blockSize (start + i)).map fun buf => blit gd (i * blockSize) blockSize buf)
    fun _ => 0

/-- `ext2_mount`; `none` is NULL. -/
def ext2Mount : Option SbInfo := do
  let raw ← readSuper d
  let sb := Superblock.ofRaw raw
  if sb.magic ≠ ext2SuperMagic then none
  else if sb.blockSize < 1024 ∨ sb.blockSize > 4096 then none
  else if sb.blocksPerGroup = 0 ∨ sb.inodesPerGroup = 0 then none
  else do
    let gdBlocks := (sb.numGroups * 32 + sb.blockSize - 1) / sb.blockSize
    let gd ← readTable d sb.blockSize (gdStart sb.blockSize) gdBlocks
    let sbi : SbInfo :=
      { sbRaw := sb
        blockSize := sb.blockSize
        blocksPerGroup := sb.blocksPerGroup
        inodesPerGroup := sb.inodesPerGroup
        inodeSize := if sb.inodeSize = 0 then 128 else sb.inodeSize
        firstDataBlock := sb.firstDataBlock
        numGroups := sb.numGroups
        gd := gd
        gdBlocks := gdBlocks }
    let _ ← ext2ReadInodeRaw d sbi 2
    some sbi

/-- The blocks of the descriptors, the bitmaps and the inode tables. -/
inductive SbInfo.Metadata (sbi : SbInfo) : Nat → Prop
  | table (i : Nat) (inside : i < sbi.gdBlocks) : Metadata sbi (gdStart sbi.blockSize + i)
  | blockBitmap (group : Nat) (inside : group < sbi.numGroups) :
      Metadata sbi (sbi.desc group).blockBitmap
  | inodeBitmap (group : Nat) (inside : group < sbi.numGroups) :
      Metadata sbi (sbi.desc group).inodeBitmap
  | inodeTable (group k : Nat) (inside : group < sbi.numGroups)
      (holds : k * sbi.blockSize < sbi.inodesPerGroup * sbi.inodeSize) :
      Metadata sbi ((sbi.desc group).inodeTable + k)

end AuroraOS.Ext2
