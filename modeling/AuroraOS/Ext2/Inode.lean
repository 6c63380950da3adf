import AuroraOS.Ext2.Mount

/-!
# Inodes in memory

`ext2_read_inode_raw` and `ext2_write_inode_raw` of `kernel/ext2.c` copy as many bytes as the
volume has for an inode, while `struct ext2_inode`, which its callers embed in a larger record,
has 128.
-/

namespace AuroraOS.Ext2

open Lib Block Option

def sizeofInode : Nat := 128

def readInodeInto (d : BlockDevice) (sbi : SbInfo) (inum : Nat) (m : Store) (raw : Nat) :
    Option Store :=
  (ext2ReadInodeRaw d sbi inum).map fun bytes => blit m raw sbi.inodeSize bytes

def ext2WriteInodeRaw (d : BlockDevice) (sbi : SbInfo) (inum : Nat) (m : Store) (raw : Nat) :
    Option BlockDevice :=
  if inum = 0 then none
  else
    let group := (inum - 1) / sbi.inodesPerGroup
    let index := (inum - 1) % sbi.inodesPerGroup
    if group ≥ sbi.numGroups then none
    else do
      let inodesPerBlock := sbi.blockSize / sbi.inodeSize
      let block := ((sbi.desc group).inodeTable + index / inodesPerBlock) % 2 ^ 32
      let buf ← readBlock d sbi.blockSize block
      let spb := sbi.blockSize / d.blockSize
      blockDevWrite d (blit buf (index % inodesPerBlock * sbi.inodeSize) sbi.inodeSize
        fun i => m (raw + i)) (block * spb) spb

/-- A read changes no byte outside the structure, and a write depends on none. -/
def SbInfo.Contained (sbi : SbInfo) : Prop :=
  (∀ d inum m raw m', readInodeInto d sbi inum m raw = some m' →
    ∀ a, a < raw ∨ raw + sizeofInode ≤ a → m' a = m a) ∧
  ∀ d inum m m' raw, (∀ i < sizeofInode, m' (raw + i) = m (raw + i)) →
    ext2WriteInodeRaw d sbi inum m' raw = ext2WriteInodeRaw d sbi inum m raw

variable {d : BlockDevice} {sbi : SbInfo}

lemma SbInfo.contained (fits : sbi.inodeSize ≤ sizeofInode) : sbi.Contained := by
  constructor
  · intro d inum m raw m' done a out
    obtain ⟨bytes, -, rfl⟩ := map_eq_some_iff.mp done
    exact blit_outside (by omega)
  · intro d inum m m' raw same
    have copied : ∀ buf : Store, ∀ pos, blit buf pos sbi.inodeSize (fun i => m' (raw + i)) =
        blit buf pos sbi.inodeSize fun i => m (raw + i) := fun buf pos =>
      blit_congr fun i inside => same i (by omega)
    simp only [ext2WriteInodeRaw, copied]

lemma ext2Mount_inode (mounted : ext2Mount d = some sbi) :
    sbi.inodeSize = (if sbi.sbRaw.inodeSize = 0 then 128 else sbi.sbRaw.inodeSize) ∧
      ∃ bytes, ext2ReadInodeRaw d sbi 2 = some bytes := by
  simp only [ext2Mount, bind_eq_bind, bind_eq_some_iff] at mounted
  obtain ⟨raw, -, mounted⟩ := mounted
  iterate 3
    split at mounted
    · cases mounted
  obtain ⟨gd, -, mounted⟩ := bind_eq_some_iff.mp mounted
  obtain ⟨bytes, read, made⟩ := bind_eq_some_iff.mp mounted
  cases made
  exact ⟨rfl, bytes, read⟩

/-- The copies stay inside the structure, for every inode number and whatever is on the device by
then, if and only if the inodes of the volume have at most 128 bytes. -/
theorem inode_contained_iff (mounted : ext2Mount d = some sbi) :
    sbi.Contained ↔ sbi.sbRaw.inodeSize ≤ sizeofInode := by
  obtain ⟨size, bytes, read⟩ := ext2Mount_inode mounted
  have same : sbi.inodeSize ≤ sizeofInode ↔ sbi.sbRaw.inodeSize ≤ sizeofInode := by
    rw [size, sizeofInode]
    split <;> omega
  rw [← same]
  refine ⟨fun contained => ?_, SbInfo.contained⟩
  -- The root inode, read over a memory that differs from it behind the structure.
  have done : readInodeInto d sbi 2 (fun _ => bytes sizeofInode + 1) 0 =
      some (blit (fun _ => bytes sizeofInode + 1) 0 sbi.inodeSize bytes) :=
    congrArg (Option.map _) read
  have kept := contained.1 _ _ _ _ _ done sizeofInode (.inr (Nat.zero_add _).le)
  by_contra long
  rw [blit_inside (Nat.zero_le _) (by omega)] at kept
  simp at kept

def inodeVolume (high : UInt8) : BlockDevice where
  blockSize := 512
  totalSectors := 64
  data
    | 1028 | 1056 | 1064 => 16
    | 1080 => 0x53
    | 1081 => 0xEF
    | 1113 => high
    | 2056 => 5
    | _ => 0

theorem inode_contained_iff_small :
    ∃ sbi, ext2Mount (inodeVolume 0) = some sbi ∧ sbi.Contained := by
  have size : (ext2Mount (inodeVolume 0)).map (·.sbRaw.inodeSize) = some 0 := by decide +kernel
  obtain ⟨sbi, mounted, small⟩ := map_eq_some_iff.mp size
  exact ⟨sbi, mounted, (inode_contained_iff mounted).mpr (small.trans_le (Nat.zero_le _))⟩

/-- With inodes of 256 bytes the read of the root inode overwrites what follows the structure. -/
theorem inode_overruns : ((ext2Mount (inodeVolume 1)).bind fun sbi =>
    readInodeInto (inodeVolume 1) sbi 2 (fun _ => 7) 0).map (fun m => m sizeofInode) = some 0 := by
  decide +kernel

end AuroraOS.Ext2
