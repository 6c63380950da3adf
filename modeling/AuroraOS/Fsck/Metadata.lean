import AuroraOS.Fsck.Superblock

/-!
# Metadata and repairs

On a valid volume the block behind `s_first_data_block` is the first one of the group descriptor
table, so that the table survives a run exactly when there is no state to repair.
-/

namespace AuroraOS.Fsck

open Lib Block Ext2 Superblock Option

variable {env : Env} {d d' : BlockDevice} {sb : Superblock} {fix fix' : Bool} {t : Tally}

/-! ## The whole run -/

section Run

variable {fuel : Nat} {flags : BitVec 32} {st : Stats}

lemma fsckRun_device : (fsckRun env fuel d flags st).2.1 =
    (checkSuperblock env d (flags &&& fsckFlagFix != 0) st.superblock).2.1 := by
  unfold fsckRun
  dsimp only
  split
  · rfl
  all_goals
    split
    · rfl
    · rfl

lemma checkGroupDescriptors_fixed {blockSize : Nat} :
    (checkGroupDescriptors env d sb blockSize t).2.fixed = t.fixed := by
  have loop : ∀ (gd : Store) (groups : List Nat) (t : Tally),
      (groups.foldl (fun t g =>
        { t with checked := t.checked + 1, errors := t.errors + descErrors sb (descAt gd g) })
        t).fixed = t.fixed := by
    intro gd groups
    induction groups with
    | nil => exact fun _ => rfl
    | cons g groups ih => exact fun t => ih _
  unfold checkGroupDescriptors
  dsimp only
  split
  · rfl
  split
  · rfl
  split
  · rfl
  · exact loop _ _ _

lemma checkBitmap_fixed {blockSize block bits freeCount : Nat} :
    (checkBitmap env d blockSize block bits freeCount t).fixed = t.fixed := by
  unfold checkBitmap
  split
  · rfl
  · split <;> rfl

lemma checkBitmaps_fixed {blockSize : Nat} {blocks inodes : Tally} :
    (checkBitmaps env d sb blockSize blocks inodes).2.1.fixed = blocks.fixed ∧
      (checkBitmaps env d sb blockSize blocks inodes).2.2.fixed = inodes.fixed := by
  have loop : ∀ (gd : Store) (groups : List Nat) (t : Tally × Tally),
      let done := groups.foldl (fun t g =>
        (checkBitmap env d blockSize (descAt gd g).blockBitmap
            (inGroup sb sb.blocksPerGroup sb.blocksCount g) (descAt gd g).freeBlocksCount t.1,
          checkBitmap env d blockSize (descAt gd g).inodeBitmap
            (inGroup sb sb.inodesPerGroup sb.inodesCount g) (descAt gd g).freeInodesCount t.2)) t
      done.1.fixed = t.1.fixed ∧ done.2.fixed = t.2.fixed := by
    intro gd groups
    induction groups with
    | nil => exact fun _ => ⟨rfl, rfl⟩
    | cons g groups ih =>
      intro t
      obtain ⟨blocks, inodes⟩ := ih _
      exact ⟨blocks.trans checkBitmap_fixed, inodes.trans checkBitmap_fixed⟩
  unfold checkBitmaps
  dsimp only
  split
  · exact ⟨rfl, rfl⟩
  split
  · exact ⟨rfl, rfl⟩
  · exact loop _ _ _

lemma fsckRun_fixed (env : Env) (fuel : Nat) (d : BlockDevice) (flags : BitVec 32) (st : Stats) :
    (fsckRun env fuel d flags st).2.2.groups.fixed = st.groups.fixed ∧
    (fsckRun env fuel d flags st).2.2.blocks.fixed = st.blocks.fixed ∧
    (fsckRun env fuel d flags st).2.2.inodes.fixed = st.inodes.fixed := by
  have later : ∀ {d : BlockDevice} {sb : Superblock} {blockSize : Nat} {fix : Bool}
      {st st' : Stats}, phases env fuel d sb blockSize fix st = some st' →
      st'.groups.fixed = st.groups.fixed ∧ st'.blocks.fixed = st.blocks.fixed ∧
        st'.inodes.fixed = st.inodes.fixed := by
    intro d sb blockSize fix st st' done
    obtain ⟨dirs, -, rfl⟩ := map_eq_some_iff.mp done
    exact ⟨checkGroupDescriptors_fixed, checkBitmaps_fixed.1, checkBitmaps_fixed.2⟩
  unfold fsckRun
  dsimp only
  split
  · exact ⟨rfl, rfl, rfl⟩
  all_goals
    split
    · exact ⟨rfl, rfl, rfl⟩
    · next done => exact (later done :)

end Run

/-! ## Metadata of a valid volume -/

/-- A volume as `mke2fs` makes it: it can be mounted, it has blocks and inodes, and its
first data block is the one of its block size. -/
structure ValidImage (d : BlockDevice) (sbi : SbInfo) : Prop where
  sectors : d.blockSize = 512
  mounts : ext2Mount d = some sbi
  counts : sbi.sbRaw.blocksCount ≠ 0 ∧ sbi.sbRaw.inodesCount ≠ 0
  groups : 0 < sbi.numGroups
  firstDataBlock : sbi.firstDataBlock = if sbi.blockSize = 1024 then 1 else 0

/-- Unless a fix of a group descriptor, a bitmap or an inode is reported, the metadata blocks
stay as they were. -/
def KeepsMetadata (sbi : SbInfo) (d : BlockDevice) (st : Stats) (d' : BlockDevice) (st' : Stats) :
    Prop :=
  st'.groups.fixed = st.groups.fixed ∧ st'.blocks.fixed = st.blocks.fixed ∧
    st'.inodes.fixed = st.inodes.fixed →
  ∀ n, sbi.Metadata n → ∀ i < sbi.blockSize,
    d'.data (n * sbi.blockSize + i) = d.data (n * sbi.blockSize + i)

/-- The first block of the descriptor table holds the repaired superblock already. -/
def CopyThere (env : Env) (d : BlockDevice) (blockSize : Nat) : Prop :=
  ∀ i < blockSize, d.data (Ext2.gdStart blockSize * blockSize + i) = markValid (superBuffer env d) i

section Valid

variable {sbi : SbInfo}

lemma inRange_of_readTable {blockSize start count : Nat} {gd : Store} (positive : 0 < count)
    (read : readTable d blockSize start count = some gd) :
    d.inRange (start * (blockSize / d.blockSize)) (blockSize / d.blockSize) = true := by
  obtain ⟨rest, rfl⟩ := Nat.exists_eq_add_of_lt positive
  rw [readTable, zero_add, List.range_succ_eq_map, List.foldlM_cons] at read
  obtain ⟨_, first, -⟩ := bind_eq_some_iff.mp read
  obtain ⟨buf, block, -⟩ := map_eq_some_iff.mp first
  rw [readBlock, blockDevRead] at block
  split at block
  · next inside => exact inside
  · cases block

/-- What the mount says about the superblock and the size of the device. -/
lemma ValidImage.facts (valid : ValidImage d sbi) :
    sbi.sbRaw = ofRaw (diskSuper d) ∧ Accepted (ofRaw (diskSuper d)) ∧
    (∃ buf, blockDevRead d 2 2 = some buf) ∧ 0 < sbi.gdBlocks ∧
    sbi.blockSize = (ofRaw (diskSuper d)).blockSize ∧
    sbi.firstDataBlock = (ofRaw (diskSuper d)).firstDataBlock ∧
    d.inRange (Ext2.gdStart sbi.blockSize * (sbi.blockSize / 512)) (sbi.blockSize / 512) =
      true := by
  obtain ⟨sectors, mounts, counts, groups, -⟩ := valid
  unfold ext2Mount at mounts
  obtain ⟨raw, super, mounts⟩ := bind_eq_some_iff.mp mounts
  dsimp only at mounts
  split at mounts
  · cases mounts
  rename_i magic
  split at mounts
  · cases mounts
  split at mounts
  · cases mounts
  rename_i perGroup
  obtain ⟨gd, table, mounts⟩ := bind_eq_some_iff.mp mounts
  obtain ⟨root, -, mounts⟩ := bind_eq_some_iff.mp mounts
  cases mounts
  dsimp only at counts groups ⊢
  have tables : 0 < ((ofRaw raw).numGroups * 32 + (ofRaw raw).blockSize - 1) /
      (ofRaw raw).blockSize := by
    apply Nat.div_pos <;> omega
  have inside := inRange_of_readTable tables table
  rw [sectors] at inside
  -- the table lies behind the superblock, so that the first attempt has read it
  have large : ∃ buf, blockDevRead d 2 2 = some buf := by
    have start : 1 ≤ Ext2.gdStart (ofRaw raw).blockSize := by
      rw [Ext2.gdStart]
      split <;> omega
    have wide : 2 ≤ (ofRaw raw).blockSize / 512 := by omega
    have far := Nat.mul_le_mul start wide
    simp only [BlockDevice.inRange, decide_eq_true_eq] at inside
    refine ⟨_, if_pos ?_⟩
    simp only [BlockDevice.inRange, decide_eq_true_eq]
    omega
  obtain ⟨buf, read⟩ := large
  rw [readSuper, read] at super
  cases super
  rw [ofRaw_blockDevRead sectors read] at *
  exact ⟨rfl, ⟨not_not.mp magic, by omega, counts, not_or.mp perGroup⟩, ⟨_, read⟩, tables, rfl, rfl,
    inside⟩

lemma ValidImage.repaired_eq (valid : ValidImage d sbi) (env : Env) : repaired env d =
    d.push [blockPatch sbi.blockSize
      (Ext2.gdStart sbi.blockSize, markValid (superBuffer env d))] := by
  obtain ⟨-, -, -, -, size, first, inside⟩ := valid.facts
  have target : (sbi.firstDataBlock + 1) % 2 ^ 32 = Ext2.gdStart sbi.blockSize := by
    rw [valid.firstDataBlock, Ext2.gdStart]
    split <;> rfl
  unfold repaired
  dsimp only
  rw [← first, ← size, writeFsBlock_eq valid.sectors (size ▸ sector_dvd _), target, if_pos inside]
  rfl

/-- On a valid volume a run with the fix flag keeps the metadata exactly when `s_state` says
that the file system is clean, or the copy of the superblock is there already. -/
theorem fsckRun_keeps_metadata_iff (valid : ValidImage d sbi) (env : Env) (fuel : Nat)
    (flags : BitVec 32) (fix : flags &&& fsckFlagFix ≠ 0) (st : Stats) :
    KeepsMetadata sbi d st (fsckRun env fuel d flags st).2.1 (fsckRun env fuel d flags st).2.2 ↔
      sbi.sbRaw.state = ext2ValidFs ∨ CopyThere env d sbi.blockSize := by
  obtain ⟨super, accepted, ⟨buf, read⟩, table, -⟩ := valid.facts
  have fixing : (flags &&& fsckFlagFix != 0) = true := bne_iff_ne.mpr fix
  obtain ⟨state, fixed, phase⟩ := checkSuperblock_accepted env true st.superblock valid.sectors
    read accepted
  rw [KeepsMetadata, fsckRun_device, fixing, phase, super]
  by_cases clean : (ofRaw (diskSuper d)).state = ext2ValidFs
  · rw [if_neg fun needs => needs.2 clean]
    exact iff_of_true (fun _ _ _ _ _ => rfl) (.inl clean)
  rw [if_pos ⟨rfl, clean⟩, valid.repaired_eq]
  constructor
  · intro keeps
    refine .inr fun i inside => ?_
    have kept := keeps (fsckRun_fixed env fuel d flags st) _ (.table 0 table) i inside
    rw [add_zero, push_blockPatch inside, if_pos rfl] at kept
    exact kept.symm
  · rintro (impossible | there) -
    · exact absurd impossible clean
    intro n mem i inside
    rw [push_blockPatch inside]
    split
    · next same =>
        rw [same]
        exact (there i inside).symm
    · rfl

lemma smallVolume_valid (clean : Bool) : ∃ sbi,
    ValidImage (smallVolume (if clean then ext2ValidFs else ext2ErrorFs) 2) sbi ∧
      sbi.blockSize = 1024 ∧ 0 < sbi.gdBlocks ∧
      sbi.sbRaw.state = if clean then ext2ValidFs else ext2ErrorFs := by
  have evaluates : (ext2Mount (smallVolume (if clean then ext2ValidFs else ext2ErrorFs) 2)).map
      (fun sbi => decide ((sbi.sbRaw.blocksCount ≠ 0 ∧ sbi.sbRaw.inodesCount ≠ 0) ∧
        0 < sbi.numGroups ∧ sbi.firstDataBlock = (if sbi.blockSize = 1024 then 1 else 0) ∧
        sbi.blockSize = 1024 ∧ 0 < sbi.gdBlocks ∧
        sbi.sbRaw.state = if clean then ext2ValidFs else ext2ErrorFs)) = some true := by
    cases clean <;> decide +kernel
  obtain ⟨sbi, mounts, facts⟩ := map_eq_some_iff.mp evaluates
  obtain ⟨counts, groups, first, rest⟩ := of_decide_eq_true facts
  exact ⟨sbi, ⟨by cases clean <;> rfl, mounts, counts, groups, first⟩, rest⟩

/-- A clean volume keeps its metadata. -/
theorem fsckRun_keeps_metadata_clean : ∃ sbi, ValidImage (smallVolume ext2ValidFs 2) sbi ∧
    KeepsMetadata sbi (smallVolume ext2ValidFs 2) {}
      (fsckRun plainEnv 4 (smallVolume ext2ValidFs 2) fsckFlagFix {}).2.1
      (fsckRun plainEnv 4 (smallVolume ext2ValidFs 2) fsckFlagFix {}).2.2 := by
  obtain ⟨sbi, valid, _, _, state⟩ := smallVolume_valid true
  exact ⟨sbi, valid, (fsckRun_keeps_metadata_iff valid plainEnv 4 fsckFlagFix (by decide) {}).mpr
    (.inl state)⟩

/-- A volume that is marked as having errors loses its group descriptors: no fix of one is
reported, and the block bitmap of the group moves from block 4 to block 16. -/
theorem fsckRun_overwrites_descriptors : ∃ sbi, ValidImage (smallVolume ext2ErrorFs 2) sbi ∧
    sbi.Metadata 2 ∧
    ¬KeepsMetadata sbi (smallVolume ext2ErrorFs 2) {}
      (fsckRun plainEnv 4 (smallVolume ext2ErrorFs 2) fsckFlagFix {}).2.1
      (fsckRun plainEnv 4 (smallVolume ext2ErrorFs 2) fsckFlagFix {}).2.2 := by
  obtain ⟨sbi, valid, size, table, _⟩ := smallVolume_valid false
  have mem : sbi.Metadata 2 := by
    have start : Ext2.gdStart sbi.blockSize + 0 = 2 := by
      rw [size]
      rfl
    exact start ▸ SbInfo.Metadata.table 0 table
  have changed : ((fsckRun plainEnv 4 (smallVolume ext2ErrorFs 2) fsckFlagFix {}).2.1.data 2048,
      (smallVolume ext2ErrorFs 2).data 2048) = (16, 4) := by
    decide +kernel
  refine ⟨sbi, valid, mem, fun keeps => ?_⟩
  have same := keeps (fsckRun_fixed ..) 2 mem 0 (by rw [size]; decide)
  rw [size] at same
  have pair := Prod.mk.inj changed
  exact absurd (pair.1.symm.trans (same.trans pair.2)) (by decide)

end Valid

end AuroraOS.Fsck
