import AuroraOS.Fsck.Model

/-!
# The superblock phase of the checker

The checker writes to the device in one place: the superblock with a repaired `s_state`, to the
block behind `s_first_data_block`, when the superblock passes the checks.
-/

namespace AuroraOS.Fsck

open Lib Block Ext2 Superblock Option

variable {env : Env} {d d' : BlockDevice} {sb : Superblock} {fix fix' : Bool} {t : Tally}

/-! ## Reads -/

def diskSuper (d : BlockDevice) : Store := fun i => d.data (1024 + i)

structure SameDisk (d d' : BlockDevice) : Prop where
  blockSize : d'.blockSize = d.blockSize
  totalSectors : d'.totalSectors = d.totalSectors
  data : d'.data = d.data

lemma SameDisk.refl (d : BlockDevice) : SameDisk d d := ⟨rfl, rfl, rfl⟩

lemma SameDisk.blockDevRead (same : SameDisk d d') :
    Block.blockDevRead d' = Block.blockDevRead d := by
  cases d
  obtain ⟨rfl, rfl, rfl⟩ := same
  rfl

lemma SameDisk.readFsBlock (same : SameDisk d d') : Fsck.readFsBlock d' = Fsck.readFsBlock d := by
  funext blockSize block
  simp only [Fsck.readFsBlock, readBlock, same.blockDevRead, same.blockSize]

lemma ofRaw_congr {raw raw' : Store} (same : ∀ i < 1024, raw' i = raw i) :
    ofRaw raw' = ofRaw raw := by
  have field : ∀ a n, a + n ≤ 1024 → leRead raw' a n = leRead raw a n := fun a n inside =>
    leRead_congr fun i _ high => same i (by omega)
  simp only [ofRaw, field 0 4 (by omega), field 4 4 (by omega), field 20 4 (by omega),
    field 24 4 (by omega), field 32 4 (by omega), field 40 4 (by omega), field 56 2 (by omega),
    field 58 2 (by omega), field 88 2 (by omega)]

def superBuffer (env : Env) (d : BlockDevice) : Store := inMemory env 1024 (diskSuper d)

lemma ofRaw_superBuffer (env : Env) (d : BlockDevice) :
    ofRaw (superBuffer env d) = ofRaw (diskSuper d) :=
  ofRaw_congr fun _ inside => if_pos inside

lemma superBuffer_congr (env : Env) (same : ∀ i < 1024, diskSuper d' i = diskSuper d i) :
    superBuffer env d' = superBuffer env d := by
  funext i
  simp only [superBuffer, inMemory]
  split
  · next inside => exact same i inside
  · rfl

variable {buf : Store}

lemma inMemory_blockDevRead (sectors : d.blockSize = 512)
    (read : blockDevRead d 2 2 = some buf) : inMemory env 1024 buf = superBuffer env d := by
  unfold blockDevRead at read
  split at read
  · cases read
    funext i
    simp only [inMemory, superBuffer, sectors]
    split <;> rfl
  · cases read

lemma ofRaw_blockDevRead (sectors : d.blockSize = 512) (read : blockDevRead d 2 2 = some buf) :
    ofRaw buf = ofRaw (diskSuper d) := by
  unfold blockDevRead at read
  split at read
  · cases read
    apply ofRaw_congr
    intro i inside
    simp only [sectors, if_pos inside]
    rfl
  · cases read

lemma ofRaw_markValid (raw : Store) :
    ofRaw (markValid raw) = { ofRaw raw with state := ext2ValidFs } := by
  have field : ∀ a n, a + n ≤ 58 ∨ 60 ≤ a → leRead (markValid raw) a n = leRead raw a n :=
    fun a n apart => leRead_leWrite_disjoint apart
  have state : leRead (markValid raw) 58 2 = ext2ValidFs := leRead_leWrite_same _ _ _ _
  simp only [ofRaw, state, field 0 4 (by omega), field 4 4 (by omega),
    field 20 4 (by omega), field 24 4 (by omega), field 32 4 (by omega), field 40 4 (by omega),
    field 56 2 (by omega), field 88 2 (by omega)]

/-! ## The superblock phase -/

structure Accepted (sb : Superblock) : Prop where
  magic : sb.magic = ext2SuperMagic
  blockSize : 1024 ≤ sb.blockSize ∧ sb.blockSize ≤ 4096
  counts : sb.blocksCount ≠ 0 ∧ sb.inodesCount ≠ 0
  perGroup : sb.blocksPerGroup ≠ 0 ∧ sb.inodesPerGroup ≠ 0

def NeedsRepair (fix : Bool) (sb : Superblock) : Prop := fix = true ∧ sb.state ≠ ext2ValidFs

instance : Decidable (NeedsRepair fix sb) := inferInstanceAs (Decidable (_ ∧ _))

def repaired (env : Env) (d : BlockDevice) : BlockDevice :=
  let sb := ofRaw (diskSuper d)
  (writeFsBlock d sb.blockSize (sb.firstDataBlock + 1) (markValid (superBuffer env d))).getD d

/-- A backup is looked for only through a readable primary superblock. -/
lemma fsckRestoreSuperblock_eq_none (unusable : ∀ buf, blockDevRead d 2 2 = some buf →
      (ofRaw buf).magic ≠ ext2SuperMagic) : fsckRestoreSuperblock d = none := by
  have missing : ∀ group, fsckReadSuperblock d group = none := by
    intro group
    unfold fsckReadSuperblock
    cases read : blockDevRead d 2 2 with
    | none => rfl
    | some buf =>
      simp only [bind_eq_bind, bind_some]
      rw [if_pos (unusable buf read), if_pos (unusable buf read), ite_self]
  simp [fsckRestoreSuperblock, missing]

lemma repairState_of_not (t : Tally) (no : ¬NeedsRepair fix (ofRaw (superBuffer env d))) :
    repairState d fix (superBuffer env d) t = (superBuffer env d, d, t) := by
  unfold repairState
  rw [NeedsRepair, not_and] at no
  cases fix with
  | false => simp
  | true =>
    have valid := not_not.mp (no rfl)
    simp [valid, ext2ValidFs, ext2ErrorFs]

lemma repairState_of_needs (t : Tally) (needs : NeedsRepair fix (ofRaw (superBuffer env d))) :
    ∃ fixed, repairState d fix (superBuffer env d) t =
      (markValid (superBuffer env d), repaired env d, { t with fixed := fixed }) := by
  obtain ⟨rfl, broken⟩ := needs
  unfold repairState repaired
  rw [ofRaw_superBuffer] at broken ⊢
  by_cases error : (ofRaw (diskSuper d)).state = ext2ErrorFs
  · simp [error, ofRaw_superBuffer]
  have settled : (ofRaw (markValid (superBuffer env d))).state ≠ ext2ErrorFs := by
    simp [ofRaw_markValid, ext2ValidFs, ext2ErrorFs]
  simp only [ne_eq, broken, error]
  cases writeFsBlock d (ofRaw (diskSuper d)).blockSize
      ((ofRaw (diskSuper d)).firstDataBlock + 1)
      (markValid (superBuffer env d)) with
  | none => exact ⟨t.fixed, if_neg fun both => settled both.1⟩
  | some next => exact ⟨t.fixed + 1, if_neg fun both => settled both.1⟩

lemma checkSuperblock_accepted (env : Env) (fix : Bool) (t : Tally) (sectors : d.blockSize = 512)
    (read : blockDevRead d 2 2 = some buf) (accepted : Accepted (ofRaw (diskSuper d))) :
    ∃ state fixed, checkSuperblock env d fix t =
      (.checked { ofRaw (diskSuper d) with state := state }
          (ofRaw (diskSuper d)).blockSize,
        if NeedsRepair fix (ofRaw (diskSuper d)) then repaired env d else d,
        { t with checked := t.checked + 1, fixed := fixed }) := by
  obtain ⟨magic, ⟨low, high⟩, ⟨blocks, inodes⟩, perBlocks, perInodes⟩ := accepted
  unfold checkSuperblock
  rw [read]
  dsimp only
  rw [inMemory_blockDevRead sectors read, ofRaw_superBuffer, if_neg (not_not.mpr magic),
    if_neg (by omega), if_neg (not_or.mpr ⟨blocks, inodes⟩),
    if_neg (not_or.mpr ⟨perBlocks, perInodes⟩)]
  by_cases needs : NeedsRepair fix (ofRaw (diskSuper d))
  · obtain ⟨fixed, is⟩ := repairState_of_needs { t with checked := t.checked + 1 }
      ((ofRaw_superBuffer env d).symm ▸ needs)
    refine ⟨ext2ValidFs, fixed, ?_⟩
    rw [is, if_pos needs, ofRaw_markValid, ofRaw_superBuffer]
  · refine ⟨(ofRaw (diskSuper d)).state, t.fixed, ?_⟩
    rw [repairState_of_not _ ((ofRaw_superBuffer env d).symm ▸ needs), if_neg needs,
      ofRaw_superBuffer]

lemma checkSuperblock_rejected (sectors : d.blockSize = 512)
    (rejected : blockDevRead d 2 2 = none ∨ ¬Accepted (ofRaw (diskSuper d))) :
    checkSuperblock env d fix t =
      (.failed, d, { t with checked := t.checked + 1, errors := t.errors + 1 }) := by
  have gone (unusable : ∀ buf, blockDevRead d 2 2 = some buf →
      (ofRaw buf).magic ≠ ext2SuperMagic) :
      restorePath d fix { t with checked := t.checked + 1 } =
        (.failed, d, { t with checked := t.checked + 1, errors := t.errors + 1 }) := by
    rw [restorePath, fsckRestoreSuperblock_eq_none unusable]
    exact ite_self _
  unfold checkSuperblock
  cases read : blockDevRead d 2 2 with
  | none => exact gone fun buf is => by simp [read] at is
  | some buf =>
    have unaccepted := rejected.resolve_left (by simp [read])
    dsimp only
    rw [inMemory_blockDevRead sectors read, ofRaw_superBuffer]
    split
    · apply gone
      intro buf' is
      obtain rfl := some.inj (read.symm.trans is)
      rwa [ofRaw_blockDevRead sectors read]
    rename_i magic
    split
    · rfl
    split
    · rfl
    rename_i counts
    split
    · rfl
    rename_i perGroup
    exact absurd ⟨not_not.mp magic, by omega, not_or.mp counts, not_or.mp perGroup⟩ unaccepted

/-! ## The write -/

lemma blockSize_dvd (sb : Superblock) : 1024 ∣ sb.blockSize := by
  rw [Superblock.blockSize, Nat.dvd_mod_iff (by decide)]
  exact Nat.dvd_mul_right _ _

lemma sector_dvd (sb : Superblock) : 512 ∣ sb.blockSize :=
  Nat.dvd_trans (by decide) (blockSize_dvd sb)

variable {blockSize block : Nat}

lemma writeFsBlock_eq (sectors : d.blockSize = 512)
    (whole : 512 ∣ blockSize) : writeFsBlock d blockSize block buf =
      if d.inRange (block % 2 ^ 32 * (blockSize / 512)) (blockSize / 512) then
        some (d.push [blockPatch blockSize (block % 2 ^ 32, buf)]) else none := by
  obtain ⟨size, total, data, log⟩ := d
  obtain rfl : size = 512 := sectors
  have address : block % 2 ^ 32 * (blockSize / 512) * 512 = block % 2 ^ 32 * blockSize := by
    rw [mul_assoc, Nat.div_mul_cancel whole]
  simp only [writeFsBlock, blockDevWrite, address, Nat.div_mul_cancel whole]
  rfl

lemma push_blockPatch {n i : Nat} (inside : i < blockSize) :
    (d.push [blockPatch blockSize (block, buf)]).data (n * blockSize + i) =
      if n = block then buf i else d.data (n * blockSize + i) := by
  split
  · next same =>
      subst same
      exact (blit_inside (Nat.le_add_right ..) (Nat.add_lt_add_left inside _)).trans
        (congrArg buf (Nat.add_sub_cancel_left ..))
  · next other => exact Patch.apply_of_avoids (blockPatch_avoids inside (Ne.symm other))

/-! ## A small volume -/

def plainEnv : Env where
  behind := fun _ => 0
  kmalloc := fun _ => true
  uninit := ⟨0, 0, 0, 0, 0, 0, 0, 0, 0⟩

/-- A volume of 16 blocks of 1 KiB with one group, the given `s_state` and a root directory
whose only entry has the given inode number.  Block 3 repeats the descriptor of block 2. -/
def smallVolume (state entry : Nat) : BlockDevice where
  blockSize := 512
  totalSectors := 32
  data :=
    [(1024, 4, 16), (1028, 4, 16), (1044, 4, 1), (1056, 4, 8192), (1064, 4, 16), (1080, 2,
      ext2SuperMagic), (1082, 2, state), (1112, 2, 128), (2048, 4, 4), (2052, 4, 5), (2056, 4, 6),
      (3072, 4, 4), (3076, 4, 5), (3080, 4, 6), (4096, 2, 0xFFFF), (5120, 2, 0xFFFF), (6272, 2,
      0x41ED), (6276, 4, 1024), (6312, 4, 8), (8192, 4, entry), (8196, 2, 1024), (8198, 1, 1)].foldl
      (fun (m : Store) (field : Nat × Nat × Nat) => leWrite m field.1 field.2.1 field.2.2)
      fun _ => 0

end AuroraOS.Fsck
