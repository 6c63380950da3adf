import AuroraOS.Fsck.Superblock

/-!
# A second run of the checker

The repairs of directory entries stay in memory, and the errors of the other phases are not
repaired.
-/

namespace AuroraOS.Fsck

open Lib Block Ext2 Superblock Option Nat

variable {env : Env} {d d' : BlockDevice} {sb : Superblock} {fix fix' : Bool} {t : Tally}

variable {inodesCount blockSize : Nat} {scan : DirScan} {inode : Store} {fuel fuel' off : Nat}

lemma advance_tally (scan : DirScan) : scan.advance.tally = scan.tally := rfl

def SoundEntry (inodesCount : Nat) (scan : DirScan) : Prop :=
  ¬(scan.inode ≠ 0 ∧ scan.inode > inodesCount) ∧ ¬scan.nameLen > 250

lemma checkEntry_sound (sound : SoundEntry inodesCount scan) (fix : Bool) :
    checkEntry inodesCount fix scan = scan.countChecked := by
  have inode : scan.countChecked.checkInode inodesCount fix = scan.countChecked := if_neg sound.1
  rw [checkEntry, inode]
  exact if_neg sound.2

lemma checkName_errors : scan.tally.errors ≤ (scan.checkName fix).tally.errors := by
  unfold DirScan.checkName
  split
  · cases fix <;> exact le_succ _
  · exact le_refl _

lemma checkEntry_faulty (faulty : ¬SoundEntry inodesCount scan) (fix : Bool) :
    scan.tally.errors < (checkEntry inodesCount fix scan).tally.errors := by
  rw [checkEntry]
  by_cases inode : scan.inode ≠ 0 ∧ scan.inode > inodesCount
  · refine lt_of_lt_of_le ?_ checkName_errors
    rw [DirScan.checkInode, if_pos (show scan.countChecked.inode ≠ 0 ∧
      scan.countChecked.inode > inodesCount from inode)]
    cases fix <;> exact lt_succ_self _
  · have name : scan.nameLen > 250 := by
      by_contra short
      exact faulty ⟨inode, short⟩
    have same : scan.countChecked.checkInode inodesCount fix = scan.countChecked := if_neg inode
    rw [same, DirScan.checkName, if_pos (show scan.countChecked.nameLen > 250 from name)]
    cases fix <;> exact lt_succ_self _

lemma checkEntry_errors (inodesCount : Nat) (fix : Bool) (scan : DirScan) :
    scan.tally.errors ≤ (checkEntry inodesCount fix scan).tally.errors := by
  by_cases sound : SoundEntry inodesCount scan
  · rw [checkEntry_sound sound]
    exact le_refl _
  · exact le_of_lt (checkEntry_faulty sound fix)

lemma entryLoop_errors (inodesCount blockSize : Nat) (fix : Bool) (left : Nat) (scan : DirScan) :
    scan.tally.errors ≤ (entryLoop inodesCount blockSize fix left scan).tally.errors := by
  induction left generalizing scan with
  | zero => exact le_refl _
  | succ left ih =>
    rw [entryLoop]
    split
    · split
      · exact le_refl _
      split
      · exact le_succ _
      have one := checkEntry_errors inodesCount fix scan
      dsimp only
      split
      · exact one
      · exact le_trans one (ih (checkEntry inodesCount fix scan).advance)
    · exact le_refl _

/-- Without an error the repairs make no difference. -/
lemma entryLoop_clean {fix : Bool} {left : Nat}
    (clean : (entryLoop inodesCount blockSize fix left scan).tally.errors = scan.tally.errors)
    (fix' : Bool) : entryLoop inodesCount blockSize fix' left scan =
      entryLoop inodesCount blockSize fix left scan := by
  induction left generalizing scan with
  | zero => rfl
  | succ left ih =>
    rw [entryLoop] at clean
    rw [entryLoop, entryLoop]
    split at clean
    · rename_i inside
      rw [if_pos inside, if_pos inside]
      split at clean
      · rename_i done
        rw [if_pos done, if_pos done]
      rename_i more
      rw [if_neg more, if_neg more]
      split at clean
      · exact absurd clean (succ_ne_self _)
      rename_i long
      rw [if_neg long, if_neg long]
      have sound : SoundEntry inodesCount scan := by
        by_contra faulty
        have one := checkEntry_faulty faulty fix
        have rest := entryLoop_errors inodesCount blockSize fix left
          (checkEntry inodesCount fix scan).advance
        dsimp only at clean
        split at clean
        · omega
        · rw [advance_tally] at rest
          omega
      rw [checkEntry_sound sound, checkEntry_sound sound]
      rw [checkEntry_sound sound] at clean
      dsimp only at clean ⊢
      split at clean
      · rename_i stops
        rw [if_pos stops, if_pos stops]
      · rename_i goes
        rw [if_neg goes, if_neg goes]
        exact ih clean
    · rename_i outside
      rw [if_neg outside, if_neg outside]

lemma blockLoop_errors {t' : Tally}
    (run : blockLoop env d inodesCount blockSize inode fix fuel off t = some t') :
    t.errors ≤ t'.errors := by
  induction fuel generalizing off t with
  | zero => cases run
  | succ fuel ih =>
    rw [blockLoop] at run
    split at run
    · dsimp only at run
      split at run
      · cases run
        exact le_refl _
      split at run
      · cases run
        exact le_succ _
      · rename_i buf read
        have one := entryLoop_errors inodesCount blockSize fix blockSize
          ⟨inMemory env blockSize buf, off % blockSize, off, t⟩
        exact le_trans one (ih run)
    · cases run
      exact le_refl _

lemma blockLoop_clean {t₁ t₂ : Tally}
    (run : blockLoop env d inodesCount blockSize inode fix fuel off t = some t₁)
    (clean : t₁.errors = t.errors)
    (run' : blockLoop env d inodesCount blockSize inode fix' fuel' off t = some t₂) : t₂ = t₁ := by
  induction fuel generalizing off t fuel' with
  | zero => cases run
  | succ fuel ih =>
    cases fuel' with
    | zero => cases run'
    | succ fuel' =>
      rw [blockLoop] at run run'
      split at run
      · rename_i inside
        rw [if_pos inside] at run'
        dsimp only at run run'
        split at run
        · rename_i ends
          rw [if_pos ends] at run'
          exact some.inj (run'.symm.trans run)
        rename_i more
        rw [if_neg more] at run'
        cases read : readFsBlock d blockSize (leRead inode (40 + 4 * (off / blockSize)) 4) with
        | none =>
          rw [read] at run run'
          exact some.inj (run'.symm.trans run)
        | some buf =>
          rw [read] at run run'
          dsimp only at run run'
          have one := entryLoop_errors inodesCount blockSize fix blockSize
            ⟨inMemory env blockSize buf, off % blockSize, off, t⟩
          have rest := blockLoop_errors run
          dsimp only at one
          have clean₁ : (entryLoop inodesCount blockSize fix blockSize
              ⟨inMemory env blockSize buf, off % blockSize, off, t⟩).tally.errors = t.errors := by
            omega
          rw [entryLoop_clean clean₁ fix'] at run'
          exact ih run (clean.trans clean₁.symm) run'
      · rename_i outside
        rw [if_neg outside] at run'
        exact some.inj (run'.symm.trans run)

/-- The flag and the fuel matter in the loop over the blocks only. -/
lemma checkDirectory_cases (env : Env) (d : BlockDevice) (sb : Superblock) (blockSize inum : Nat)
    (t : Tally) :
    (∃ done, ∀ fuel fix, checkDirectory env fuel d sb blockSize inum fix t = some done) ∨
    ∃ inode, ∀ fuel fix, checkDirectory env fuel d sb blockSize inum fix t =
      (blockLoop env d sb.inodesCount blockSize inode fix fuel 0 t).map fun t => (0, t) := by
  unfold checkDirectory
  dsimp only
  split
  · exact .inl ⟨_, fun _ _ => rfl⟩
  split
  · exact .inl ⟨_, fun _ _ => rfl⟩
  split
  · exact .inl ⟨_, fun _ _ => rfl⟩
  split
  · exact .inl ⟨_, fun _ _ => rfl⟩
  · exact .inr ⟨_, fun _ _ => rfl⟩

lemma checkDirectory_clean {inum : Nat} {done done' : Int × Tally}
    (run : checkDirectory env fuel d sb blockSize inum fix t = some done)
    (clean : done.2.errors = t.errors)
    (run' : checkDirectory env fuel' d sb blockSize inum fix' t = some done') : done' = done := by
  rcases checkDirectory_cases env d sb blockSize inum t with ⟨same, all⟩ | ⟨inode, loops⟩
  · rw [all] at run run'
    exact some.inj (run'.symm.trans run)
  · rw [loops] at run run'
    obtain ⟨t₁, loop, rfl⟩ := map_eq_some_iff.mp run
    obtain ⟨t₂, loop', rfl⟩ := map_eq_some_iff.mp run'
    rw [blockLoop_clean loop clean loop']

lemma SameDisk.push_twice (p : Patch) : SameDisk (d.push [p]) ((d.push [p]).push [p]) where
  blockSize := rfl
  totalSectors := rfl
  data := by
    funext i
    show blit (blit d.data p.addr p.len p.bytes) p.addr p.len p.bytes i =
      blit d.data p.addr p.len p.bytes i
    unfold blit
    split <;> rfl

lemma SameDisk.phases (same : SameDisk d d') (sb : Superblock) (blockSize : Nat) (st : Stats) :
    Fsck.phases env fuel d' sb blockSize fix st = Fsck.phases env fuel d sb blockSize fix st := by
  have loop : ∀ (fuel off : Nat) (t : Tally) (inode : Store) (n : Nat),
      blockLoop env d' n blockSize inode fix fuel off t =
        blockLoop env d n blockSize inode fix fuel off t := by
    intro fuel
    induction fuel with
    | zero => intros; rfl
    | succ fuel ih =>
      intro off t inode n
      simp only [blockLoop, same.readFsBlock, ih]
  simp only [Fsck.phases, checkGroupDescriptors, checkBitmaps, checkBitmap, checkDirectory,
    same.readFsBlock, loop]

/-- The superblock as the write of the repaired one leaves it: repaired, when it is the block
that is written, and untouched otherwise. -/
lemma diskSuper_push (env : Env) {block : Nat} (behind : 1 ≤ block)
    (accepted : Accepted (ofRaw (diskSuper d))) :
    let size := (ofRaw (diskSuper d)).blockSize
    let after := d.push [blockPatch size (block, markValid (superBuffer env d))]
    (∀ i < 1024, diskSuper after i = markValid (superBuffer env d) i) ∨
    ∀ i < 1024, diskSuper after i = diskSuper d i := by
  intro size after
  have wide : 1024 ≤ size := accepted.blockSize.1
  by_cases same : size = 1024 ∧ block = 1
  · refine .inl fun i inside => ?_
    have bytes : after.data (1 * size + i) = _ := push_blockPatch (lt_of_lt_of_le inside wide)
    rw [if_pos same.2.symm, same.1] at bytes
    exact bytes
  · refine .inr fun i inside => ?_
    have gap : 2 * 1024 ≤ block * size := by
      rcases lt_or_ge 1 block with more | one
      · exact Nat.mul_le_mul more wide
      · obtain rfl : block = 1 := le_antisymm one behind
        have multiple : 1024 ∣ size := blockSize_dvd _
        omega
    exact Patch.apply_of_avoids (.inl (show 1024 + i < block * size by omega))

lemma Accepted.state {state : Nat} (accepted : Accepted sb) :
    Accepted { sb with state := state } :=
  ⟨accepted.magic, accepted.blockSize, accepted.counts, accepted.perGroup⟩

lemma repaired_again (env : Env) (sectors : d.blockSize = 512)
    (accepted : Accepted (ofRaw (diskSuper d)))
    (inside : (ofRaw (diskSuper d)).firstDataBlock <
      (ofRaw (diskSuper d)).blocksCount) :
    ofRaw (diskSuper (repaired env d)) =
        { ofRaw (diskSuper d) with state := ext2ValidFs } ∨
    ofRaw (diskSuper (repaired env d)) = ofRaw (diskSuper d) ∧
      SameDisk (repaired env d) (repaired env (repaired env d)) := by
  have small : (ofRaw (diskSuper d)).blocksCount < 2 ^ 32 := leRead_lt ..
  have target : ((ofRaw (diskSuper d)).firstDataBlock + 1) % 2 ^ 32 =
      (ofRaw (diskSuper d)).firstDataBlock + 1 := mod_eq_of_lt (by omega)
  have once : repaired env d = _ :=
    congrArg (getD · d) (writeFsBlock_eq sectors (sector_dvd _))
  rw [target] at once
  split at once
  · next range =>
      change repaired env d = d.push _ at once
      rcases diskSuper_push env (le_add_left 1 _) accepted with valid | kept
      · left
        rw [once, ofRaw_congr valid, ofRaw_markValid, ofRaw_superBuffer]
      right
      generalize repaired env d = after at once ⊢
      subst once
      have super := ofRaw_congr kept
      have buffer := superBuffer_congr env kept
      refine ⟨super, ?_⟩
      unfold repaired
      dsimp only
      rw [super, buffer, writeFsBlock_eq (d := d.push _) sectors (sector_dvd _), target,
        if_pos (show (d.push _).inRange _ _ = true from range)]
      exact SameDisk.push_twice _
  · rw [once]
    exact .inr ⟨rfl, once.symm ▸ SameDisk.refl d⟩

lemma blockDevRead_repaired (env : Env) {buf : Store} (read : blockDevRead d 2 2 = some buf) :
    ∃ buf', blockDevRead (repaired env d) 2 2 = some buf' := by
  have range : d.inRange 2 2 = true := by
    unfold blockDevRead at read
    split at read
    · next range => exact range
    · cases read
  have same : (repaired env d).totalSectors = d.totalSectors := by
    unfold repaired writeFsBlock blockDevWrite
    dsimp only
    split <;> rfl
  rw [BlockDevice.inRange, ← same] at range
  exact ⟨_, if_pos range⟩

lemma blockSize_repaired (env : Env) (d : BlockDevice) :
    (repaired env d).blockSize = d.blockSize := by
  unfold repaired writeFsBlock blockDevWrite
  dsimp only
  split <;> rfl

/-- The superblock phase of a second run finds the same geometry and leaves the bytes of the
device as they are. -/
lemma checkSuperblock_again {buf : Store} (sectors : d.blockSize = 512)
    (read : blockDevRead d 2 2 = some buf) (accepted : Accepted (ofRaw (diskSuper d)))
    (inside : (ofRaw (diskSuper d)).firstDataBlock < (ofRaw (diskSuper d)).blocksCount)
    (after : d' = if NeedsRepair true (ofRaw (diskSuper d)) then repaired env d else d)
    (fix : Bool) (t : Tally) :
    ∃ state fixed d'', checkSuperblock env d' fix t =
        (.checked { ofRaw (diskSuper d) with state := state }
            (ofRaw (diskSuper d)).blockSize, d'',
          { t with checked := t.checked + 1, fixed := fixed }) ∧ SameDisk d' d'' := by
  by_cases needs : NeedsRepair true (ofRaw (diskSuper d))
  · rw [if_pos needs] at after
    subst after
    have sectors' := (blockSize_repaired env d).trans sectors
    obtain ⟨buf', read'⟩ := blockDevRead_repaired env read
    rcases repaired_again env sectors accepted inside with valid | ⟨super, same⟩
    · obtain ⟨state, fixed, phase⟩ :=
        checkSuperblock_accepted env fix t sectors' read' (valid ▸ accepted.state)
      rw [if_neg fun again => again.2 (by rw [valid]), valid] at phase
      exact ⟨state, fixed, _, phase, SameDisk.refl _⟩
    · obtain ⟨state, fixed, phase⟩ :=
        checkSuperblock_accepted env fix t sectors' read' (super ▸ accepted)
      rw [super] at phase
      refine ⟨state, fixed, _, phase, ?_⟩
      split
      · exact same
      · exact SameDisk.refl _
  · rw [if_neg needs] at after
    subst after
    obtain ⟨state, fixed, phase⟩ := checkSuperblock_accepted env fix t sectors read accepted
    have clean : ¬NeedsRepair fix (ofRaw (diskSuper d')) := fun again =>
      needs ⟨rfl, again.2⟩
    rw [if_neg clean] at phase
    exact ⟨state, fixed, _, phase, SameDisk.refl _⟩

variable {flags flags' : BitVec 32} {st₁ st₂ : Stats} {code : Code}

/-- The errors of the phases behind the superblock are found again, whatever the flags. -/
lemma phases_again {state state' : Nat} {t t' : Tally} {st st' : Stats}
    (run : phases env fuel d { sb with state := state } blockSize fix { superblock := t } = some st)
    (run' : phases env fuel' d { sb with state := state' } blockSize fix' { superblock := t' } =
      some st')
    (clean : st'.totalErrors = t'.errors) : st.totalErrors = t.errors := by
  obtain ⟨dirs, directory, rfl⟩ := map_eq_some_iff.mp run
  obtain ⟨dirs', directory', rfl⟩ := map_eq_some_iff.mp run'
  simp only [Stats.totalErrors] at clean ⊢
  have zero : dirs'.2.errors = 0 := by omega
  rw [checkDirectory_clean directory' zero directory]
  change _ + (checkGroupDescriptors env d { sb with state := state' } blockSize {}).2.errors +
    (checkBitmaps env d { sb with state := state' } blockSize {} {}).2.1.errors +
    (checkBitmaps env d { sb with state := state' } blockSize {} {}).2.2.errors + _ = _
  omega

lemma fsckRun_phases {st : Stats} {t : Tally} {d₁ d₂ : BlockDevice}
    (phase : checkSuperblock env d (flags &&& fsckFlagFix != 0) st.superblock =
      (.checked sb blockSize, d₁, t))
    (run : fsckRun env fuel d flags st = (some code, d₂, st₁)) :
    d₂ = d₁ ∧ code = st₁.code ∧
      phases env fuel d₁ sb blockSize (flags &&& fsckFlagFix != 0) { st with superblock := t } =
        some st₁ := by
  unfold fsckRun at run
  dsimp only at run
  rw [phase] at run
  dsimp only at run
  split at run
  · cases run
  · next done =>
      cases run
      exact ⟨rfl, rfl, done⟩

/-- After a run that reports all its errors as fixed, no run reports zero errors. -/
theorem fsckRun_again_errs (sectors : d.blockSize = 512)
    (inside : (ofRaw (diskSuper d)).firstDataBlock < (ofRaw (diskSuper d)).blocksCount)
    (fixes : flags &&& fsckFlagFix ≠ 0)
    (warns : fsckRun env fuel d flags {} = (some .warn, d', st₁)) :
    ∀ fuel' flags' code d'' st₂, fsckRun env fuel' d' flags' {} = (some code, d'', st₂) →
      st₂.totalErrors ≠ 0 := by
  have fixing : (flags &&& fsckFlagFix != 0) = true := bne_iff_ne.mpr fixes
  by_cases usable : (∃ buf, blockDevRead d 2 2 = some buf) ∧
      Accepted (ofRaw (diskSuper d))
  · obtain ⟨⟨buf, read⟩, accepted⟩ := usable
    obtain ⟨state, fixed, phase⟩ := checkSuperblock_accepted env true {} sectors read accepted
    obtain ⟨after, warn, done⟩ := fsckRun_phases (fixing.symm ▸ phase) warns
    rw [← after] at done
    rw [fixing] at after
    intro fuel' flags' code d'' st₂ again
    obtain ⟨state', fixed', d₂, phase', same⟩ := checkSuperblock_again sectors read accepted inside
      after (flags' &&& fsckFlagFix != 0) {}
    obtain ⟨-, -, done'⟩ := fsckRun_phases phase' again
    rw [same.phases] at done'
    intro clean
    have zero : st₁.totalErrors = 0 := phases_again done done' clean
    rw [Stats.code, if_pos zero] at warn
    cases warn
  · have rejected : blockDevRead d 2 2 = none ∨ ¬Accepted (ofRaw (diskSuper d)) := by
      rw [not_and_or, not_exists] at usable
      exact usable.imp_left eq_none_iff_forall_ne_some.mpr
    unfold fsckRun at warns
    dsimp only at warns
    rw [checkSuperblock_rejected sectors rejected] at warns
    cases warns

/-- A directory entry with an invalid inode number is reported as fixed, and found again. -/
theorem fsckRun_repeats_error : ((fsckRun plainEnv 4 (smallVolume ext2ValidFs 99) fsckFlagFix {}).1,
      (fsckRun plainEnv 4 (fsckRun plainEnv 4 (smallVolume ext2ValidFs 99) fsckFlagFix {}).2.1
        fsckFlagFix {}).1,
      (fsckRun plainEnv 4 (fsckRun plainEnv 4 (smallVolume ext2ValidFs 99) fsckFlagFix {}).2.1
        fsckFlagFix {}).2.2.totalErrors) = (some .warn, some .warn, 1) := by
  decide +kernel

theorem fsckRun_again_errs_entry :
    (fsckRun plainEnv 4 (smallVolume ext2ValidFs 99) fsckFlagFix {}).1 = some .warn ∧
      ∀ fuel' flags' code d'' st₂,
        fsckRun plainEnv fuel' (fsckRun plainEnv 4 (smallVolume ext2ValidFs 99) fsckFlagFix {}).2.1
          flags' {} = (some code, d'', st₂) → st₂.totalErrors ≠ 0 := by
  have warns : (fsckRun plainEnv 4 (smallVolume ext2ValidFs 99) fsckFlagFix {}).1 = some .warn := by
    decide +kernel
  have inside : (ofRaw (diskSuper (smallVolume ext2ValidFs 99))).firstDataBlock <
      (ofRaw (diskSuper (smallVolume ext2ValidFs 99))).blocksCount := by
    decide +kernel
  have fixes : fsckFlagFix &&& fsckFlagFix ≠ 0 := by decide
  generalize run : fsckRun plainEnv 4 (smallVolume ext2ValidFs 99) fsckFlagFix {} = done at warns ⊢
  obtain ⟨code, d', st⟩ := done
  obtain rfl : code = some .warn := warns
  exact ⟨rfl, fsckRun_again_errs rfl inside fixes run⟩

end AuroraOS.Fsck
