import AuroraOS.Fat32.Writing

/-!
# Runs of the FAT32 operations

The VFS keeps the inodes that `fat32_dir_lookup` makes and calls the operations of a mounted
volume on them.  A call is live if its inode still belongs to an entry that is reachable from the
root; `fat32_dir_rmdir` must also not be asked for "." or "..".
-/

namespace AuroraOS.Fat32

open Lib SbInfo Relation List Option

/-! ## Worlds -/

/-- A mounted volume and the inodes made so far, that of the root directory first. -/
structure World where
  s : SbInfo
  inodes : List Inode

def World.mount (s : SbInfo) (root : Nat) : World where
  s := s
  inodes := [{ firstCluster := root, isDir := true, fileSize := 0, parentCluster := 0,
               dirEntryOffset := 0 }]

inductive Call
  | lookup (i : Nat) (name : Name)
  | create (i : Nat) (name : Name)
  | mkdir (i : Nat) (name : Name)
  | rmdir (i : Nat) (name : Name)
  | unlink (i : Nat) (name : Name)
  | write (i : Nat) (buf : Store) (count offset : Nat) (clusterBuf : Store)

def cString (name : Name) : Name := name.takeWhile (· != 0)

lemma cString_terminated (name : Name) : 0 ∉ cString name := by
  intro mem
  have kept := all_takeWhile (l := name) (p := (· != 0))
  have nonzero := all_eq_true.mp kept 0 mem
  cases nonzero

namespace World

variable (w : World) (fuel : Nat)

def through (i : Nat) (op : InodeInfo → Option (SbInfo × Except Errno Unit)) : Option World :=
  w.inodes[i]?.bind fun info => (op info.toInodeInfo).map fun r => { w with s := r.1 }

/-- One call.  The operations table of a directory has no `write`. -/
def exec : Call → Option World
  | .lookup i name => w.inodes[i]?.bind fun info =>
    (dirLookup w.s info.toInodeInfo (cString name) fuel).map fun r =>
      match r with
      | .error _ => w
      | .ok inode => { w with inodes := w.inodes ++ [inode] }
  | .create i name => w.through i fun info => dirCreate w.s info (cString name) fuel
  | .mkdir i name => w.through i fun info => dirMkdir w.s info (cString name) fuel
  | .rmdir i name => w.through i fun info => dirRmdir w.s info (cString name) fuel
  | .unlink i name => w.through i fun info => dirUnlink w.s info (cString name) fuel
  | .write i buf count offset clusterBuf => w.inodes[i]?.bind fun info =>
    if info.isDir then some w
    else (fileWrite w.s info buf count offset clusterBuf fuel).map fun (s, info, _) =>
      { s := s, inodes := w.inodes.set i info }

/-- The inode is that of a directory that is reachable now, or of no directory. -/
def LiveDir (root i : Nat) : Prop :=
  ∀ info, w.inodes[i]? = some info → info.isDir = true → ∃ p, Reach w.s root info.firstCluster p

/-- The calls whose inode belongs to an entry that is reachable now. -/
def Live (root : Nat) : Call → Prop
  | .lookup i _ => w.LiveDir root i
  | .create i _ => w.LiveDir root i
  | .mkdir i _ => w.LiveDir root i
  | .rmdir i name => w.LiveDir root i ∧ cString name ≠ [dot] ∧ cString name ≠ [dot, dot]
  | .unlink i _ => w.LiveDir root i
  | .write i _ _ _ _ =>
    ∀ info, w.inodes[i]? = some info → info.isDir = false → FileAt w.s root info.firstCluster

def LiveStep (root : Nat) (w w' : World) : Prop :=
  ∃ fuel call, w.exec fuel call = some w' ∧ w.Live root call

end World

/-! ## Live runs -/

variable {w w' : World} {s s' : SbInfo} {root i p fuel : Nat} {name : Name}

/-- The volume is consistent, and the inodes of files know the place of an entry. -/
structure Kept (root : Nat) (w : World) : Prop where
  consistent : Consistent w.s root
  located : ∀ info ∈ w.inodes, info.isDir = false → info.Located w.s

lemma Inode.Located.of_same {info : Inode} (located : info.Located s) (same : SameShape s s') :
    info.Located s' := ⟨located.inside.of_same same, located.aligned⟩

lemma Kept.revised (kept : Kept root w) (revised : Revised w.s s' root) :
    Kept root { w with s := s' } := by
  obtain ⟨gone, more, new, rev⟩ := revised
  exact ⟨rev.consistent kept.consistent,
    fun info mem file => (kept.located info mem file).of_same rev.same⟩

lemma Kept.through (kept : Kept root w) (live : w.LiveDir root i)
    {op : InodeInfo → Option (SbInfo × Except Errno Unit)} (done : w.through i op = some w')
    (notDir : ∀ d, op ⟨d, false⟩ = some (w.s, .error .enotdir))
    (revises : ∀ {d p s' r}, Reach w.s root d p → op ⟨d, true⟩ = some (s', r) →
      Revised w.s s' root) : Kept root w' := by
  obtain ⟨⟨⟨d, isDir⟩, _⟩, known, done⟩ := bind_eq_some_iff.mp done
  obtain ⟨⟨s', r⟩, ran, rfl⟩ := map_eq_some_iff.mp done
  cases isDir with
  | false =>
    cases (notDir d).symm.trans ran
    exact kept
  | true =>
    obtain ⟨p, reach⟩ := live _ known rfl
    exact kept.revised (revises reach ran)

lemma dirLookup_located (old : Consistent s root) {info : InodeInfo} {inode : Inode}
    (reach : Reach s root info.firstCluster p)
    (done : dirLookup s info name fuel = some (.ok inode)) : inode.Located s := by
  rw [dirLookup] at done
  split at done
  · cases done
  obtain ⟨existing, looked, result⟩ := map_eq_some_iff.mp done
  cases existing with
  | error e => cases result
  | ok f =>
    cases result
    obtain ⟨cs, dir⟩ := old.sound.directory reach
    obtain ⟨k, existing, _, cluster, offset, _⟩ :=
      findEntry_found old.geometry (old.rows reach dir) dir looked
    obtain ⟨q, bound, place, _⟩ := slotAt_place old.geometry existing.1
    refine ⟨?_, ?_⟩
    · show s.InVolume f.dirCluster
      rw [cluster, place]
      exact dir.inside _ (getElem_mem bound)
    · show 32 ∣ f.dirOffset
      rw [offset]
      exact Nat.dvd_mul_left 32 _

lemma Kept.step (kept : Kept root w) (step : World.LiveStep root w w') : Kept root w' := by
  obtain ⟨fuel, call, done, live⟩ := step
  have old := kept.consistent
  unfold World.exec at done
  cases call with
  | lookup i name =>
    obtain ⟨info, known, done⟩ := bind_eq_some_iff.mp done
    obtain ⟨r, looked, rfl⟩ := map_eq_some_iff.mp done
    cases r with
    | error e => exact kept
    | ok inode =>
      refine ⟨old, fun other mem file => ?_⟩
      rcases mem_append.mp mem with early | late
      · exact kept.located other early file
      obtain rfl := mem_singleton.mp late
      cases isDir : info.isDir with
      | false =>
        rw [dirLookup, if_pos isDir] at looked
        cases looked
      | true =>
        obtain ⟨p, reach⟩ := live info known isDir
        exact dirLookup_located old reach looked
  | create i name =>
    exact kept.through live done (fun _ => rfl) fun reach ran =>
      DirOp.create.revised old (cString_terminated name) reach ran
  | mkdir i name =>
    exact kept.through live done (fun _ => rfl) fun reach ran =>
      DirOp.mkdir.revised old (cString_terminated name) reach ran
  | rmdir i name =>
    exact kept.through live.1 done (fun _ => rfl) fun reach ran =>
      rmdir_revised old reach live.2 ran
  | unlink i name =>
    exact kept.through live done (fun _ => rfl) fun reach ran => dirUnlink_revised old reach ran
  | write i buf count offset clusterBuf =>
    obtain ⟨info, known, done⟩ := bind_eq_some_iff.mp done
    split at done
    · cases done
      exact kept
    case isFalse file =>
      have file := Bool.eq_false_iff.mpr file
      obtain ⟨⟨s', info', r⟩, ran, rfl⟩ := map_eq_some_iff.mp done
      have located := kept.located info (mem_of_getElem? known) file
      have revised := kept.revised (fileWrite_revised old (live info known file) located ran)
      obtain ⟨own, holds⟩ := (live info known file).holds old.sound
      obtain ⟨⟨new, ext⟩, size, rfl⟩ := fileWrite_extension old.geometry holds located ran
      refine ⟨revised.consistent, fun other mem isFile => ?_⟩
      rcases mem_or_eq_of_mem_set mem with before | rfl
      · exact revised.located other before isFile
      · exact ⟨located.inside.of_same ext.same, located.aligned⟩

lemma Kept.run (kept : Kept root w) (run : ReflTransGen (World.LiveStep root) w w') :
    Kept root w' := by
  induction run with
  | refl => exact kept
  | tail _ step ih => exact ih.step step

/-- In every run of live calls on a consistent volume, the chains of the reachable entries end,
hold no free cluster and are pairwise disjoint. -/
theorem sound_of_live_run (old : Consistent s root)
    (run : ReflTransGen (World.LiveStep root) (World.mount s root) w) : Sound w.s root := by
  have start : Kept root (World.mount s root) := by
    refine ⟨old, fun info mem file => ?_⟩
    rw [mem_singleton.mp mem] at file
    cases file
  exact (start.run run).consistent.sound

/-! ## A fresh volume -/

lemma consistent_of_empty {cs : List Nat} (g : Geometry s) (sector : 512 ≤ s.bytesPerSector)
    (dir : Directory s root cs) (blank : ∀ k, k < s.rowLength cs → (s.slotAt cs k).raw 0 = 0) :
    Consistent s root := by
  have none : ∀ {k}, ¬ s.Existing cs k :=
    fun existing => existing.nonzero (blank _ existing.1)
  have unlisted : ∀ {k raw}, ¬ Lists s root k raw := by
    rintro k raw ⟨cs', dir', existing, _⟩
    cases dir'.unique dir
    exact none existing
  have alone : ∀ {d p}, Reach s root d p → d = root := by
    intro d p reach
    induction reach with
    | root => rfl
    | child _ lists _ ih =>
      rw [ih] at lists
      exact absurd lists unlisted
  have unnamed : ∀ {o c}, Names s root o c → o = Option.none := by
    intro o c names
    cases names with
    | root => rfl
    | entry reach lists =>
      rw [alone reach] at lists
      exact absurd lists unlisted
  refine ⟨g, sector, ⟨⟨cs, dir⟩, fun reach lists _ => ?_, fun _ dir' => dir'.used,
    fun names names' _ _ _ _ => (unnamed names).trans (unnamed names').symm⟩,
    fun {d p cs'} reach dir' => ?_⟩
  · rw [alone reach] at lists
    exact absurd lists unlisted
  · rw [alone reach] at dir' ⊢
    cases dir'.unique dir
    exact ⟨fun _ inside _ => blank _ inside, fun existing => absurd existing none,
      fun existing => absurd existing none⟩

abbrev emptyVolume : SbInfo := smallVolume fun _ => 0

lemma emptyVolume_consistent : Consistent emptyVolume 2 := by
  refine consistent_of_empty (smallVolume_geometry _) (show 512 ≤ 512 from le_rfl)
    (smallVolume_directory _) ?_
  decide +kernel

/-- A file and a directory are made in the root directory, and the file is deleted. -/
theorem sound_of_live_run_emptyVolume : Consistent emptyVolume 2 ∧
    ∃ w, ReflTransGen (World.LiveStep 2) (World.mount emptyVolume 2) w ∧ Sound w.s 2 := by
  have value : (((World.mount emptyVolume 2).exec 5 (.create 0 [0x78])).bind fun w =>
      (w.exec 5 (.mkdir 0 [0x64])).bind fun w => w.exec 5 (.unlink 0 [0x78])).isSome = true := by
    decide +kernel
  obtain ⟨w, done⟩ := isSome_iff_exists.mp value
  obtain ⟨w1, first, done⟩ := bind_eq_some_iff.mp done
  obtain ⟨w2, second, third⟩ := bind_eq_some_iff.mp done
  have unmoved : ∀ {w w' : World} {f}, w.through 0 f = some w' → w'.inodes = w.inodes := by
    intro w w' f done
    obtain ⟨info, _, done⟩ := bind_eq_some_iff.mp done
    obtain ⟨r, _, rfl⟩ := map_eq_some_iff.mp done
    rfl
  have live : ∀ {w : World}, w.inodes = (World.mount emptyVolume 2).inodes → w.LiveDir 2 0 := by
    intro w same info known _
    rw [same] at known
    cases known
    exact ⟨2, .root⟩
  have same1 := unmoved (f := fun info => dirCreate emptyVolume info (cString [0x78]) 5) first
  have same2 := unmoved (f := fun info => dirMkdir w1.s info (cString [0x64]) 5) second
  have run : ReflTransGen (World.LiveStep 2) (World.mount emptyVolume 2) w :=
    ((ReflTransGen.single ⟨5, .create 0 [0x78], first, live rfl⟩).tail
      ⟨5, .mkdir 0 [0x64], second, live same1⟩).tail
        ⟨5, .unlink 0 [0x78], third, live (same2.trans same1)⟩
  exact ⟨emptyVolume_consistent, w, run, sound_of_live_run emptyVolume_consistent run⟩

/-! ## Calls that are not live -/

def ListsHere (s : SbInfo) (d k c : Nat) : Prop :=
  (2 ≤ d ∧ d < s.totalClusters + 2 ∧ clusterEocMin ≤ s.getCluster d) ∧
  (k < s.rowLength [d] ∧ (s.slotAt [d] k).isFree = false ∧
    ∀ j, j < k → (s.slotAt [d] j).raw 0 ≠ 0) ∧
  ((s.slotAt [d] k).raw 11 ≠ attrLfn ∧ (s.slotAt [d] k).raw 11 &&& attrVolumeId = 0 ∧
    (s.slotAt [d] k).raw 0 ≠ dot) ∧ startCluster (s.slotAt [d] k).raw = c

instance (s : SbInfo) (d k c : Nat) : Decidable (ListsHere s d k c) :=
  inferInstanceAs (Decidable (_ ∧ _))

lemma ListsHere.lists {d k c : Nat} (here : ListsHere s d k c) : Directory s d [d] ∧
    Lists s d k (s.slotAt [d] k).raw ∧ startCluster (s.slotAt [d] k).raw = c := by
  obtain ⟨⟨low, high, ends⟩, existing, ⟨short, named, proper⟩, target⟩ := here
  have dir : Directory s d [d] := Directory.single ⟨low, high⟩ ends
  exact ⟨dir, ⟨[d], dir, existing, rfl, short, named, proper⟩, target⟩

lemma not_sound_of_free {k c : Nat} (here : ListsHere s root k c) (low : 2 ≤ c)
    (free : s.getCluster c = clusterFree) : ¬ Sound s root := by
  intro sound
  obtain ⟨_, lists, rfl⟩ := here.lists
  obtain ⟨cs, dir⟩ := sound.chains .root lists (.inr low)
  exact dir.used _ dir.first_mem free

lemma not_sound_of_cycle {k k' c : Nat} (here : ListsHere s root k c)
    (isDir : isDirectory (s.slotAt [root] k).raw = true) (there : ListsHere s c k' root) :
    ¬ Sound s root := by
  intro sound
  obtain ⟨dir, lists, rfl⟩ := here.lists
  obtain ⟨_, lists', target⟩ := there.lists
  have named := Names.entry (.child .root lists isDir) lists'
  rw [target] at named
  cases sound.name_unique named .root dir

def strayEntry : Store := fun b =>
  if b = 0 then 0x45 else if b = 11 then attrArchive else if b = 26 then 2 else 0

/-- Two runs that leave an unsound volume: "." of a new directory is removed; a file is deleted,
its cluster goes to a new directory, and the inode of the file is written through. -/
theorem unsound_runs : Consistent emptyVolume 2 ∧
    (∃ w1 w2 w3, (World.mount emptyVolume 2).exec 5 (.mkdir 0 [0x64]) = some w1 ∧
      w1.exec 5 (.lookup 0 [0x64]) = some w2 ∧ w2.exec 5 (.rmdir 1 [dot]) = some w3 ∧
      ¬ Sound w3.s 2) ∧
    ∃ w1 w2 w3 w4 w5, (World.mount emptyVolume 2).exec 5 (.create 0 [0x78]) = some w1 ∧
      w1.exec 5 (.lookup 0 [0x78]) = some w2 ∧ w2.exec 5 (.unlink 0 [0x78]) = some w3 ∧
      w3.exec 5 (.mkdir 0 [0x64]) = some w4 ∧
      w4.exec 40 (.write 1 strayEntry 32 64 fun _ => 0) = some w5 ∧ ¬ Sound w5.s 2 := by
  refine ⟨emptyVolume_consistent, ?_, ?_⟩
  · have value : (((World.mount emptyVolume 2).exec 5 (.mkdir 0 [0x64])).bind fun w =>
        (w.exec 5 (.lookup 0 [0x64])).bind fun w => w.exec 5 (.rmdir 1 [dot])).any (fun w =>
          decide (ListsHere w.s 2 1 3 ∧ w.s.getCluster 3 = clusterFree)) = true := by
      decide +kernel
    obtain ⟨w3, done, bad⟩ := (any_eq_true _ _).mp value
    obtain ⟨w1, first, done⟩ := bind_eq_some_iff.mp done
    obtain ⟨w2, second, third⟩ := bind_eq_some_iff.mp done
    obtain ⟨here, free⟩ := of_decide_eq_true bad
    exact ⟨w1, w2, w3, first, second, third, not_sound_of_free here (by decide) free⟩
  · have value : (((World.mount emptyVolume 2).exec 5 (.create 0 [0x78])).bind fun w =>
        (w.exec 5 (.lookup 0 [0x78])).bind fun w => (w.exec 5 (.unlink 0 [0x78])).bind fun w =>
          (w.exec 5 (.mkdir 0 [0x64])).bind fun w =>
            w.exec 40 (.write 1 strayEntry 32 64 fun _ => 0)).any (fun w =>
          decide (ListsHere w.s 2 1 3 ∧ isDirectory (w.s.slotAt [2] 1).raw = true ∧
            ListsHere w.s 3 2 2)) = true := by
      decide +kernel
    obtain ⟨w5, done, bad⟩ := (any_eq_true _ _).mp value
    obtain ⟨w1, first, done⟩ := bind_eq_some_iff.mp done
    obtain ⟨w2, second, done⟩ := bind_eq_some_iff.mp done
    obtain ⟨w3, third, done⟩ := bind_eq_some_iff.mp done
    obtain ⟨w4, fourth, fifth⟩ := bind_eq_some_iff.mp done
    obtain ⟨here, isDir, there⟩ := of_decide_eq_true bad
    exact ⟨w1, w2, w3, w4, w5, first, second, third, fourth, fifth,
      not_sound_of_cycle here isDir there⟩

end AuroraOS.Fat32
