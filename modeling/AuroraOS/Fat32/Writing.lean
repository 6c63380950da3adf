import AuroraOS.Fat32.Removal
import AuroraOS.Fat32.Transfer

/-!
# Writing to a file of the tree

`fat32_file_write` links free clusters behind the chain of the file, writes to clusters of the
chain, and stores the size in the directory entry.  For a file without a chain the data goes to a
sector outside the volume.
-/

namespace AuroraOS.Fat32

open Lib Block SbInfo List Option Function

variable {s s' t : SbInfo} {root c d n p target : Nat} {cs own new : List Nat} {buf : Store}

/-! ## Clusters written -/

/-- The FAT is as before, and so are the clusters but those of `own`, up to the sizes in
directory entries. -/
structure Touched (s s' : SbInfo) (own : List Nat) : Prop where
  same : SameShape s s'
  fat : ∀ {x}, s.InVolume x → s'.getCluster x = s.getCluster x
  data : ∀ {x b}, s.InVolume x → x ∉ own → b % 32 < 28 → s'.clusterData x b = s.clusterData x b

lemma Touched.refl (s : SbInfo) (own : List Nat) : Touched s s own :=
  ⟨SameShape.refl s, fun _ => rfl, fun _ _ _ => rfl⟩

lemma Touched.trans (one : Touched s s' own) (two : Touched s' t own) : Touched s t own := by
  refine ⟨one.same.trans two.same, fun inside => ?_, fun inside outside field => ?_⟩
  · rw [two.fat (inside.of_same one.same), one.fat inside]
  · rw [two.data (inside.of_same one.same) outside field, one.data inside outside field]

lemma writeCluster_low (g : Geometry s) (low : target < 2)
    (wrote : s.writeCluster target buf = some s') : s' = s.wrote (target + 2 ^ 32) buf := by
  have number : (target + 2 ^ 32 - 2) % 2 ^ 32 = target + 2 ^ 32 - 2 := Nat.mod_eq_of_lt (by omega)
  have addr : s.clusterToSector target * s.bdev.blockSize = s.clusterAddr (target + 2 ^ 32) := by
    rw [SbInfo.clusterToSector, number, g.sector, SbInfo.clusterAddr]
  have size : s.sectorsPerCluster * s.bdev.blockSize = s.clusterSize := by
    rw [g.sector, g.clusterSize]
  obtain ⟨device, written, rfl⟩ := map_eq_some_iff.mp wrote
  rw [blockDevWrite] at written
  split at written
  · cases written
    rw [addr, size]
    rfl
  · cases written

lemma writeCluster_touched (g : Geometry s)
    (valid : target ∈ own ∧ s.InVolume target ∨ target < 2)
    (wrote : s.writeCluster target buf = some s') : Touched s s' own := by
  rcases valid with ⟨mem, inside⟩ | low
  · rw [writeCluster_eq g inside] at wrote
    cases wrote
    have left := wrote_leaves g inside buf
    refine ⟨left.same, fun insideX => left.fat _ insideX, fun {x b} insideX outside _ => ?_⟩
    have other : x ≠ target := fun same => outside (same ▸ mem)
    rw [left.data x insideX, update_of_ne other]
  · rw [writeCluster_low g low wrote]
    refine ⟨wrote_same .., fun insideX => getCluster_wrote g insideX, fun {x b} insideX _ _ => ?_⟩
    have small := insideX.numbers g
    unfold clusterEocMin at small
    rw [clusterData_wrote_other g (by omega) insideX.1 (by omega)]

def Holds (s : SbInfo) (c : Nat) (own : List Nat) : Prop := Directory s c own ∨ c < 2 ∧ own = []

lemma Holds.touched (holds : Holds s c own) (touched : Touched s s' own) : Holds s' c own :=
  holds.imp_left fun dir =>
    dir.congr touched.same fun x mem => touched.fat (dir.inside x mem)

lemma getNthCluster_cases (holds : Holds s c own) (n : Nat) :
    s.getNthCluster c n = clusterEocMax ∨
      (s.getNthCluster c n ∈ own ∧ s.InVolume (s.getNthCluster c n) ∨ s.getNthCluster c n < 2) := by
  rcases holds with dir | ⟨low, _⟩
  · have walk : s.getNthCluster c n = clusterEocMax ∨ s.getNthCluster c n ∈ own := by
      induction n generalizing c own with
      | zero => exact .inr dir.first_mem
      | succ n ih =>
        obtain ⟨rest, rfl, _, behind⟩ := dir.cases
        rw [SbInfo.getNthCluster]
        rcases behind with ⟨_, ends⟩ | ⟨goes, next⟩
        · rw [if_pos ends]
          exact .inl rfl
        · rw [if_neg goes]
          exact (ih next).imp_right (mem_cons_of_mem _)
    exact walk.imp_right fun mem => .inl ⟨mem, dir.inside _ mem⟩
  · cases n with
    | zero => exact .inr (.inr low)
    | succ n =>
      have ends : clusterEocMin ≤ s.getCluster c := by
        rw [SbInfo.getCluster, if_pos (.inl low)]
        decide
      rw [SbInfo.getNthCluster, if_pos ends]
      exact .inl rfl

variable {l : Copy}

lemma Copy.writeChunk_touched {l' : Copy} (g : Geometry l.s)
    (valid : target ∈ own ∧ l.s.InVolume target ∨ target < 2)
    (wrote : l.writeChunk target = some l') : Touched l.s l'.s own := by
  obtain ⟨old, _, wrote⟩ := bind_eq_some_iff.mp wrote
  obtain ⟨s', inner, rfl⟩ := map_eq_some_iff.mp wrote
  exact writeCluster_touched g valid inner

variable {fuel count offset : Nat}

variable {fileSize last : Nat} {r : Transfer}

lemma Copy.loop_touched (g : Geometry l.s) (holds : Holds l.s c own)
    (done : Copy.loop true c fileSize fuel l = some r) :
    Touched l.s r.s own := by
  induction fuel generalizing l with
  | zero => cases done
  | succ fuel ih =>
    rw [Copy.loop] at done
    split at done
    case isFalse =>
      cases done
      exact Touched.refl ..
    case isTrue =>
      simp only at done
      split at done
      · cases done
        exact Touched.refl ..
      case isFalse onward =>
        have valid := (getNthCluster_cases holds _).resolve_left onward
        cases wrote : l.writeChunk (l.s.getNthCluster c (l.offset / l.s.clusterSize % 2 ^ 32)) with
        | none =>
          rw [if_pos trivial, wrote] at done
          cases done
          exact Touched.refl ..
        | some l' =>
          rw [if_pos trivial, wrote] at done
          have one := Copy.writeChunk_touched g valid wrote
          exact one.trans (ih (l := l'.advance l.chunk) (g.of_same one.same)
            (holds.touched one) done)

/-! ## Clusters appended -/

/-- Clusters of `own` are written, free clusters are taken, and those of `new` are linked behind
the chain of `c`. -/
structure Extension (s s' : SbInfo) (c : Nat) (own new : List Nat) : Prop where
  same : SameShape s s'
  holds : Holds s' c (own ++ new)
  fresh : ∀ x ∈ new, s.getCluster x = clusterFree
  fat : ∀ {x}, s.InVolume x → x ∉ own → s.getCluster x ≠ clusterFree →
    s'.getCluster x = s.getCluster x
  data : ∀ {x b}, s.InVolume x → x ∉ own → s.getCluster x ≠ clusterFree → b % 32 < 28 →
    s'.clusterData x b = s.clusterData x b

lemma Extension.refl (holds : Holds s c own) : Extension s s c own [] := by
  refine ⟨SameShape.refl s, ?_, nofun, fun _ _ _ => rfl, fun _ _ _ _ => rfl⟩
  rwa [append_nil]

lemma Extension.touched (one : Extension s s' c own new) (two : Touched s' t (own ++ new)) :
    Extension s t c own new := by
  refine ⟨one.same.trans two.same, one.holds.touched two, one.fresh, fun inside outside used => ?_,
    fun inside outside used field => ?_⟩
  · rw [two.fat (inside.of_same one.same), one.fat inside outside used]
  · rw [two.data (inside.of_same one.same) _ field, one.data inside outside used field]
    intro mem
    rcases mem_append.mp mem with old | new
    · exact outside old
    · exact used (one.fresh _ new)

lemma Grown.extension (grown : Grown s s' c own new) : Extension s s' c own new := by
  refine ⟨grown.same, .inl grown.chain, grown.fresh, fun inside outside used => ?_,
    fun inside _ _ _ => by rw [grown.data _ inside]⟩
  apply grown.fat _ inside
  intro mem
  rcases mem_append.mp mem with old | new
  · exact outside old
  · exact used (grown.fresh _ new)

lemma findLastCluster_last (g : Geometry s) (dir : Directory s c cs) {prev : Nat}
    (found : s.findLastCluster fuel prev c = some last) : last = cs.getLastD 0 := by
  induction fuel generalizing c cs prev with
  | zero => cases found
  | succ fuel ih =>
    obtain ⟨rest, rfl, inside, behind⟩ := dir.cases
    rw [SbInfo.findLastCluster, if_pos (inside.bounds g)] at found
    rcases behind with ⟨rfl, ends⟩ | ⟨goes, next⟩
    · rw [if_pos ends] at found
      cases found
      rfl
    · rw [if_neg goes] at found
      have later := ih next found
      obtain ⟨more, rfl, _⟩ := next.cases
      exact later

/-- Without a chain the clusters are taken and nothing links to them. -/
lemma extendChain_low (g : Geometry s) (low : c < 2) (more : Nat) :
    Extension s (SbInfo.extendChain more s c).1 c [] [] := by
  cases more with
  | zero => exact Extension.refl (.inr ⟨low, rfl⟩)
  | succ more =>
    by_cases none : s.findFreeCluster.2 = 0
    · rw [extendChain_none none]
      exact Extension.refl (.inr ⟨low, rfl⟩)
    have alone : s.appendCluster c = s.findFreeCluster := by
      rw [SbInfo.appendCluster, if_neg none, if_neg (by omega)]
    obtain ⟨inside, free, _⟩ := findFreeCluster_spec g none
    have marked := findFreeCluster_leaves g none
    rw [SbInfo.extendChain]
    simp only [alone]
    rw [if_neg none]
    generalize s.findFreeCluster = r at *
    obtain ⟨s1, first⟩ := r
    have single : Directory s1 first [first] := by
      refine Directory.single (inside.of_same marked.same) ?_
      rw [marked.fat first inside, update_self]
      decide
    obtain ⟨new, grown, -⟩ :
        ∃ new, Grown s1 (SbInfo.extendChain more s1 first).1 first [first] new ∧ _ :=
      extendChain_grown (g.of_same marked.same) single more
    -- a used cluster is neither the first one taken nor one of those behind it
    have kept : ∀ {x}, s.InVolume x → s.getCluster x ≠ clusterFree →
        s1.getCluster x = s.getCluster x := by
      intro x insideX used
      have other : x ≠ first := fun same => used (same ▸ free)
      rw [marked.fat x insideX, update_of_ne other]
    refine ⟨marked.same.trans grown.same, .inr ⟨low, rfl⟩, fun _ mem => absurd mem not_mem_nil,
      fun {x} insideX _ used => ?_, fun {x b} insideX _ _ _ => ?_⟩
    · rw [grown.fat x (insideX.of_same marked.same) _, kept insideX used]
      intro mem
      rcases mem_append.mp mem with mine | fresh
      · exact used (mem_singleton.mp mine ▸ free)
      · exact used ((kept insideX used).symm.trans (grown.fresh x fresh))
    · rw [grown.data x (insideX.of_same marked.same), marked.data x insideX]

lemma extendChain_extension (g : Geometry s) (holds : Holds s c own)
    (found : s.findLastCluster fuel c c = some last) (more : Nat) :
    ∃ new, Extension s (SbInfo.extendChain more s last).1 c own new := by
  rcases holds with dir | ⟨low, rfl⟩
  · rw [findLastCluster_last g dir found]
    obtain ⟨new, grown, -⟩ := extendChain_grown g dir more
    exact ⟨new, grown.extension⟩
  cases fuel with
  | zero => cases found
  | succ fuel =>
    rw [SbInfo.findLastCluster, if_neg (by omega)] at found
    cases found
    exact ⟨[], extendChain_low g low more⟩

variable {clusterBuf : Store}

lemma transferFile_extension (g : Geometry s) (holds : Holds s c own)
    (done : s.transferFile c fileSize buf count offset true clusterBuf fuel = some r) :
    ∃ new, Extension s r.s c own new := by
  obtain ⟨clusters, _, done⟩ := bind_eq_some_iff.mp done
  rw [if_pos rfl, SbInfo.writeFile] at done
  split at done
  · obtain ⟨last, found, done⟩ := bind_eq_some_iff.mp done
    simp only at done
    obtain ⟨new, one⟩ := extendChain_extension g holds found
      ((offset + count + s.clusterSize - 1) % 2 ^ 64 / s.clusterSize % 2 ^ 32 - clusters)
    split at done
    · exact ⟨new, one.touched (Copy.loop_touched (g.of_same one.same) one.holds done)⟩
    · cases done
      exact ⟨new, one⟩
  · have one := Extension.refl holds
    exact ⟨[], one.touched (Copy.loop_touched g one.holds done)⟩

/-! ## The size in the entry -/

structure Inode.Located (s : SbInfo) (info : Inode) : Prop where
  inside : s.InVolume info.parentCluster
  aligned : 32 ∣ info.dirEntryOffset

variable {info : Inode}

lemma updateSize_touched (g : Geometry s) (located : info.Located s)
    (newSize : Nat) (own : List Nat) : Touched s (s.updateSize info newSize) own := by
  have inside := located.inside
  obtain ⟨i, aligned⟩ := located.aligned
  rw [SbInfo.updateSize, if_pos (inside.bounds g), readCluster_eq g inside]
  simp only
  rw [writeCluster_eq g inside, getD_some]
  have left := wrote_leaves g inside
    (leWrite (s.clusterData info.parentCluster) (info.dirEntryOffset + 28) 4 newSize)
  refine ⟨left.same, fun insideX => left.fat _ insideX, fun {x b} insideX _ field => ?_⟩
  rw [left.data x insideX, update_apply]
  split
  case isFalse => rfl
  case isTrue here =>
    rw [here, SbInfo.clip]
    split
    case isTrue => rw [leWrite_outside (by omega)]
    case isFalse large => rw [SbInfo.clusterData, if_neg large]

variable {info' : Inode}

lemma fileWrite_extension (g : Geometry s)
    (holds : Holds s info.firstCluster own) (located : info.Located s) {r : Except Errno Nat}
    (done : fileWrite s info buf count offset clusterBuf fuel = some (s', info', r)) :
    (∃ new, Extension s s' info.firstCluster own new) ∧
      ∃ size, info' = { info with fileSize := size } := by
  obtain ⟨transfer, ran, result⟩ := map_eq_some_iff.mp done
  obtain ⟨new, one⟩ := transferFile_extension g holds ran
  cases outcome : transfer.result with
  | error e =>
    rw [outcome] at result
    cases result
    exact ⟨⟨new, one⟩, info.fileSize, rfl⟩
  | ok ret =>
    rw [outcome] at result
    simp only at result
    split at result
    · cases result
      have there : info.Located transfer.s :=
        ⟨located.inside.of_same one.same, located.aligned⟩
      exact ⟨⟨new, one.touched (updateSize_touched (g.of_same one.same) there _ _)⟩, _, rfl⟩
    · cases result
      exact ⟨⟨new, one⟩, info.fileSize, rfl⟩

/-! ## The revision -/

def FileAt (s : SbInfo) (root c : Nat) : Prop :=
  ∃ d p k raw, Reach s root d p ∧ Lists s d k raw ∧ isDirectory raw = false ∧ startCluster raw = c

lemma FileAt.names (file : FileAt s root c) : ∃ o, Names s root o c := by
  obtain ⟨d, p, k, raw, reach, lists, _, rfl⟩ := file
  exact ⟨_, .entry reach lists⟩

lemma FileAt.holds (sound : Sound s root) (file : FileAt s root c) : ∃ own, Holds s c own := by
  obtain ⟨o, named⟩ := file.names
  rcases lt_or_ge c 2 with low | high
  · exact ⟨[], .inr ⟨low, rfl⟩⟩
  · obtain ⟨own, dir⟩ := sound.chain named high
    exact ⟨own, .inl dir⟩

lemma FileAt.ne_directory (sound : Sound s root) (file : FileAt s root c)
    (reach : Reach s root d p) : d ≠ c := by
  rintro rfl
  obtain ⟨e, q, k, raw, above, lists, isFile, rfl⟩ := file
  obtain ⟨cs, dir⟩ := sound.directory reach
  have named : Names s root (some (e, k)) (startCluster raw) := .entry above lists
  generalize startCluster raw = c at named reach dir
  cases reach with
  | root => cases sound.name_unique named .root dir
  | child above' lists' isDir =>
    cases sound.name_unique named (.entry above' lists') dir
    rw [lists.unique lists', isDir] at isFile
    cases isFile

lemma Extension.revision (old : Consistent s root) (file : FileAt s root c)
    (holds : Holds s c own) (ext : Extension s s' c own new) :
    Revision s s' root none (fun x => if x = c then new else []) none := by
  obtain ⟨o, named⟩ := file.names
  -- another chain has no cluster in common with that of the file
  have others : ∀ {o' c' cs'}, Names s root o' c' → c' ≠ c → Directory s c' cs' →
      ∀ x ∈ cs', x ∉ own := by
    intro o' c' cs' named' different dir' x mem
    rcases holds with dir | ⟨_, rfl⟩
    · exact old.sound.foreign named' named different dir' dir mem
    · exact not_mem_nil
  have rows : ∀ {e q es k b}, Reach s root e q → Directory s e es → k < s.rowLength es → b < 28 →
      (s'.slotAt es k).raw b = (s.slotAt es k).raw b := by
    intro e q es k b reach dir inside field
    obtain ⟨o', named'⟩ := reach.names
    obtain ⟨i, bound, _, _, _, raw⟩ := slotAt_place old.geometry inside
    have mem := getElem_mem bound
    rw [raw s' ext.same b (by omega), raw s (SameShape.refl s) b (by omega)]
    exact ext.data (dir.inside _ mem)
      (others named' (file.ne_directory old.sound reach) dir _ mem) (dir.used _ mem)
      (by omega)
  refine ⟨ext.same, nofun, fun {o' c' cs'} named' _ dir' => ?_, fun {c' x} mem => ?_,
    fun {c' c'' x} mem mem' => ?_, fun {e q es} reach _ dir k inside => ?_,
    fun {e q es} reach _ dir _ long => ?_, nofun, nofun, nofun⟩
  · split
    case isTrue here =>
      subst here
      rcases holds with dir | ⟨low, _⟩
      · cases dir'.unique dir
        exact ext.holds.resolve_right fun none =>
          not_lt.mpr dir'.first_inside.1 none.1
      · exact absurd low (not_lt.mpr dir'.first_inside.1)
    case isFalse other =>
      rw [append_nil]
      exact dir'.congr ext.same fun x mem => ext.fat (dir'.inside x mem)
        (others named' other dir' x mem) (dir'.used x mem)
  · split at mem
    · exact ext.fresh x mem
    · cases mem
  · split at mem
    · split at mem'
      · exact ‹c' = c›.trans ‹c'' = c›.symm
      · cases mem'
    · cases mem
  · rw [if_neg (file.ne_directory old.sound reach), append_nil] at inside ⊢
    exact .kept inside (fun b field => rows reach dir inside field) fun _ _ => nofun
  · rw [if_neg (file.ne_directory old.sound reach), append_nil] at long
    rwa [rows reach dir (dir.rowLength_pos old.geometry) (by decide)] at long

lemma fileWrite_revised (old : Consistent s root)
    (file : FileAt s root info.firstCluster) (located : info.Located s) {r : Except Errno Nat}
    (done : fileWrite s info buf count offset clusterBuf fuel = some (s', info', r)) :
    Revised s s' root := by
  obtain ⟨own, holds⟩ := file.holds old.sound
  obtain ⟨new, ext⟩ := (fileWrite_extension old.geometry holds located done).1
  exact ⟨_, _, _, ext.revision old file holds⟩

end AuroraOS.Fat32
