import AuroraOS.Fat32.Filing

/-!
# Removing an entry

`fat32_rmdir` and `fat32_dir_unlink` look a name up, search the directory a second time for the
first entry with the same first cluster, mark that entry deleted, and free the chain.
-/

namespace AuroraOS.Fat32

open Lib SbInfo Function List Option Nat

variable {s s' t : SbInfo} {root c d i k p : Nat} {cs ds : List Nat} {name : Name} {f : Found}
  {lfn : List Store} {slots : List Slot} {raw : Store}

/-! ## The entry found -/

variable {slot : Slot}

lemma resolve_entry (resolved : slot.resolve name lfn = some f) :
    f.entry = slot.raw ∧ f.dirCluster = slot.cluster ∧ f.dirOffset = slot.index * 32 := by
  rw [Slot.resolve] at resolved
  split at resolved
  · cases resolved
    exact ⟨rfl, rfl, rfl⟩
  · split at resolved
    · cases resolved
      exact ⟨rfl, rfl, rfl⟩
    · cases resolved

lemma resolve_short (resolved : slot.resolve name [] = some f) :
    shortNameToStr slot.raw = name := by
  rw [Slot.resolve, if_neg fun long => absurd long.1 (by decide)] at resolved
  split at resolved
  · assumption
  · cases resolved

structure Hit (slots : List Slot) (i : Nat) (slot : Slot) : Prop where
  placed : slots[i]? = some slot
  used : slot.isFree = false
  short : slot.raw 11 ≠ attrLfn
  before : ∀ j slot', j < i → slots[j]? = some slot' → slot'.raw 0 ≠ 0

lemma Hit.head (used : slot.isFree = false) (short : slot.raw 11 ≠ attrLfn) :
    Hit (slot :: slots) 0 slot :=
  ⟨rfl, used, short, fun _ _ less => absurd less (not_lt_zero _)⟩

lemma Hit.tail {other : Slot} (some : other.raw 0 ≠ 0) (hit : Hit slots i slot) :
    Hit (other :: slots) (i + 1) slot := by
  refine ⟨hit.placed, hit.used, hit.short, fun j slot' less placed => ?_⟩
  cases j with
  | zero =>
    cases placed
    exact some
  | succ j => exact hit.before j slot' (lt_of_succ_lt_succ less) placed

lemma scanSlots_found (found : scanSlots name slots lfn = .found f) :
    ∃ i slot, Hit slots i slot ∧ slot.raw 11 &&& attrVolumeId = 0 ∧
      slot.resolve name ((slots.take i).foldl collect lfn) = some f := by
  induction slots generalizing lfn with
  | nil => cases found
  | cons slot slots ih =>
    have later : ∀ {lfn'}, slot.raw 0 ≠ 0 → collect lfn slot = lfn' →
        scanSlots name slots lfn' = .found f → ∃ i slot', Hit (slot :: slots) i slot' ∧
          slot'.raw 11 &&& attrVolumeId = 0 ∧
          slot'.resolve name (((slot :: slots).take i).foldl collect lfn) = some f := by
      rintro lfn' some rfl found
      obtain ⟨i, slot', hit, named, resolved⟩ := ih found
      exact ⟨i + 1, slot', hit.tail some, named, resolved⟩
    rw [scanSlots] at found
    by_cases ended : slot.raw 0 = 0
    · rw [if_pos ended] at found
      cases found
    rw [if_neg ended] at found
    by_cases deleted : slot.raw 0 = 0xE5
    · rw [if_pos deleted] at found
      have free : slot.isFree = true := by simp [Slot.isFree, deleted]
      exact later ended (if_neg fun both => by rw [free] at both; cases both.1) found
    rw [if_neg deleted] at found
    have used : slot.isFree = false := by simp [Slot.isFree, ended, deleted]
    by_cases long : slot.raw 11 = attrLfn
    · rw [if_pos long] at found
      exact later ended (if_pos ⟨used, long⟩) found
    rw [if_neg long] at found
    have dropped : collect lfn slot = [] := if_neg fun both => long both.2
    by_cases label : slot.raw 11 &&& attrVolumeId ≠ 0
    · rw [if_pos label] at found
      exact later ended dropped found
    rw [if_neg label] at found
    cases resolved : slot.resolve name lfn with
    | none =>
      rw [resolved] at found
      exact later ended dropped found
    | some g =>
      rw [resolved] at found
      cases found
      exact ⟨0, slot, .head used long, not_not.mp label, resolved⟩

lemma Hit.existing (hit : Hit (s.dirSlots cs) k slot) :
    slot = s.slotAt cs k ∧ s.Existing cs k := by
  obtain ⟨inside, rfl⟩ := List.getElem?_eq_some_iff.mp hit.placed
  have used := hit.used
  rw [dirSlots_getElem inside] at used ⊢
  rw [length_dirSlots] at inside
  refine ⟨rfl, inside, used, fun j less => ?_⟩
  have insideJ : j < (s.dirSlots cs).length := by
    omega
  apply hit.before j _ less
  rw [getElem?_eq_getElem insideJ, dirSlots_getElem insideJ]

variable {fuel : Nat}

lemma findEntry_found (g : Geometry s) (row : Orderly s cs d p) (dir : Directory s d cs)
    (looked : s.findEntry d name fuel = some (.ok f)) :
    ∃ k, s.Existing cs k ∧ f.entry = (s.slotAt cs k).raw ∧ f.dirCluster = (s.slotAt cs k).cluster ∧
      f.dirOffset = (s.slotAt cs k).index * 32 ∧ f.entry 11 ≠ attrLfn ∧
      f.entry 11 &&& attrVolumeId = 0 ∧
      (f.entry 0 = dot → isDirectory f.entry = true ∧ (name = [dot] ∨ name = [dot, dot])) := by
  have value := (findEntryFrom_eq g dir name [] fuel).2 _ looked
  cases scan : scanSlots name (s.dirSlots cs) [] with
  | ended => rw [scan] at value; cases value
  | more lfn => rw [scan] at value; cases value
  | found f' =>
    rw [scan] at value
    cases value
    obtain ⟨k, slot, hit, named, resolved⟩ := scanSlots_found scan
    obtain ⟨rfl, existing⟩ := hit.existing
    obtain ⟨entry, cluster, offset⟩ := resolve_entry resolved
    refine ⟨k, existing, entry, cluster, offset, ?_, ?_, fun dotted => ?_⟩
    · rw [entry]
      exact hit.short
    · rw [entry]
      exact named
    rw [entry] at dotted ⊢
    have dots := row.dots existing hit.short named dotted
    refine ⟨dots.isDir, ?_⟩
    have pending : ((s.dirSlots cs).take k).foldl collect [] = [] := by
      rcases dots.place with rfl | ⟨rfl, short⟩
      · rfl
      have inside : 0 < (s.dirSlots cs).length := by
        rw [length_dirSlots]
        exact lt_trans one_pos existing.1
      have first : (s.dirSlots cs)[0]? = some (s.slotAt cs 0) := by
        rw [getElem?_eq_getElem inside, dirSlots_getElem inside]
      obtain ⟨slot, rest, split⟩ := exists_cons_of_length_pos inside
      rw [split] at first ⊢
      cases first
      exact if_neg fun both => short both.2
    rw [pending] at resolved
    rw [← resolve_short resolved]
    exact dots.name

/-! ## The entry deleted -/

variable {wanted : Store → Bool}

lemma searchSlots_append (xs ys : List Slot) :
    searchSlots wanted (xs ++ ys) = match searchSlots wanted xs with
      | .more => searchSlots wanted ys
      | r => r := by
  induction xs with
  | nil => rfl
  | cons slot xs ih =>
    simp only [cons_append, searchSlots]
    split_ifs
    · rfl
    · exact ih
    · rfl
    · exact ih

lemma searchSlots_found (found : searchSlots wanted slots = .found slot) :
    ∃ i, Hit slots i slot ∧ wanted slot.raw = true := by
  induction slots with
  | nil => cases found
  | cons other slots ih =>
    rw [searchSlots] at found
    by_cases ended : other.raw 0 = 0
    · rw [if_pos ended] at found
      cases found
    rw [if_neg ended] at found
    by_cases passed : other.raw 0 = 0xE5 ∨ other.raw 11 = attrLfn
    · rw [if_pos passed] at found
      obtain ⟨i, hit, fits⟩ := ih found
      exact ⟨i + 1, hit.tail ended, fits⟩
    rw [if_neg passed] at found
    by_cases fits : wanted other.raw = true
    · rw [if_pos fits] at found
      cases found
      obtain ⟨notDeleted, short⟩ := not_or.mp passed
      exact ⟨0, .head (by simp [Slot.isFree, ended, notDeleted]) short, fits⟩
    · rw [if_neg fits] at found
      obtain ⟨i, hit, fits⟩ := ih found
      exact ⟨i + 1, hit.tail ended, fits⟩

/-- The volume with entry `i` of a cluster deleted, and the long-name entries before it. -/
def SbInfo.struckOut (s : SbInfo) (cluster i : Nat) : SbInfo :=
  (s.wrote cluster (markDeleted (s.clusterData cluster) i)).clearBefore cluster i

lemma removeEntry_cases (g : Geometry s) (dir : Directory s d cs) {foundCluster : Nat}
    {r : Except Errno Unit} (done : s.removeEntry wanted foundCluster fuel d = some (s', r)) :
    s' = s ∨ ∃ k fuel', s.Existing cs k ∧ (s.slotAt cs k).raw 11 ≠ attrLfn ∧
      wanted (s.slotAt cs k).raw = true ∧
      freeClusterChain fuel' (s.struckOut (s.slotAt cs k).cluster (s.slotAt cs k).index)
        foundCluster = some s' := by
  have search : s' = s ∨ ∃ slot fuel', searchSlots wanted (s.dirSlots cs) = .found slot ∧
      freeClusterChain fuel' (s.struckOut slot.cluster slot.index) foundCluster = some s' := by
    induction fuel generalizing d cs with
    | zero => cases done
    | succ fuel ih =>
      obtain ⟨rest, rfl, inside, behind⟩ := dir.cases
      rw [SbInfo.removeEntry, if_pos (inside.bounds g),
        readCluster_eq g inside] at done
      simp only at done
      rw [dirSlots_cons g, searchSlots_append]
      cases here : searchSlots wanted (s.bufSlots d (s.clusterData d)) with
      | ended =>
        rw [here] at done
        cases done
        exact .inl rfl
      | found slot =>
        rw [here] at done
        simp only at done
        rw [writeCluster_eq g inside] at done
        obtain ⟨t, freed, result⟩ := map_eq_some_iff.mp done
        cases result
        -- all entries of the buffer lie in the cluster
        have cluster : slot.cluster = d := by
          obtain ⟨i, hit, _⟩ := searchSlots_found here
          obtain ⟨j, _, rfl⟩ := mem_map.mp (mem_of_getElem? hit.placed)
          rfl
        refine .inr ⟨slot, fuel, rfl, ?_⟩
        rw [cluster]
        exact freed
      | more =>
        rw [here] at done
        rcases behind with ⟨rfl, ends⟩ | ⟨goes, next⟩
        · rw [if_pos ends] at done
          cases done
          exact .inl rfl
        · rw [if_neg goes] at done
          exact ih next done
  rcases search with same | ⟨slot, fuel', found, freed⟩
  · exact .inl same
  · obtain ⟨k, hit, fits⟩ := searchSlots_found found
    obtain ⟨rfl, existing⟩ := hit.existing
    exact .inr ⟨k, fuel', existing, hit.short, fits, freed⟩

lemma clearLfn_byte (left i : Nat) (buf : Store) (b : Nat) : (clearLfn left i buf).1 b = buf b ∨
      ∃ j, j < i ∧ b = j * 32 ∧ buf (j * 32 + 11) = attrLfn ∧ (clearLfn left i buf).1 b = 0xE5 := by
  induction left generalizing i buf with
  | zero => exact .inl (by rw [clearLfn]; exact nofun)
  | succ left ih =>
    cases i with
    | zero => exact .inl (by rw [clearLfn]; exact nofun)
    | succ j =>
      rw [clearLfn]
      split
      case isTrue long =>
        have marked : ∀ a, a ≠ j * 32 → markDeleted buf j a = buf a :=
          fun a other => update_of_ne other _ _
        rcases ih j (markDeleted buf j) with same | ⟨j', less, rfl, long', deleted⟩
        · rcases eq_or_ne b (j * 32) with rfl | other
          · refine .inr ⟨j, lt_succ_self j, rfl, long, ?_⟩
            rw [same, markDeleted, update_self]
          · rw [same, marked b other]
            exact .inl rfl
        · rw [marked _ (by omega)] at long'
          exact .inr ⟨j', lt_succ_of_lt less, rfl, long', deleted⟩
      case isFalse => exact .inl rfl

/-- First bytes of entries of the cluster `c` are overwritten with the mark of a deleted one: that
of entry `i`, and some of long-name entries before it. -/
structure Struck (s t : SbInfo) (c i : Nat) : Prop where
  same : SameShape s t
  fat : ∀ {x}, s.InVolume x → t.getCluster x = s.getCluster x
  others : ∀ {x}, s.InVolume x → x ≠ c → t.clusterData x = s.clusterData x
  bytes : ∀ {b}, b < s.clusterSize → t.clusterData c b = s.clusterData c b ∨
    ∃ j, j ≤ i ∧ b = j * 32 ∧ t.clusterData c b = 0xE5 ∧
      (j = i ∨ s.clusterData c (j * 32 + 11) = attrLfn)
  deleted : t.clusterData c (i * 32) = 0xE5

lemma struckOut_struck (g : Geometry s) (inside : s.InVolume c)
    (small : i < s.entriesPerCluster) : Struck s (s.struckOut c i) c i := by
  have size := clusterSize_eq g
  have left := wrote_leaves g inside (markDeleted (s.clusterData c) i)
  have first : ∀ {b}, b < s.clusterSize →
      (s.wrote c (markDeleted (s.clusterData c) i)).clusterData c b =
        markDeleted (s.clusterData c) i b := fun low => clusterData_wrote_self low
  have marked : ∀ {b}, b ≠ i * 32 → markDeleted (s.clusterData c) i b = s.clusterData c b :=
    fun other => update_of_ne other _ _
  have here : markDeleted (s.clusterData c) i (i * 32) = 0xE5 := update_self _ _ _
  unfold SbInfo.struckOut
  generalize s.wrote c (markDeleted (s.clusterData c) i) = s1 at left first ⊢
  have one : Struck s s1 c i := by
    refine ⟨left.same, fun insideX => left.fat _ insideX, fun insideX other => ?_,
      fun {b} low => ?_, ?_⟩
    · rw [left.data _ insideX, update_of_ne other]
    · rw [first low]
      rcases eq_or_ne b (i * 32) with rfl | other
      · exact .inr ⟨i, le_rfl, rfl, here, .inl rfl⟩
      · exact .inl (marked other)
    · rw [first (by omega), here]
  have g1 := g.of_same left.same
  have inside1 := inside.of_same left.same
  rw [SbInfo.clearBefore, readCluster_eq g1 inside1]
  simp only
  split
  case isFalse => exact one
  case isTrue =>
    rw [writeCluster_eq g1 inside1, getD_some]
    have left2 := wrote_leaves g1 inside1 (clearLfn 20 i (s1.clusterData c)).1
    have second : ∀ {b}, b < s.clusterSize →
        (s1.wrote c (clearLfn 20 i (s1.clusterData c)).1).clusterData c b =
          (clearLfn 20 i (s1.clusterData c)).1 b := fun low =>
      clusterData_wrote_self (by rwa [left.same.clusterSize])
    refine ⟨left.same.trans left2.same, fun insideX => ?_, fun insideX other => ?_,
      fun {b} low => ?_, ?_⟩
    · rw [left2.fat _ (insideX.of_same left.same), one.fat insideX]
    · rw [left2.data _ (insideX.of_same left.same), update_of_ne other,
        one.others insideX other]
    · rw [second low]
      rcases clearLfn_byte 20 i (s1.clusterData c) b with same | ⟨j, less, rfl, long, deleted⟩
      · rw [same]
        exact one.bytes low
      · rw [first (by omega), marked (by omega)] at long
        exact .inr ⟨j, le_of_lt less, rfl, deleted, .inr long⟩
    · rw [second (by omega)]
      rcases clearLfn_byte 20 i (s1.clusterData c) (i * 32) with same | ⟨j, less, placed, _⟩
      · rw [same]
        exact one.deleted
      · omega

lemma Struck.row (g : Geometry s) (dir : Directory s d cs) (inside : k < s.rowLength cs)
    (struck : Struck s t (s.slotAt cs k).cluster (s.slotAt cs k).index) :
    (t.slotAt cs k).raw 0 = 0xE5 ∧ ∀ j, j < s.rowLength cs →
      (∀ b, 0 < b → b < 32 → (t.slotAt cs j).raw b = (s.slotAt cs j).raw b) ∧
      ((t.slotAt cs j).raw 0 = (s.slotAt cs j).raw 0 ∨
        (t.slotAt cs j).raw 0 = 0xE5 ∧ j ≤ k ∧ (j = k ∨ (s.slotAt cs j).raw 11 = attrLfn)) := by
  have size := clusterSize_eq g
  obtain ⟨q, bound, cluster, place, small, raw⟩ := slotAt_place g inside
  rw [cluster] at struck
  refine ⟨?_, fun j insideJ => ?_⟩
  · rw [raw t struck.same 0 (by decide), add_zero, struck.deleted]
  obtain ⟨q', bound', _, place', small', raw'⟩ := slotAt_place g insideJ
  have before := raw' s (SameShape.refl s)
  have after := raw' t struck.same
  by_cases here : q' = q
  · subst here
    refine ⟨fun b positive low => ?_, ?_⟩
    · rw [after b low, before b low]
      rcases struck.bytes (b := (s.slotAt cs j).index * 32 + b) (by omega) with
        same | ⟨_, _, placed, _⟩
      · exact same
      · omega
    · rw [after 0 (by decide), before 0 (by decide), before 11 (by decide)]
      rcases struck.bytes (b := (s.slotAt cs j).index * 32 + 0) (by omega) with
        same | ⟨i, most, placed, deleted, kind⟩
      · exact .inl same
      · obtain rfl : i = (s.slotAt cs j).index := by omega
        refine .inr ⟨deleted, by omega, kind.imp_left fun same => ?_⟩
        omega
  · have other : cs[q'] ≠ cs[q] := fun same => here (dir.nodup.getElem_inj_iff.mp same)
    have data := struck.others (dir.inside _ (getElem_mem bound')) other
    refine ⟨fun b _ low => ?_, .inl ?_⟩
    · rw [after b low, before b low, data]
    · rw [after 0 (by decide), before 0 (by decide), data]

/-! ## The chain freed -/

lemma freeClusterChain_leaves (g : Geometry s) (dir : Directory s c ds)
    (done : freeClusterChain fuel s c = some s') :
    Leaves s s' (fun x => if x ∈ ds then clusterFree else s.getCluster x) s.clusterData := by
  induction fuel generalizing s c ds with
  | zero => cases done
  | succ fuel ih =>
    obtain ⟨rest, rfl, inside, behind⟩ := dir.cases
    have left := setCluster_leaves g inside clusterFree
    have zero : clusterFree % 2 ^ 28 = clusterFree := rfl
    rw [zero] at left
    rw [SbInfo.freeClusterChain, if_pos (inside.bounds g)] at done
    rcases behind with ⟨rfl, ends⟩ | ⟨goes, next⟩
    · rw [if_pos ends] at done
      cases done
      refine ⟨left.same, fun x insideX => ?_, left.data⟩
      rw [left.fat x insideX, update_apply]
      simp only [mem_singleton]
    · rw [if_neg goes] at done
      have fresh := (nodup_cons.mp dir.nodup).1
      have rest1 := next.congr left.same fun x mem => by
        have other : x ≠ c := fun same => fresh (same ▸ mem)
        rw [left.fat x (next.inside x mem), update_of_ne other]
      have after := ih (g.of_same left.same) rest1 done
      refine ⟨left.same.trans after.same, fun x insideX => ?_, fun x insideX => ?_⟩
      · rw [after.fat x (insideX.of_same left.same), left.fat x insideX]
        by_cases first : x = c
        · rw [first, update_self, ite_self, if_pos mem_cons_self]
        · rw [update_of_ne first]
          simp only [mem_cons, first, false_or]
      · rw [after.data x (insideX.of_same left.same), left.data x insideX]

/-! ## The revision -/

def goneWith (c : Nat) : Option Nat := if 2 ≤ c then some c else none

lemma goneWith_eq {c x : Nat} : goneWith c = some x ↔ 2 ≤ c ∧ c = x := by
  unfold goneWith
  split
  case isTrue low => simp [low]
  case isFalse high => simp [high]

/-- What remains when entry `k` of the directory `d` is deleted and the chain of `c` is freed. -/
structure Removed (s s' : SbInfo) (root d k c : Nat) (cs : List Nat) : Prop where
  same : SameShape s s'
  chains : ∀ {o c' cs'}, Names s root o c' → goneWith c ≠ some c' → Directory s c' cs' →
    Directory s' c' cs'
  deleted : (s'.slotAt cs k).raw 0 = 0xE5
  row : ∀ {j}, j < s.rowLength cs →
    (∀ b, 0 < b → b < 32 → (s'.slotAt cs j).raw b = (s.slotAt cs j).raw b) ∧
    ((s'.slotAt cs j).raw 0 = (s.slotAt cs j).raw 0 ∨ (s'.slotAt cs j).raw 0 = 0xE5 ∧ j ≤ k)
  others : ∀ {e q es j}, Reach s root e q → e ≠ d → Directory s e es → j < s.rowLength es →
    s'.slotAt es j = s.slotAt es j

variable (old : Consistent s root)
include old

lemma freeClusterChain_apart (same : SameShape s t)
    (fat : ∀ {x}, s.InVolume x → t.getCluster x = s.getCluster x)
    (entry : 2 ≤ c → ∃ o, Names s root o c)
    (freed : freeClusterChain fuel t c = some s') :
    ∃ ds : List Nat,
      Leaves t s' (fun x => if x ∈ ds then clusterFree else t.getCluster x) t.clusterData ∧
      ∀ {o c' cs'}, Names s root o c' → goneWith c ≠ some c' → Directory s c' cs' →
        ∀ x ∈ cs', x ∉ ds := by
  rcases lt_or_ge c 2 with high | low
  · refine ⟨[], ?_, fun _ _ _ _ _ => not_mem_nil⟩
    cases fuel with
    | zero => cases freed
    | succ fuel =>
      rw [SbInfo.freeClusterChain, if_neg (by omega)] at freed
      cases freed
      refine ⟨SameShape.refl _, fun x _ => ?_, fun _ _ => rfl⟩
      rw [if_neg not_mem_nil]
  · obtain ⟨o, named⟩ := entry low
    obtain ⟨ds, chain⟩ := old.sound.chain named low
    have chainT := chain.congr same fun x mem => fat (chain.inside x mem)
    refine ⟨ds, freeClusterChain_leaves (old.geometry.of_same same) chainT freed, ?_⟩
    intro o' c' cs' named' stays dir' x mem
    refine old.sound.foreign named' named (fun same => ?_) dir' chain mem
    exact stays (goneWith_eq.mpr ⟨low, same.symm⟩)

lemma Struck.removed (reach : Reach s root d p)
    (dir : Directory s d cs) (inside : k < s.rowLength cs)
    (struck : Struck s t (s.slotAt cs k).cluster (s.slotAt cs k).index)
    (entry : 2 ≤ c → ∃ o, Names s root o c)
    (freed : freeClusterChain fuel t c = some s') : Removed s s' root d k c cs := by
  have g := old.geometry
  obtain ⟨deleted, row⟩ := struck.row g dir inside
  obtain ⟨q, bound, cluster, _⟩ := slotAt_place g inside
  have mine : (s.slotAt cs k).cluster ∈ cs := by
    rw [cluster]
    exact getElem_mem bound
  obtain ⟨o, named⟩ := reach.names
  obtain ⟨ds, left, apart⟩ := freeClusterChain_apart old struck.same struck.fat entry freed
  have same := struck.same.trans left.same
  have data : ∀ {x}, s.InVolume x → s'.clusterData x = t.clusterData x :=
    fun insideX => left.data _ (insideX.of_same struck.same)
  have ownRow : ∀ {j}, j < s.rowLength cs → s'.slotAt cs j = t.slotAt cs j := by
    intro j insideJ
    apply slotAt_congr left.same _ (by rwa [struck.same.rowLength])
    exact fun x mem => data (dir.inside x mem)
  refine ⟨same, fun {o' c' cs'} named' stays dir' => ?_, ?_, fun {j} insideJ => ?_,
    fun {e q es j} reach' other dir' insideJ => ?_⟩
  · refine dir'.congr same fun x mem => ?_
    have insideX := dir'.inside x mem
    rw [left.fat x (insideX.of_same struck.same),
      if_neg (apart named' stays dir' x mem), struck.fat insideX]
  · rw [ownRow inside, deleted]
  · rw [ownRow insideJ]
    obtain ⟨rest, first⟩ := row j insideJ
    exact ⟨rest, first.imp_right fun gone => ⟨gone.1, gone.2.1⟩⟩
  · obtain ⟨o', named'⟩ := reach'.names
    refine slotAt_congr same (fun x mem => ?_) insideJ
    have insideX := dir'.inside x mem
    have foreign : x ≠ (s.slotAt cs k).cluster := by
      rintro rfl
      exact old.sound.foreign named' named other dir' dir mem mine
    rw [data insideX, struck.others insideX foreign]

lemma Removed.revision (reach : Reach s root d p)
    (dir : Directory s d cs) (existing : s.Existing cs k)
    (entry : 2 ≤ c → Lists s d k (s.slotAt cs k).raw ∧ startCluster (s.slotAt cs k).raw = c)
    (removed : Removed s s' root d k c cs) :
    Revision s s' root (goneWith c) (fun _ => []) none := by
  have named : 2 ≤ c → Names s root (some (d, k)) c := by
    intro low
    obtain ⟨lists, rfl⟩ := entry low
    exact .entry reach lists
  -- no other entry names the freed chain
  have spared : ∀ {e q k' raw}, Reach s root e q → Lists s e k' raw → (e, k') ≠ (d, k) →
      goneWith c ≠ some (startCluster raw) := by
    intro e q k' raw reach' lists' elsewhere gone
    obtain ⟨low, rfl⟩ := goneWith_eq.mp gone
    obtain ⟨ds, chain⟩ := old.sound.chains reach' lists' (.inr low)
    exact elsewhere (some.inj (old.sound.name_unique (.entry reach' lists') (named low) chain))
  refine ⟨removed.same, fun gone => ?_, fun {o' c' cs'} named' stays dir' => ?_, nofun, nofun,
    fun {e q es} reach' stays dir' j inside => ?_, fun {e q es} reach' stays dir' _ long => ?_,
    nofun, nofun, nofun⟩
  · obtain ⟨low, rfl⟩ := goneWith_eq.mp gone
    obtain ⟨rs, chain⟩ := old.sound.rooted
    cases old.sound.name_unique (named low) .root chain
  · rw [append_nil]
    exact removed.chains named' stays dir'
  · rw [append_nil] at inside ⊢
    by_cases here : e = d
    · subst here
      cases dir'.unique dir
      obtain ⟨rest, first⟩ := removed.row inside
      rcases first with same0 | ⟨gone0, most⟩
      · have notK : j ≠ k := by
          rintro rfl
          rw [removed.deleted] at same0
          exact existing.not_deleted same0.symm
        refine .kept inside (fun b small => ?_) fun existingJ entryJ => ?_
        · rcases Nat.eq_zero_or_pos b with rfl | positive
          · exact same0
          · exact rest b positive (by omega)
        · exact spared reach' ⟨_, dir', existingJ, rfl, entryJ⟩ fun same =>
            notK (Prod.mk.inj same).2
      · refine .struck (by rw [gone0]; decide) (.inl gone0) fun i less => ?_
        rcases (removed.row (lt_trans less inside)).2 with sameI | ⟨goneI, _⟩
        · rw [sameI]
          exact existing.2.2 i (lt_of_lt_of_le less most)
        · rw [goneI]
          decide
    · refine .kept inside (fun b _ => ?_) fun existingJ entryJ => ?_
      · rw [removed.others reach' here dir' inside]
      · exact spared reach' ⟨es, dir', existingJ, rfl, entryJ⟩ fun same =>
          here (Prod.mk.inj same).1
  · rw [append_nil] at long
    have inside := dir'.rowLength_pos old.geometry
    by_cases here : e = d
    · subst here
      cases dir'.unique dir
      rw [← (removed.row inside).1 11 (by decide) (by decide)]
      exact long
    · rwa [removed.others reach' here dir' inside] at long

/-- The second search deletes the entry of the chain that it frees: "." and ".." of a directory do
not name the chain of an entry in it. -/
lemma removeEntry_revised (reach : Reach s root d p) (lists : Lists s d k raw)
    (wants : ∀ raw', wanted raw' = true → startCluster raw' = startCluster raw)
    {r : Except Errno Unit}
    (done : s.removeEntry wanted (startCluster raw) fuel d = some (s', r)) : Revised s s' root := by
  have g := old.geometry
  obtain ⟨cs, dir⟩ := old.sound.directory reach
  have row := old.rows reach dir
  obtain ⟨notSelf, notParent⟩ := old.sound.not_ancestor reach lists
  rcases removeEntry_cases g dir done with rfl | ⟨j, fuel', existing, short, fits, freed⟩
  · exact .refl _ root
  have target := wants _ fits
  have entry : 2 ≤ startCluster raw →
      Lists s d j (s.slotAt cs j).raw ∧ startCluster (s.slotAt cs j).raw = startCluster raw := by
    intro low
    have named : (s.slotAt cs j).raw 11 &&& attrVolumeId = 0 := by
      by_contra label
      have := row.labels existing short label
      omega
    refine ⟨⟨cs, dir, existing, rfl, short, named, fun dotted => ?_⟩, target⟩
    rcases (row.dots existing short named dotted).target with none | self | parent
    · omega
    · exact notSelf (target.symm.trans self)
    · exact notParent (target.symm.trans parent)
  obtain ⟨q, bound, cluster, _, small, _⟩ := slotAt_place g existing.1
  have insideC : s.InVolume (s.slotAt cs j).cluster := by
    rw [cluster]
    exact dir.inside _ (getElem_mem bound)
  have removed := (struckOut_struck g insideC small).removed old reach dir existing.1
    (fun _ => ⟨_, .entry reach lists⟩) freed
  exact ⟨_, _, _, removed.revision old reach dir existing entry⟩

omit old

variable {r : Except Errno Unit}

lemma findEntry_lists (old : Consistent s root) (reach : Reach s root d p)
    (looked : s.findEntry d name fuel = some (.ok f))
    (proper : isDirectory f.entry = true → name ≠ [dot] ∧ name ≠ [dot, dot]) :
    ∃ k, Lists s d k f.entry := by
  obtain ⟨cs, dir⟩ := old.sound.directory reach
  obtain ⟨k, existing, entry, _, _, short, named, dots⟩ :=
    findEntry_found old.geometry (old.rows reach dir) dir looked
  refine ⟨k, cs, dir, existing, entry.symm, short, named, fun dotted => ?_⟩
  obtain ⟨isDir, single | double⟩ := dots dotted
  · exact (proper isDir).1 single
  · exact (proper isDir).2 double

lemma findEntry_bind {next : Found → Option (SbInfo × Except Errno Unit)}
    (done : ((s.findEntry d name fuel).bind fun existing => match existing with
      | .error e => some (s, .error e)
      | .ok f => next f) = some (s', r)) :
    s' = s ∨ ∃ f, s.findEntry d name fuel = some (.ok f) ∧ next f = some (s', r) := by
  obtain ⟨existing, looked, rest⟩ := bind_eq_some_iff.mp done
  cases existing with
  | error e =>
    cases rest
    exact .inl rfl
  | ok f => exact .inr ⟨f, looked, rest⟩

lemma dirUnlink_revised (old : Consistent s root) (reach : Reach s root d p)
    (done : dirUnlink s ⟨d, true⟩ name fuel = some (s', r)) : Revised s s' root := by
  rcases findEntry_bind done with rfl | ⟨f, looked, rest⟩
  · exact .refl _ root
  split at rest
  case isTrue =>
    cases rest
    exact .refl s root
  case isFalse file =>
    obtain ⟨k, lists⟩ := findEntry_lists old reach looked fun isDir => absurd isDir file
    exact removeEntry_revised old reach lists (fun _ fits => beq_iff_eq.mp fits) rest

lemma rmdir_revised (old : Consistent s root) (reach : Reach s root d p)
    (proper : name ≠ [dot] ∧ name ≠ [dot, dot])
    (done : s.rmdir d name fuel = some (s', r)) : Revised s s' root := by
  rcases findEntry_bind done with rfl | ⟨f, looked, rest⟩
  · exact .refl _ root
  split at rest
  · cases rest
    exact .refl s root
  obtain ⟨empty, _, rest⟩ := bind_eq_some_iff.mp rest
  rcases empty with e | _ | _
  · cases rest
    exact .refl s root
  · cases rest
    exact .refl s root
  · obtain ⟨k, lists⟩ := findEntry_lists old reach looked fun _ => proper
    refine removeEntry_revised old reach lists (fun _ fits => ?_) rest
    exact beq_iff_eq.mp (Bool.and_eq_true_iff.mp fits).1

end AuroraOS.Fat32
