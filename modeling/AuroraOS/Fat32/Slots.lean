import AuroraOS.Fat32.Volume

/-!
# A directory as one row of entries

The entries of a directory, cluster after cluster, are one row, numbered from 0.  The functions of
`fat32.c` walk the clusters; here each of them is put in terms of the row.
-/

namespace AuroraOS.Fat32

open Lib Block SbInfo List Option Function Nat

namespace SbInfo

variable (s : SbInfo) (cs : List Nat)

def slotAt (k : Nat) : Slot :=
  let c := cs.getD (k / s.entriesPerCluster) 0
  ⟨c, k % s.entriesPerCluster, rawEntry (s.clusterData c) (k % s.entriesPerCluster)⟩

def rowLength : Nat := cs.length * s.entriesPerCluster

def dirSlots : List Slot := (range (s.rowLength cs)).map (s.slotAt cs)

/-- The place of the first free entry; the end of the row when there is none. -/
def firstFree : Nat := (s.dirSlots cs).findIdx Slot.isFree

end SbInfo

variable {s s' : SbInfo} {cs : List Nat} {c d k : Nat} {name : Name}

lemma SameShape.rowLength (same : SameShape s s') : s'.rowLength cs = s.rowLength cs := by
  rw [SbInfo.rowLength, SbInfo.rowLength, same.entriesPerCluster]

@[simp] lemma length_dirSlots : (s.dirSlots cs).length = s.rowLength cs := by
  simp [SbInfo.dirSlots]

lemma dirSlots_getElem (inside : k < (s.dirSlots cs).length) :
    (s.dirSlots cs)[k] = s.slotAt cs k := by
  simp [SbInfo.dirSlots]

lemma clusterSize_eq (g : Geometry s) : s.clusterSize = s.entriesPerCluster * 32 := by
  have whole : 32 ∣ s.clusterSize := by
    rw [g.clusterSize]
    exact Dvd.dvd.mul_left g.aligned _
  exact (Nat.div_mul_cancel whole).symm

lemma clusterSize_pos (g : Geometry s) : 0 < s.clusterSize := by
  rw [g.clusterSize]
  exact mul_pos g.perCluster g.positive

lemma entriesPerCluster_pos (g : Geometry s) : 0 < s.entriesPerCluster := by
  have size := clusterSize_eq g
  have positive := clusterSize_pos g
  omega

lemma div_lt_length (inside : k < s.rowLength cs) : k / s.entriesPerCluster < cs.length :=
  Nat.div_lt_of_lt_mul (inside.trans_eq (mul_comm ..))

lemma dirSlots_cons (g : Geometry s) :
    s.dirSlots (c :: cs) = s.bufSlots c (s.clusterData c) ++ s.dirSlots cs := by
  have positive := entriesPerCluster_pos g
  have split : s.rowLength (c :: cs) = s.entriesPerCluster + s.rowLength cs := by
    rw [SbInfo.rowLength, SbInfo.rowLength, length_cons, succ_mul, add_comm]
  rw [SbInfo.dirSlots, split, List.range_add, List.map_append, List.map_map]
  congr 1
  · apply map_congr_left
    intro i mem
    have small := mem_range.mp mem
    rw [SbInfo.slotAt, div_eq_of_lt small, mod_eq_of_lt small]
    rfl
  · apply map_congr_left
    intro i _
    rw [comp_apply, SbInfo.slotAt, add_div_left _ positive, add_mod_left]
    rfl

lemma dirSlots_nil : s.dirSlots [] = [] := by
  simp [SbInfo.dirSlots, SbInfo.rowLength]

/-! ## Searching -/

lemma scanSlots_append (xs ys : List Slot) (lfn : List Store) :
    scanSlots name (xs ++ ys) lfn = match scanSlots name xs lfn with
      | .more lfn => scanSlots name ys lfn
      | r => r := by
  induction xs generalizing lfn with
  | nil => rfl
  | cons slot xs ih =>
    simp only [cons_append, scanSlots]
    split_ifs
    · rfl
    · exact ih []
    · exact ih _
    · exact ih _
    · exact ih []
    · cases slot.resolve name lfn with
      | some f => rfl
      | none => exact ih []

def Scan.result : Scan → Except Errno Found
  | .found f => .ok f
  | _ => .error .enoent

variable (g : Geometry s) (dir : Directory s d cs)
include g dir

lemma findEntryFrom_eq (name : Name) (lfn : List Store) :
    ∀ fuel, (cs.length ≤ fuel → (s.findEntryFrom name fuel d lfn).isSome) ∧
      ∀ r, s.findEntryFrom name fuel d lfn = some r →
        r = (scanSlots name (s.dirSlots cs) lfn).result := by
  intro fuel
  induction fuel generalizing d cs lfn with
  | zero =>
    obtain ⟨rest, split, _⟩ := dir.cases
    refine ⟨fun enough => ?_, fun r spent => by cases spent⟩
    rw [split] at enough
    cases enough
  | succ fuel ih =>
    obtain ⟨rest, rfl, inside, behind⟩ := dir.cases
    rw [SbInfo.findEntryFrom, if_pos (inside.bounds g),
      readCluster_eq g inside, dirSlots_cons g, scanSlots_append]
    simp only
    cases scanSlots name (s.bufSlots d (s.clusterData d)) lfn with
    | ended => exact ⟨fun _ => rfl, fun r done => (some.inj done).symm⟩
    | found f => exact ⟨fun _ => rfl, fun r done => (some.inj done).symm⟩
    | more lfn =>
      simp only
      rcases behind with ⟨rfl, ends⟩ | ⟨goes, next⟩
      · rw [if_pos ends, dirSlots_nil]
        exact ⟨fun _ => rfl, fun r done => (some.inj done).symm⟩
      · rw [if_neg goes]
        exact ⟨fun enough => (ih next lfn).1 (by simpa using enough), (ih next lfn).2⟩

lemma findFreeSlot_find {fuel : Nat}
    {r : SbInfo × Except Errno (Nat × Nat)} (done : s.findFreeSlot fuel d = some r) :
    r = match (s.dirSlots cs).find? Slot.isFree with
      | some slot => (s, .ok (slot.cluster, slot.index * 32))
      | none => s.appendSlot (cs.getLastD 0) := by
  induction fuel generalizing d cs with
  | zero => cases done
  | succ fuel ih =>
    obtain ⟨rest, rfl, inside, behind⟩ := dir.cases
    rw [SbInfo.findFreeSlot, if_pos (inside.bounds g),
      readCluster_eq g inside] at done
    simp only at done
    rw [dirSlots_cons g, find?_append]
    cases here : (s.bufSlots d (s.clusterData d)).find? Slot.isFree with
    | some slot =>
      rw [here] at done
      obtain ⟨i, _, rfl⟩ := mem_map.mp (mem_of_find?_eq_some here)
      exact (some.inj done).symm
    | none =>
      rw [here] at done
      rcases behind with ⟨rfl, ends⟩ | ⟨goes, next⟩
      · rw [if_pos ends] at done
        rw [dirSlots_nil]
        exact (some.inj done).symm
      · rw [if_neg goes] at done
        obtain ⟨more, rfl, _⟩ := next.cases
        exact ih next done

lemma findFreeSlot_eq {fuel : Nat}
    {r : SbInfo × Except Errno (Nat × Nat)} (done : s.findFreeSlot fuel d = some r) :
    s.firstFree cs < s.rowLength cs ∧ r = (s, .ok (cs.getD (s.firstFree cs / s.entriesPerCluster) 0,
          s.firstFree cs % s.entriesPerCluster * 32)) ∨
      s.firstFree cs = s.rowLength cs ∧ r = s.appendSlot (cs.getLastD 0) := by
  have value := findFreeSlot_find g dir done
  rw [find?_eq_getElem?_findIdx] at value
  have bound : s.firstFree cs ≤ s.rowLength cs := by
    have := @List.findIdx_le_length _ Slot.isFree (s.dirSlots cs)
    rw [length_dirSlots] at this
    exact this
  rcases lt_or_eq_of_le bound with less | none
  · left
    have inside : (s.dirSlots cs).findIdx Slot.isFree < (s.dirSlots cs).length := by
      rw [length_dirSlots]
      exact less
    rw [getElem?_eq_getElem inside, dirSlots_getElem inside] at value
    exact ⟨less, value⟩
  · right
    have outside : (s.dirSlots cs).length ≤ (s.dirSlots cs).findIdx Slot.isFree := by
      rw [length_dirSlots]
      exact none.ge
    rw [getElem?_eq_none outside] at value
    exact ⟨none, value⟩

omit g dir

/-! ## Writing -/

lemma walkClusters_eq (dir : Directory s d cs) (steps : Nat) :
    s.walkClusters d steps = cs[steps]? := by
  induction steps generalizing d cs with
  | zero =>
    obtain ⟨rest, rfl, _⟩ := dir.cases
    rfl
  | succ steps ih =>
    obtain ⟨rest, rfl, _, behind⟩ := dir.cases
    rw [SbInfo.walkClusters, getElem?_cons_succ]
    rcases behind with ⟨rfl, ends⟩ | ⟨goes, next⟩
    · rw [if_pos ends]
      rfl
    · rw [if_neg goes]
      exact ih next

/-- The bytes `buf` from `written` on stand at the offsets from `offset` on of the chain, `count`
of them, and nothing else is changed. -/
structure BytesWritten (s s' : SbInfo) (cs : List Nat) (buf : Store) (offset written count : Nat) :
    Prop where
  same : SameShape s s'
  fat : ∀ c, s.InVolume c → s'.getCluster c = s.getCluster c
  others : ∀ c, s.InVolume c → c ∉ cs → s'.clusterData c = s.clusterData c
  room : count = 0 ∨ offset + count ≤ cs.length * s.clusterSize
  bytes : ∀ q (inside : q < cs.length) b, b < s.clusterSize → s'.clusterData cs[q] b =
    if offset ≤ q * s.clusterSize + b ∧ q * s.clusterSize + b < offset + count then
      buf (written + (q * s.clusterSize + b - offset))
    else s.clusterData cs[q] b

lemma bytesWritten_chunk (g : Geometry s) (dir : Directory s d cs) (buf : Store)
    (written : Nat) {old : Store} {offset chunk q : Nat} (inside : q < cs.length)
    (index : offset / s.clusterSize = q)
    (fits : offset % s.clusterSize + chunk ≤ s.clusterSize)
    (around : ∀ b, b < s.clusterSize →
      b < offset % s.clusterSize ∨ offset % s.clusterSize + chunk ≤ b →
      old b = s.clusterData cs[q] b) :
    BytesWritten s (s.wrote cs[q] (blit old (offset % s.clusterSize) chunk
      fun i => buf (written + i))) cs buf offset written chunk := by
  have target := dir.inside cs[q] (getElem_mem inside)
  have left := wrote_leaves g target
    (blit old (offset % s.clusterSize) chunk fun i => buf (written + i))
  have split := div_add_mod offset s.clusterSize
  rw [index, mul_comm] at split
  have upper := mul_add_le_mul inside s.clusterSize
  refine ⟨left.same, left.fat, fun c insideC foreign => ?_, .inr (by omega), ?_⟩
  · have different : c ≠ cs[q] := fun same => foreign (same ▸ getElem_mem inside)
    rw [left.data c insideC, update_of_ne different]
  intro p insideP b small
  rw [left.data _ (dir.inside _ (getElem_mem insideP))]
  by_cases here : p = q
  · subst here
    rw [update_self, SbInfo.clip, if_pos small]
    by_cases field : offset % s.clusterSize ≤ b ∧ b < offset % s.clusterSize + chunk
    · rw [blit_inside field.1 field.2, if_pos (by omega)]
      congr 2
      omega
    · rw [blit_outside (by omega), if_neg (by omega), around b small (by omega)]
  · have different : cs[p] ≠ cs[q] := fun same => here (dir.nodup.getElem_inj_iff.mp same)
    rw [update_of_ne different, if_neg]
    rcases lt_or_gt_of_ne here with less | more
    · have := mul_add_le_mul less s.clusterSize
      omega
    · have := mul_add_le_mul more s.clusterSize
      omega

lemma BytesWritten.refl (s : SbInfo) (cs : List Nat) (buf : Store) (offset written : Nat) :
    BytesWritten s s cs buf offset written 0 := by
  refine ⟨SameShape.refl s, fun _ _ => rfl, fun _ _ _ => rfl, .inl rfl, ?_⟩
  intro q _ b _
  rw [if_neg (by omega)]

lemma BytesWritten.trans {t : SbInfo} {buf : Store} {offset written first second : Nat}
    (one : BytesWritten s s' cs buf offset written first)
    (two : BytesWritten s' t cs buf (offset + first) (written + first) second) :
    BytesWritten s t cs buf offset written (first + second) := by
  have size := one.same.clusterSize
  refine ⟨one.same.trans two.same, fun c inside => ?_, fun c inside foreign => ?_, ?_, ?_⟩
  · rw [two.fat c (inside.of_same one.same), one.fat c inside]
  · rw [two.others c (inside.of_same one.same) foreign, one.others c inside foreign]
  · have before := one.room
    have after := two.room
    rw [size] at after
    omega
  · intro q inside b small
    have after := two.bytes q inside b (by rw [size]; exact small)
    rw [size, one.bytes q inside b small] at after
    rw [after]
    by_cases late : offset + first ≤ q * s.clusterSize + b ∧
        q * s.clusterSize + b < offset + first + second
    · rw [if_pos late, if_pos (by omega)]
      congr 1
      omega
    · rw [if_neg late]
      by_cases early : offset ≤ q * s.clusterSize + b ∧ q * s.clusterSize + b < offset + first
      · rw [if_pos early, if_pos (by omega)]
      · rw [if_neg early, if_neg (by omega)]

/-- The write loop, however it ends: it has written whole entries, at least those that fit the
first cluster if any, and all of them exactly when it succeeds. -/
lemma writeEntries_bytes (g : Geometry s) (dir : Directory s d cs) {buf : Store}
    {needed fuel offset written : Nat} {r : Except Errno Unit}
    (done : writeEntries buf needed d fuel s offset written = some (s', r))
    (aligned : 32 ∣ offset) (whole : 32 ∣ needed - written) :
    ∃ n, BytesWritten s s' cs buf offset written (n * 32) ∧
      (n = 0 ∨ min (s.clusterSize - offset % s.clusterSize) (needed - written) ≤ n * 32) ∧
      n * 32 ≤ needed - written ∧ (r = .ok () ↔ n * 32 = needed - written) := by
  have size := clusterSize_eq g
  induction fuel generalizing s offset written with
  | zero => cases done
  | succ fuel ih =>
    rw [writeEntries] at done
    by_cases more : written < needed
    · rw [if_pos more, walkClusters_eq dir] at done
      by_cases inside : offset / s.clusterSize < cs.length
      · have target := dir.inside _ (getElem_mem inside)
        rw [getElem?_eq_getElem inside] at done
        simp only at done
        rw [readCluster_eq g target] at done
        simp only at done
        rw [writeCluster_eq g target] at done
        have positive := clusterSize_pos g
        have remainder := mod_lt offset positive
        obtain ⟨chunk, isChunk⟩ : ∃ chunk, chunk =
            min (s.clusterSize - offset % s.clusterSize) (needed - written) := ⟨_, rfl⟩
        rw [← isChunk] at done
        have fits : offset % s.clusterSize + chunk ≤ s.clusterSize := by omega
        have unit : 32 ∣ chunk := by
          have blocks : 32 ∣ s.clusterSize := ⟨s.entriesPerCluster, by omega⟩
          rw [isChunk]
          rcases le_total (s.clusterSize - offset % s.clusterSize) (needed - written) with
            less | less
          · rw [min_eq_left less]
            exact dvd_sub blocks ((dvd_mod_iff blocks).mpr aligned)
          · rwa [min_eq_right less]
        obtain ⟨m, count⟩ := unit
        have one := bytesWritten_chunk g dir buf written inside rfl fits fun _ _ _ => rfl
        obtain ⟨n, two, -, bound, ends⟩ := ih (g.of_same one.same)
          (dir.congr one.same fun c mem => one.fat c (dir.inside c mem)) done
          (Nat.dvd_add aligned ⟨m, count⟩)
          (by
            rw [← Nat.sub_sub]
            exact dvd_sub whole ⟨m, count⟩)
          (by rw [one.same.clusterSize, one.same.entriesPerCluster]; exact size)
        have both := one.trans two
        rw [show chunk + n * 32 = (m + n) * 32 by omega] at both
        refine ⟨m + n, both, .inr (by omega), by omega, ends.trans ?_⟩
        constructor
        · intro all
          omega
        · intro all
          omega
      · rw [getElem?_eq_none (Nat.le_of_not_lt inside)] at done
        cases done
        refine ⟨0, ?_, .inl rfl, by omega, ⟨nofun, fun all => ?_⟩⟩
        · exact BytesWritten.refl _ cs buf offset written
        · omega
    · rw [if_neg more] at done
      cases done
      refine ⟨0, ?_, .inl rfl, by omega, ⟨fun _ => by omega, fun _ => rfl⟩⟩
      exact BytesWritten.refl _ cs buf offset written

/-- The entries `entry 0`, `entry 1`, … stand at the places from `start` on of the row, `count` of
them, and nothing else is changed. -/
structure Written (s s' : SbInfo) (cs : List Nat) (start count : Nat) (entry : Nat → Store) :
    Prop where
  same : SameShape s s'
  fat : ∀ c, s.InVolume c → s'.getCluster c = s.getCluster c
  others : ∀ c, s.InVolume c → c ∉ cs → s'.clusterData c = s.clusterData c
  room : start + count ≤ s.rowLength cs
  slots : ∀ k, k < s.rowLength cs → ∀ b, b < 32 → (s'.slotAt cs k).raw b =
    if start ≤ k ∧ k < start + count then entry (k - start) b else (s.slotAt cs k).raw b

lemma slotAt_place (g : Geometry s) (inside : k < s.rowLength cs) :
    ∃ q, ∃ bound : q < cs.length, (s.slotAt cs k).cluster = cs[q] ∧
      k = q * s.entriesPerCluster + (s.slotAt cs k).index ∧
      (s.slotAt cs k).index < s.entriesPerCluster ∧
      ∀ t : SbInfo, SameShape s t → ∀ b, b < 32 →
        (t.slotAt cs k).raw b = t.clusterData cs[q] ((s.slotAt cs k).index * 32 + b) := by
  have bound := div_lt_length inside
  refine ⟨k / s.entriesPerCluster, bound, ?_, ?_, mod_lt _ (entriesPerCluster_pos g),
    fun t same b small => ?_⟩
  · simp only [SbInfo.slotAt, getD_eq_getElem?_getD, getElem?_eq_getElem bound, getD_some]
  · rw [mul_comm]
    exact (div_add_mod ..).symm
  · simp only [SbInfo.slotAt, same.entriesPerCluster, getD_eq_getElem?_getD,
      getElem?_eq_getElem bound, getD_some, rawEntry, if_pos small]

lemma Written.refl (inside : k ≤ s.rowLength cs) (entry : Nat → Store) :
    Written s s cs k 0 entry := by
  refine ⟨SameShape.refl s, fun _ _ => rfl, fun _ _ _ => rfl, inside, fun j _ b _ => ?_⟩
  rw [if_neg (by omega)]

lemma BytesWritten.written (g : Geometry s) (dir : Directory s d cs) {i j n : Nat}
    {entry : Nat → Store} (bound : j < cs.length) (small : i < s.entriesPerCluster)
    (done : BytesWritten s s' (cs.drop j) (fun b => entry (b / 32) (b % 32)) (i * 32) 0 (n * 32)) :
    Written s s' cs (j * s.entriesPerCluster + i) n entry := by
  have size := clusterSize_eq g
  refine ⟨done.same, done.fat, ?_, ?_, ?_⟩
  · intro c insideC foreign
    exact done.others c insideC fun mem => foreign (mem_of_mem_drop mem)
  · have room := done.room
    rw [length_drop, size, ← mul_assoc, Nat.sub_mul] at room
    have below := mul_add_le_mul bound s.entriesPerCluster
    unfold SbInfo.rowLength
    omega
  · intro k insideK b smallB
    obtain ⟨q, boundK, -, placeK, smallL, rawK⟩ := slotAt_place g insideK
    rw [rawK s' done.same b smallB, rawK s (SameShape.refl s) b smallB]
    generalize (s.slotAt cs k).index = l at *
    by_cases before : q < j
    · have foreign : cs[q] ∉ cs.drop j := by
        intro mem
        obtain ⟨p, boundP, same⟩ := mem_iff_getElem.mp mem
        rw [getElem_drop] at same
        have := dir.nodup.getElem_inj_iff.mp same
        omega
      have earlier := mul_add_le_mul before s.entriesPerCluster
      rw [done.others _ (dir.inside _ (getElem_mem boundK)) foreign, if_neg (by omega)]
    · obtain ⟨p, rfl⟩ := Nat.exists_eq_add_of_le (Nat.le_of_not_lt before)
      have there := done.bytes p (by rw [length_drop]; omega) (l * 32 + b) (by omega)
      rw [getElem_drop, size, ← mul_assoc] at there
      rw [add_mul] at placeK
      rw [there]
      by_cases covered : i ≤ p * s.entriesPerCluster + l ∧ p * s.entriesPerCluster + l < i + n
      · rw [if_pos (by omega), if_pos (by omega)]
        have offset : 0 + (p * s.entriesPerCluster * 32 + (l * 32 + b) - i * 32) =
            32 * (p * s.entriesPerCluster + l - i) + b := by omega
        rw [offset, mul_add_div (by decide), div_eq_of_lt smallB, mul_add_mod,
          mod_eq_of_lt smallB, add_zero,
          show p * s.entriesPerCluster + l - i = k - (j * s.entriesPerCluster + i) by omega]
      · rw [if_neg (by omega), if_neg (by omega)]

/-- Of the entries of a name that fits, at least those in the first cluster are written, or none
at all. -/
def FirstFilled (s : SbInfo) (start n : Nat) (name : Name) : Prop :=
  n = 0 ∨ 0 < name.length ∧ lfnEntries name ≤ 20 ∧
    min (s.entriesPerCluster - start % s.entriesPerCluster) (lfnEntries name + 1) ≤ n

/-- `fat32_write_lfn` from entry `start` of the row on, however it ends. -/
lemma writeLfn_cases (g : Geometry s) (dir : Directory s d cs) {start : Nat}
    (inside : start < s.rowLength cs) {attr : UInt8} {firstCluster fileSize fuel : Nat}
    {r : Except Errno Unit}
    (done : s.writeLfn (cs.getD (start / s.entriesPerCluster) 0)
      (start % s.entriesPerCluster * 32) name attr firstCluster fileSize fuel = some (s', r)) :
    ∃ n, Written s s' cs start n (builtEntry name attr firstCluster fileSize) ∧
      FirstFilled s start n name ∧ n ≤ lfnEntries name + 1 ∧
        (r = .ok () ↔ n = lfnEntries name + 1) := by
  have positive := entriesPerCluster_pos g
  have size := clusterSize_eq g
  have bound := div_lt_length inside
  have small := mod_lt start positive
  have place := div_add_mod start s.entriesPerCluster
  rw [mul_comm] at place
  have none : Written s s cs start 0 (builtEntry name attr firstCluster fileSize) :=
    Written.refl (le_of_lt inside) _
  rw [getD_eq_getElem?_getD, getElem?_eq_getElem bound, getD_some, SbInfo.writeLfn] at done
  by_cases empty : name.length = 0
  · rw [if_pos empty] at done
    cases done
    exact ⟨0, none, .inl rfl, zero_le _, ⟨nofun, nofun⟩⟩
  rw [if_neg empty] at done
  by_cases long : 20 < lfnEntries name
  · rw [if_pos long] at done
    cases done
    exact ⟨0, none, .inl rfl, zero_le _, ⟨nofun, nofun⟩⟩
  rw [if_neg long] at done
  obtain ⟨n, bytes, least, most, ends⟩ := writeEntries_bytes g (dir.drop bound) done
    (dvd_mul_left 32 _) ⟨lfnEntries name + 1, by omega⟩
  have written := BytesWritten.written g dir bound small bytes
  rw [place] at written
  have offset : start % s.entriesPerCluster * 32 % s.clusterSize =
      start % s.entriesPerCluster * 32 := mod_eq_of_lt (by omega)
  refine ⟨n, written, ?_, by omega, ends.trans ⟨fun all => by omega, fun all => by omega⟩⟩
  rcases least with zero | least
  · exact .inl zero
  · exact .inr ⟨by omega, by omega, by omega⟩

lemma writeLfn_written (g : Geometry s) (dir : Directory s d cs) {start : Nat}
    (inside : start < s.rowLength cs) {attr : UInt8} {firstCluster fileSize fuel : Nat}
    (done : s.writeLfn (cs.getD (start / s.entriesPerCluster) 0)
      (start % s.entriesPerCluster * 32) name attr firstCluster fileSize fuel = some (s', .ok ())) :
    Written s s' cs start (lfnEntries name + 1) (builtEntry name attr firstCluster fileSize) ∧
      0 < name.length ∧ lfnEntries name ≤ 20 := by
  obtain ⟨n, written, some, _, ends⟩ := writeLfn_cases g dir inside done
  obtain rfl := ends.mp rfl
  rcases some with zero | ⟨named, short, _⟩
  · cases zero
  · exact ⟨written, named, short⟩

end AuroraOS.Fat32
