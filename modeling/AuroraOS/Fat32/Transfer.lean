import AuroraOS.Fat32.Create
import AuroraOS.Lib.Fuel
import AuroraOS.Lib.Ring
import Mathlib.Data.List.GetD
import Mathlib.Order.Interval.Finset.Nat

/-!
# The data of FAT32 files

The contents of a file are the first bytes of its chain.  `fat32_transfer_file` in write mode first
links free clusters behind the chain and then overlays the bytes cluster by cluster.
-/

namespace AuroraOS.Fat32

open Lib Function List Option Finset Function Nat Copy SbInfo

variable {s s' t : SbInfo} {cs new : List Nat} {c d i : Nat}

/-! ## Walks along a chain -/

lemma getNthCluster_eq (dir : Directory s d cs) {steps : Nat} (inside : steps < cs.length) :
    s.getNthCluster d steps = cs[steps] := by
  induction steps generalizing d cs with
  | zero =>
    obtain ⟨rest, rfl, _⟩ := dir.cases
    rfl
  | succ steps ih =>
    obtain ⟨rest, rfl, _, behind⟩ := dir.cases
    rw [getNthCluster, getElem_cons_succ]
    rcases behind with ⟨rfl, _⟩ | ⟨goes, next⟩
    · simp at inside
    · rw [if_neg goes]
      exact ih next (lt_of_succ_lt_succ inside)

section Walk

variable (g : Geometry s) (dir : Directory s d cs) {fuel : Nat} (enough : cs.length ≤ fuel)
include g dir enough

lemma countClusters_eq : s.countClusters fuel d = some cs.length := by
  induction fuel generalizing d cs with
  | zero =>
    obtain ⟨rest, rfl, _⟩ := dir.cases
    cases enough
  | succ fuel ih =>
    obtain ⟨rest, rfl, inside, behind⟩ := dir.cases
    rw [countClusters, if_pos (inside.bounds g)]
    rcases behind with ⟨rfl, ends⟩ | ⟨goes, next⟩
    · rw [if_pos ends]
      rfl
    · rw [if_neg goes, ih next (le_of_succ_le_succ enough)]
      rfl

lemma findLastCluster_eq (last : Nat) : s.findLastCluster fuel last d = some (cs.getLastD 0) := by
  induction fuel generalizing d cs last with
  | zero =>
    obtain ⟨rest, rfl, _⟩ := dir.cases
    cases enough
  | succ fuel ih =>
    obtain ⟨rest, rfl, inside, behind⟩ := dir.cases
    rw [findLastCluster, if_pos (inside.bounds g)]
    rcases behind with ⟨rfl, ends⟩ | ⟨goes, next⟩
    · rw [if_pos ends]
      rfl
    · obtain ⟨more, rfl, _⟩ := next.cases
      rw [if_neg goes, ih next (le_of_succ_le_succ enough)]
      rfl

end Walk

/-! ## Extending a chain -/

def SbInfo.freeClusters (s : SbInfo) : Finset Nat :=
  {c ∈ Ico 2 (s.totalClusters + 2) | s.getCluster c = clusterFree}

lemma mem_freeClusters : c ∈ s.freeClusters ↔ s.InVolume c ∧ s.getCluster c = clusterFree := by
  rw [freeClusters, Finset.mem_filter, Finset.mem_Ico]
  rfl

lemma findFreeCluster_ne_zero (g : Geometry s) (free : c ∈ s.freeClusters) :
    s.findFreeCluster.2 ≠ 0 := by
  obtain ⟨inside, free⟩ := mem_freeClusters.mp free
  have known : c ∈ range' 2 (s.clusterEnd - 2) := by
    rw [mem_range'_1, clusterEnd_eq g]
    have := inside.1
    have := inside.2
    omega
  unfold findFreeCluster
  cases search : (range' 2 (s.clusterEnd - 2)).find? fun c => s.getCluster c == clusterFree with
  | none =>
    have used := find?_eq_none.mp search c known
    rw [free] at used
    exact absurd rfl used
  | some m =>
    have low := (mem_range'_1.mp (mem_of_find?_eq_some search)).1
    exact ne_of_gt (lt_of_lt_of_le (by decide) low)

structure Grown (s s' : SbInfo) (d : Nat) (cs new : List Nat) : Prop where
  same : SameShape s s'
  chain : Directory s' d (cs ++ new)
  fresh : ∀ c ∈ new, s.getCluster c = clusterFree
  fat : ∀ c, s.InVolume c → c ∉ cs ++ new → s'.getCluster c = s.getCluster c
  data : ∀ c, s.InVolume c → s'.clusterData c = s.clusterData c

lemma Grown.refl (dir : Directory s d cs) : Grown s s d cs [] := by
  refine ⟨SameShape.refl s, ?_, fun c mem => ?_, fun _ _ _ => rfl, fun _ _ => rfl⟩
  · rwa [append_nil]
  · cases mem

lemma Grown.capacity (grown : Grown s s' d cs new) :
    cs.length * s.clusterSize ≤ (cs ++ new).length * s'.clusterSize := by
  rw [grown.same.clusterSize, length_append]
  exact mul_le_mul_right _ (le_add_right _ _)

lemma Grown.trans {more : List Nat} (one : Grown s s' d cs new)
    (two : Grown s' t d (cs ++ new) more) : Grown s t d cs (new ++ more) := by
  refine ⟨one.same.trans two.same, ?_, fun c mem => ?_, fun c inside foreign => ?_,
    fun c inside => ?_⟩
  · rw [← append_assoc]
    exact two.chain
  · rcases mem_append.mp mem with early | late
    · exact one.fresh c early
    -- a cluster free after the first part is none of the chain, so it was free before
    have free := two.fresh c late
    have outside : c ∉ cs ++ new := fun inside => one.chain.used c inside free
    have inside := two.chain.inside c (mem_append_right _ late)
    unfold InVolume at inside
    rw [two.same.totalClusters, one.same.totalClusters] at inside
    rw [← one.fat c inside outside]
    exact free
  · rw [← append_assoc] at foreign
    rw [two.fat c (inside.of_same one.same) foreign]
    exact one.fat c inside fun mem => foreign (mem_append_left _ mem)
  · rw [two.data c (inside.of_same one.same), one.data c inside]

lemma Grown.freeClusters_erase (dir : Directory s d cs) (grown : Grown s s' d cs [c]) :
    s.freeClusters.erase c ⊆ s'.freeClusters := by
  intro x mem
  obtain ⟨notNew, mem⟩ := mem_erase.mp mem
  obtain ⟨inside, free⟩ := mem_freeClusters.mp mem
  refine mem_freeClusters.mpr ⟨inside.of_same grown.same, ?_⟩
  rw [grown.fat x inside, free]
  intro inChain
  rcases mem_append.mp inChain with old | new
  · exact dir.used x old free
  · exact notNew (List.mem_singleton.mp new)

lemma extendChain_none (none : s.findFreeCluster.2 = 0) (more last : Nat) :
    extendChain (more + 1) s last = (s, false) := by
  rw [extendChain, if_pos (appendCluster_none none), appendCluster, if_pos none,
    findFreeCluster_none none]

section Extend

variable (g : Geometry s) (dir : Directory s d cs)
include g dir

lemma appendCluster_grown (found : s.findFreeCluster.2 ≠ 0) :
    Grown s (s.appendCluster (cs.getLastD 0)).1 d cs [s.findFreeCluster.2] := by
  have lastMember := dir.getLastD_mem
  have ⟨inside, free, _⟩ := findFreeCluster_spec g found
  have left := (appendCluster_leaves g (dir.inside _ lastMember) found).2
  refine ⟨left.same, dir.append g inside free left, fun c mem => ?_, fun c insideC foreign => ?_,
    left.data⟩
  · rw [List.mem_singleton.mp mem]
    exact free
  · have notLast : c ≠ cs.getLastD 0 := fun same =>
      foreign (mem_append_left _ (same ▸ lastMember))
    have notNew : c ≠ s.findFreeCluster.2 := fun same =>
      foreign (List.mem_append_right _ (List.mem_singleton.mpr same))
    rw [left.fat c insideC, update_of_ne notLast, update_of_ne notNew]

lemma extendChain_grown (more : Nat) :
    ∃ new, Grown s (extendChain more s (cs.getLastD 0)).1 d cs new ∧
      (more ≤ s.freeClusters.card →
        (extendChain more s (cs.getLastD 0)).2 = true ∧ new.length = more) := by
  induction more generalizing s cs with
  | zero => exact ⟨[], Grown.refl dir, fun _ => ⟨rfl, rfl⟩⟩
  | succ more ih =>
    by_cases none : s.findFreeCluster.2 = 0
    · rw [extendChain_none none]
      refine ⟨[], Grown.refl dir, fun enough => ?_⟩
      obtain ⟨c, free⟩ := card_pos.mp (lt_of_lt_of_le (succ_pos more) enough)
      exact absurd none (findFreeCluster_ne_zero g free)
    · have result := (appendCluster_leaves g (dir.inside _ dir.getLastD_mem) none).1
      have one := appendCluster_grown g dir none
      have left := le_trans pred_card_le_card_erase (card_le_card (one.freeClusters_erase dir))
      obtain ⟨new, two, all⟩ := ih (g.of_same one.same) one.chain
      rw [getLastD_concat] at two all
      rw [extendChain]
      simp only [result]
      rw [if_neg none]
      refine ⟨_, one.trans two, fun enough => ?_⟩
      obtain ⟨done, length⟩ := all (by omega)
      exact ⟨done, by rw [singleton_append, length_cons, length]⟩

end Extend

/-! ## The copy loop -/

def SbInfo.chainByte (s : SbInfo) (cs : List Nat) (i : Nat) : UInt8 :=
  s.clusterData (cs.getD (i / s.clusterSize) 0) (i % s.clusterSize)

lemma chainByte_eq (inside : i / s.clusterSize < cs.length) :
    s.chainByte cs i = s.clusterData cs[i / s.clusterSize] (i % s.clusterSize) := by
  rw [chainByte, getD_eq_getElem cs 0 inside]

lemma index_lt (inside : i < cs.length * s.clusterSize) : i / s.clusterSize < cs.length :=
  Nat.div_lt_of_lt_mul (by rwa [mul_comm])

lemma Grown.chainByte (grown : Grown s s' d cs new) (dir : Directory s d cs)
    (inside : i < cs.length * s.clusterSize) : s'.chainByte (cs ++ new) i = s.chainByte cs i := by
  have index := index_lt inside
  have longer : i / s.clusterSize < (cs ++ new).length := by
    rw [length_append]
    omega
  rw [chainByte_eq index]
  rw [← grown.same.clusterSize] at longer
  rw [chainByte_eq longer]
  simp only [grown.same.clusterSize]
  rw [getElem_append_left index, grown.data _ (dir.inside _ (getElem_mem index))]

lemma BytesWritten.chainByte {buf : Store} {offset written count : Nat}
    (done : BytesWritten s s' cs buf offset written count) (positive : 0 < s.clusterSize)
    (inside : i < cs.length * s.clusterSize) : s'.chainByte cs i =
      if offset ≤ i ∧ i < offset + count then buf (written + (i - offset))
      else s.chainByte cs i := by
  have index := index_lt inside
  have bytes := done.bytes _ index _ (mod_lt i positive)
  have split := div_add_mod i s.clusterSize
  rw [mul_comm] at split
  rw [split] at bytes
  rw [chainByte_eq index, ← bytes, SbInfo.chainByte, done.same.clusterSize,
    getD_eq_getElem cs 0 index]

variable {l : Copy}

lemma Copy.chunk_spec (g : Geometry l.s)
    (room : l.offset + l.remaining ≤ cs.length * l.s.clusterSize) (more : 0 < l.remaining) :
    0 < l.chunk ∧ l.chunk ≤ l.remaining ∧ l.offset % l.s.clusterSize + l.chunk ≤ l.s.clusterSize ∧
      l.offset / l.s.clusterSize < cs.length := by
  have remainder := mod_lt l.offset (clusterSize_pos g)
  have index : l.offset / l.s.clusterSize < cs.length := index_lt (by omega)
  unfold chunk
  omega

section Loop

variable (g : Geometry l.s) (dir : Directory l.s d cs)
include g dir

lemma Copy.target_eq (low : l.offset < 2 ^ 32) (inside : l.offset / l.s.clusterSize < cs.length) :
    l.s.getNthCluster d (l.offset / l.s.clusterSize % 2 ^ 32) = cs[l.offset / l.s.clusterSize] ∧
      cs[l.offset / l.s.clusterSize] ≠ clusterEocMax := by
  have index := div_le_self l.offset l.s.clusterSize
  have small := (dir.inside _ (getElem_mem inside)).numbers g
  constructor
  · rw [mod_eq_of_lt (by omega), getNthCluster_eq dir inside]
  · unfold clusterEocMin at small
    unfold clusterEocMax
    omega

lemma Copy.writeChunk_eq (inside : l.offset / l.s.clusterSize < cs.length)
    (fits : l.offset % l.s.clusterSize + l.chunk ≤ l.s.clusterSize) :
    ∃ s' clusterBuf, l.writeChunk cs[l.offset / l.s.clusterSize] =
        some { l with s := s', clusterBuf := clusterBuf } ∧
      BytesWritten l.s s' cs l.buf l.offset l.totalDone l.chunk := by
  have target := dir.inside _ (getElem_mem inside)
  simp only [writeChunk]
  by_cases part : l.offset % l.s.clusterSize ≠ 0 ∨ l.chunk < l.s.clusterSize
  · rw [if_pos part, readCluster_eq g target, bind_some, writeCluster_eq g target]
    exact ⟨_, _, rfl, bytesWritten_chunk g dir l.buf l.totalDone inside rfl fits fun _ _ _ => rfl⟩
  · -- the whole cluster is replaced, so what the buffer held does not matter
    rw [if_neg part, bind_some, writeCluster_eq g target]
    refine ⟨_, _, rfl, bytesWritten_chunk g dir l.buf l.totalDone inside rfl fits ?_⟩
    intro b small around
    omega

lemma Copy.readChunk_eq (inside : l.offset / l.s.clusterSize < cs.length)
    (fits : l.offset % l.s.clusterSize + l.chunk ≤ l.s.clusterSize) :
    ∃ clusterBuf, l.readChunk cs[l.offset / l.s.clusterSize] = some { l with
      clusterBuf := clusterBuf
      buf := blit l.buf l.totalDone l.chunk fun i => l.s.chainByte cs (l.offset + i) } := by
  refine ⟨l.s.clusterData cs[l.offset / l.s.clusterSize], ?_⟩
  rw [readChunk, readCluster_eq g (dir.inside _ (getElem_mem inside)), map_some]
  congr 2
  apply blit_congr
  intro i small
  have split := div_add_mod l.offset l.s.clusterSize
  have place : l.offset + i =
      l.offset % l.s.clusterSize + i + l.s.clusterSize * (l.offset / l.s.clusterSize) := by omega
  have within : l.offset % l.s.clusterSize + i < l.s.clusterSize := by omega
  have quotient : (l.offset + i) / l.s.clusterSize = l.offset / l.s.clusterSize := by
    rw [place, add_mul_div_left _ _ (clusterSize_pos g), div_eq_of_lt within, zero_add]
  have remainder : (l.offset + i) % l.s.clusterSize = l.offset % l.s.clusterSize + i := by
    rw [place, add_mul_mod_self_left, mod_eq_of_lt within]
  rw [chainByte, quotient, remainder, getD_eq_getElem cs 0 inside]

end Loop

lemma Copy.loop_write (g : Geometry l.s) (dir : Directory l.s d cs)
    (room : l.offset + l.remaining ≤ cs.length * l.s.clusterSize)
    (low : l.offset + l.remaining < 2 ^ 32) (fileSize : Nat) :
    ∃ s', BytesWritten l.s s' cs l.buf l.offset l.totalDone l.remaining ∧
      ∀ fuel, l.remaining < fuel → loop true d fileSize fuel l =
        some ⟨s', l.buf, .ok (l.totalDone + l.remaining),
          some (max fileSize (l.offset + l.remaining))⟩ := by
  induction size : l.remaining using Nat.strong_induction_on generalizing l with
  | _ n ih =>
    subst size
    rcases Nat.eq_zero_or_pos l.remaining with none | more
    · refine ⟨l.s, none ▸ BytesWritten.refl l.s cs l.buf l.offset l.totalDone, ?_⟩
      intro fuel enough
      obtain ⟨fuel, rfl⟩ := Nat.exists_eq_succ_of_ne_zero (Nat.ne_of_gt (by omega : 0 < fuel))
      rw [loop, if_neg (by omega), finished, if_pos rfl, none, add_zero, add_zero]
      congr 3
      split <;> omega
    · obtain ⟨positive, below, fits, inside⟩ := chunk_spec g room more
      obtain ⟨target, valid⟩ := target_eq g dir (by omega) inside
      obtain ⟨s1, clusterBuf, wrote, one⟩ := writeChunk_eq g dir inside fits
      have dir1 := dir.congr one.same fun c mem => one.fat c (dir.inside c mem)
      have size := one.same.clusterSize
      obtain ⟨s', two, run⟩ := ih (l.remaining - l.chunk) (by omega)
        (l := ({ l with s := s1, clusterBuf := clusterBuf } : Copy).advance l.chunk)
        (g.of_same one.same) dir1
        (by simp only [advance, size]; omega) (by simp only [advance]; omega) rfl
      simp only [advance] at two run
      have whole := one.trans two
      rw [Nat.add_sub_cancel' below] at whole
      refine ⟨s', whole, fun fuel enough => ?_⟩
      obtain ⟨fuel, rfl⟩ := Nat.exists_eq_succ_of_ne_zero (Nat.ne_of_gt (by omega : 0 < fuel))
      rw [loop, if_pos more]
      simp only
      rw [target, if_neg valid, if_pos trivial, wrote]
      simp only [advance]
      rw [run fuel (by omega)]
      simp only [add_assoc, Nat.add_sub_cancel' below]

lemma Copy.loop_read (g : Geometry l.s) (dir : Directory l.s d cs)
    (room : l.offset + l.remaining ≤ cs.length * l.s.clusterSize)
    (low : l.offset + l.remaining < 2 ^ 32) (fileSize : Nat) {fuel : Nat}
    (enough : l.remaining < fuel) : loop false d fileSize fuel l =
      some ⟨l.s, blit l.buf l.totalDone l.remaining fun i => l.s.chainByte cs (l.offset + i),
        .ok (l.totalDone + l.remaining), none⟩ := by
  induction fuel generalizing l with
  | zero => cases enough
  | succ fuel ih =>
    rcases Nat.eq_zero_or_pos l.remaining with none | more
    · rw [loop, if_neg (by omega), finished, none, add_zero]
      congr 2
      funext i
      rw [blit_outside (by omega)]
    · obtain ⟨positive, below, fits, inside⟩ := chunk_spec g room more
      obtain ⟨target, valid⟩ := target_eq g dir (by omega) inside
      obtain ⟨clusterBuf, read⟩ := readChunk_eq g dir inside fits
      have rest := ih
        (l := ({ l with
          clusterBuf := clusterBuf
          buf := blit l.buf l.totalDone l.chunk fun i => l.s.chainByte cs (l.offset + i) } :
            Copy).advance l.chunk)
        g dir (by simp only [advance]; omega) (by simp only [advance]; omega)
        (by simp only [advance]; omega)
      rw [loop, if_pos more]
      rw [target, if_neg valid, if_neg Bool.false_ne_true, read]
      simp only
      rw [rest]
      simp only [advance, add_assoc]
      rw [blit_append l.buf (fun i => l.s.chainByte cs (l.offset + i)), Nat.add_sub_cancel' below]

/-! ## Files -/

/-- A file of a volume: its first cluster, its size and the clusters of its chain, none for a
file without a first cluster. -/
structure File where
  first : Nat
  size : Nat
  clusters : List Nat

def SbInfo.contents (s : SbInfo) (f : File) : List UInt8 :=
  slice (s.chainByte f.clusters) 0 f.size

/-- The chain of a file ends, stays in the volume and has room for its bytes. -/
structure Stored (s : SbInfo) (f : File) : Prop where
  chain : if f.first < 2 then f.clusters = [] else Directory s f.first f.clusters
  room : f.size ≤ f.clusters.length * s.clusterSize
  width : f.size < 2 ^ 32

/-- A volume and its files, whose chains have no cluster in common. -/
structure Files {ι : Type} (s : SbInfo) (files : ι → File) : Prop where
  geometry : Geometry s
  width : s.clusterSize < 2 ^ 32
  stored : ∀ i, Stored s (files i)
  apart : ∀ i j, i ≠ j → (files i).clusters.Disjoint (files j).clusters

variable {f : File}

lemma Stored.directory (stored : Stored s f) (started : 2 ≤ f.first) :
    Directory s f.first f.clusters := by
  have chain := stored.chain
  rwa [if_neg (by omega)] at chain

lemma drop_take_slice {cells : Nat → UInt8} {a n k m : Nat} (within : k + m ≤ n) :
    ((slice cells a n).drop k).take m = slice cells (a + k) m := by
  apply ext_getElem
  · simp only [length_take, length_drop, length_slice]
    omega
  · intro i first second
    simp [Lib.slice, add_assoc]

lemma transferFile_reads (g : Geometry s) (stored : Stored s f) (started : 2 ≤ f.first)
    (buf : Store) {count offset : Nat} (narrow : offset + count < 2 ^ 64) (clusterBuf : Store) :
    ∃ buf', Returns (s.transferFile f.first f.size buf count offset false clusterBuf)
        ⟨s, buf', .ok (((s.contents f).drop offset).take count).length, none⟩ ∧
      slice buf' 0 (((s.contents f).drop offset).take count).length =
        ((s.contents f).drop offset).take count := by
  have dir := stored.directory started
  have room := stored.room
  have width := stored.width
  have length : (s.contents f).length = f.size := length_slice
  rcases lt_or_ge offset f.size with inside | behind
  · -- the count of the loop
    obtain ⟨n, clipped⟩ : ∃ n, n = min count (f.size - offset) := ⟨_, rfl⟩
    have part : ((s.contents f).drop offset).take count =
        slice (s.chainByte f.clusters) offset n := by
      rw [take_eq_take_min, length_drop, length, ← clipped, contents,
        drop_take_slice (by omega), zero_add]
    have counted : (if f.size < (offset + count) % 2 ^ 64 then f.size - offset else count) = n := by
      split <;> omega
    have run := fun fuel (enough : n < fuel) => loop_read
      (l := ⟨s, buf, clusterBuf, offset, 0, n⟩) g dir (by simp only; omega) (by simp only; omega)
      f.size enough
    refine ⟨blit buf 0 n fun i => s.chainByte f.clusters (offset + i),
      ⟨f.clusters.length + n + 1, fun fuel enough => ?_⟩, ?_⟩
    · rw [transferFile, countClusters_eq g dir (by omega), bind_some,
        if_neg Bool.false_ne_true, readFile, if_neg (by omega)]
      simp only [counted]
      rw [run fuel (by omega), part, length_slice, zero_add]
    · rw [part, length_slice]
      apply slice_congr
      intro i small
      rw [blit_inside (by omega) (by omega), zero_add, Nat.sub_zero]
  · have none : (s.contents f).drop offset = [] := drop_eq_nil_of_le (by omega)
    rw [none, take_nil]
    refine ⟨buf, ⟨f.clusters.length, fun fuel enough => ?_⟩, rfl⟩
    rw [transferFile, countClusters_eq g dir enough, bind_some,
      if_neg Bool.false_ne_true, readFile, if_pos behind]
    rfl

section Write

variable {count offset : Nat}

def SbInfo.clustersFor (s : SbInfo) (n : Nat) : Nat := (n + s.clusterSize - 1) / s.clusterSize

lemma clustersFor_spec (g : Geometry s) (n : Nat) :
    n ≤ s.clustersFor n * s.clusterSize ∧ s.clustersFor n ≤ n := by
  have positive := clusterSize_pos g
  have split := div_add_mod (n + s.clusterSize - 1) s.clusterSize
  have remainder := mod_lt (n + s.clusterSize - 1) positive
  rw [mul_comm] at split
  refine ⟨by unfold clustersFor; omega, ?_⟩
  rcases Nat.eq_zero_or_pos n with rfl | some
  · rw [clustersFor, Nat.div_eq_of_lt (by omega)]
  · obtain ⟨k, rfl⟩ := Nat.exists_eq_succ_of_ne_zero (Nat.ne_of_gt some)
    have := Nat.le_mul_of_pos_left k positive
    apply Nat.div_le_of_le_mul
    rw [Nat.mul_succ]
    omega

/-- A write first links as many clusters behind the chain as the bytes take. -/
lemma writeFile_eq (g : Geometry s) (width : s.clusterSize < 2 ^ 32) (dir : Directory s d cs)
    (low : offset + count < 2 ^ 32)
    (enough : s.clustersFor (offset + count) ≤ cs.length + s.freeClusters.card)
    (fileSize : Nat) (buf clusterBuf : Store) :
    ∃ mid new, Grown s mid d cs new ∧ offset + count ≤ (cs ++ new).length * mid.clusterSize ∧
      ∀ fuel, cs.length ≤ fuel → s.writeFile d fileSize buf count offset clusterBuf cs.length fuel =
          loop true d fileSize fuel ⟨mid, buf, clusterBuf, offset, 0, count⟩ := by
  have sum : (offset + count) % 2 ^ 64 = offset + count := mod_eq_of_lt (by omega)
  obtain ⟨covers, small⟩ := clustersFor_spec g (offset + count)
  rcases lt_or_ge (cs.length * s.clusterSize) (offset + count) with long | fits
  · have needed : (offset + count + s.clusterSize - 1) % 2 ^ 64 / s.clusterSize % 2 ^ 32 =
        s.clustersFor (offset + count) := by
      rw [mod_eq_of_lt (show offset + count + s.clusterSize - 1 < 2 ^ 64 by omega)]
      exact mod_eq_of_lt (lt_of_le_of_lt small low)
    have longer : cs.length < s.clustersFor (offset + count) :=
      Nat.lt_of_mul_lt_mul_right (long.trans_le covers)
    obtain ⟨new, grown, all⟩ := extendChain_grown g dir (s.clustersFor (offset + count) - cs.length)
    obtain ⟨run, length⟩ := all (by omega)
    refine ⟨_, new, grown, ?_, fun fuel walk => ?_⟩
    · rw [length_append, length, grown.same.clusterSize, Nat.add_sub_cancel' longer.le]
      exact covers
    · rw [writeFile, sum, if_pos long, findLastCluster_eq g dir walk, bind_some]
      simp only [needed, run]
      rfl
  · refine ⟨s, [], Grown.refl dir, by rwa [append_nil], fun fuel _ => ?_⟩
    rw [writeFile, sum, if_neg (by omega)]

def overlaid (contents : List UInt8) (offset : Nat) (data : List UInt8) : List UInt8 :=
  contents.take offset ++ data ++ contents.drop (offset + data.length)

lemma getElem?_overlaid {contents data : List UInt8} (within : offset ≤ contents.length)
    (i : Nat) : (overlaid contents offset data)[i]? =
      if offset ≤ i ∧ i < offset + data.length then data[i - offset]? else contents[i]? := by
  have length : (contents.take offset).length = offset := length_take_of_le within
  rw [overlaid, append_assoc]
  rcases lt_or_ge i offset with before | behind
  · rw [getElem?_append_left (by omega), getElem?_take_of_lt before, if_neg (by omega)]
  rw [getElem?_append_right (by omega), length]
  rcases lt_or_ge (i - offset) data.length with inside | after
  · rw [getElem?_append_left inside, if_pos (by omega)]
  · rw [getElem?_append_right after, getElem?_drop, if_neg (by omega)]
    congr 1
    omega

lemma contents_written {mid : SbInfo} {size : Nat} {data : List UInt8} {buf : Store}
    (positive : 0 < s.clusterSize) (dir : Directory s d cs)
    (room : size ≤ cs.length * s.clusterSize) (within : offset ≤ size)
    (given : slice buf 0 data.length = data) (grown : Grown s mid d cs new)
    (done : BytesWritten mid s' (cs ++ new) buf offset 0 data.length)
    (covers : offset + data.length ≤ (cs ++ new).length * mid.clusterSize) :
    s'.contents ⟨d, max size (offset + data.length), cs ++ new⟩ =
      overlaid (s.contents ⟨d, size, cs⟩) offset data := by
  have length : (s.contents ⟨d, size, cs⟩).length = size := length_slice
  have byte : ∀ i, i < data.length → data[i]? = some (buf i) := by
    intro i inside
    rw [← given]
    simp [Lib.slice, inside]
  have wider := grown.capacity
  apply ext_getElem?
  intro i
  rw [getElem?_overlaid (by omega)]
  simp only [contents, Lib.slice, zero_add, getElem?_map]
  rcases lt_or_ge i (max size (offset + data.length)) with inside | behind
  · rw [getElem?_range inside, map_some,
      done.chainByte (by rwa [grown.same.clusterSize]) (by omega)]
    by_cases written : offset ≤ i ∧ i < offset + data.length
    · rw [if_pos written, if_pos written, byte _ (by omega), zero_add]
    · have old : i < size := by omega
      rw [if_neg written, if_neg written, getElem?_range old, map_some,
        grown.chainByte dir (by omega)]
  · rw [getElem?_eq_none (by simpa using behind), if_neg (by omega),
      getElem?_eq_none (by simp; omega), map_none, map_none]

end Write

section Main

variable {ι : Type} [DecidableEq ι] {files : ι → File}

omit [DecidableEq ι] in
lemma Files.foreign (volume : Files s files) {i j : ι} (other : j ≠ i)
    (fresh : ∀ c ∈ new, s.getCluster c = clusterFree) {c : Nat} (mem : c ∈ (files j).clusters) :
    s.InVolume c ∧ c ∉ (files i).clusters ++ new := by
  have started : 2 ≤ (files j).first := by
    by_contra none
    have chain := (volume.stored j).chain
    rw [if_pos (by omega)] at chain
    rw [chain] at mem
    cases mem
  have dir := (volume.stored j).directory started
  refine ⟨dir.inside c mem, fun inside => ?_⟩
  rcases mem_append.mp inside with same | new
  · exact volume.apart j i other mem same
  · exact dir.used c mem (fresh c new)

lemma Files.written (volume : Files s files) {mid : SbInfo} {i : ι} {buf : Store}
    {offset count size : Nat} (dir : Directory s (files i).first (files i).clusters)
    (grown : Grown s mid (files i).first (files i).clusters new)
    (done : BytesWritten mid s' ((files i).clusters ++ new) buf offset 0 count)
    (room : size ≤ ((files i).clusters ++ new).length * mid.clusterSize) (width : size < 2 ^ 32) :
    Files s' (update files i ⟨(files i).first, size, (files i).clusters ++ new⟩) ∧
      ∀ j, j ≠ i → ∀ c ∈ (files j).clusters, s'.clusterData c = s.clusterData c := by
  have same := grown.same.trans done.same
  have foreign := fun {j} (other : j ≠ i) {c} mem =>
    volume.foreign other grown.fresh (c := c) mem
  refine ⟨⟨volume.geometry.of_same same, by rw [same.clusterSize]; exact volume.width, fun j => ?_,
    fun j k different => ?_⟩, fun j other c mem => ?_⟩
  · rcases eq_or_ne j i with rfl | other
    · rw [update_self]
      have chain := grown.chain.congr done.same fun c mem =>
        done.fat c (grown.chain.inside c mem)
      have low := dir.first_inside.1
      refine ⟨?_, by rw [done.same.clusterSize]; exact room, width⟩
      rw [if_neg (by simp only; omega)]
      exact chain
    · rw [update_of_ne other]
      have stored := volume.stored j
      refine ⟨?_, by rw [same.clusterSize]; exact stored.room, stored.width⟩
      split
      case isTrue none =>
        have chain := stored.chain
        rwa [if_pos none] at chain
      case isFalse started =>
        refine (stored.directory (by omega)).congr same fun c mem => ?_
        obtain ⟨inside, outside⟩ := foreign other mem
        rw [done.fat c (inside.of_same grown.same), grown.fat c inside outside]
  · rcases eq_or_ne j i with rfl | other
    · rw [update_self, update_of_ne different.symm]
      intro c mine theirs
      exact (foreign different.symm theirs).2 mine
    rw [update_of_ne other]
    rcases eq_or_ne k i with rfl | another
    · rw [update_self]
      intro c theirs mine
      exact (foreign other theirs).2 mine
    · rw [update_of_ne another]
      exact volume.apart j k different
  · obtain ⟨inside, outside⟩ := foreign other mem
    rw [done.others c (inside.of_same grown.same) outside, grown.data c inside]

/-- A write of bytes that start within a file and that the volume has room for returns their
number, later reads give the contents overlaid with them, and the other files keep their
chains and their bytes. -/
theorem transferFile_overlays (volume : Files s files) {i : ι} (started : 2 ≤ (files i).first)
    {offset : Nat} (within : offset ≤ (files i).size) {data : List UInt8}
    (low : offset + data.length < 2 ^ 32)
    (enough : s.clustersFor (offset + data.length) ≤
      (files i).clusters.length + s.freeClusters.card)
    {buf : Store} (given : slice buf 0 data.length = data) (clusterBuf : Store) :
    ∃ s' clusters,
      let file : File := ⟨(files i).first, max (files i).size (offset + data.length), clusters⟩
      Returns (s.transferFile (files i).first (files i).size buf data.length offset true
        clusterBuf) ⟨s', buf, .ok data.length, some file.size⟩ ∧
      Files s' (update files i file) ∧
      (∀ buf' count' offset' clusterBuf', offset' + count' < 2 ^ 64 →
        let bytes := ((overlaid (s.contents (files i)) offset data).drop offset').take count'
        ∃ buf'', Returns (s'.transferFile file.first file.size buf' count' offset' false
            clusterBuf') ⟨s', buf'', .ok bytes.length, none⟩ ∧
          slice buf'' 0 bytes.length = bytes) ∧
      ∀ j, j ≠ i → ∀ c ∈ (files j).clusters, s'.clusterData c = s.clusterData c := by
  have g := volume.geometry
  have stored := volume.stored i
  have dir := stored.directory started
  obtain ⟨mid, new, grown, covers, wrote⟩ := writeFile_eq g volume.width dir low enough
    (files i).size buf clusterBuf
  obtain ⟨s', done, run⟩ := loop_write (l := ⟨mid, buf, clusterBuf, offset, 0, data.length⟩)
    (g.of_same grown.same) grown.chain covers low (files i).size
  have room : max (files i).size (offset + data.length) ≤
      ((files i).clusters ++ new).length * mid.clusterSize :=
    Nat.max_le.mpr ⟨stored.room.trans grown.capacity, covers⟩
  have width := stored.width
  obtain ⟨after, others⟩ := volume.written dir grown done room (by omega)
  have contents := contents_written (clusterSize_pos g) dir stored.room within given grown done
    covers
  have self := after.stored i
  rw [update_self] at self
  refine ⟨s', (files i).clusters ++ new, ⟨(files i).clusters.length + data.length + 1,
      fun fuel large => ?_⟩, after, fun buf' count' offset' clusterBuf' narrow => ?_, others⟩
  · rw [transferFile, countClusters_eq g dir (by omega), bind_some, if_pos rfl,
      wrote fuel (by omega), run fuel (by simp only; omega)]
    simp only [zero_add]
  · have reads := transferFile_reads after.geometry self started buf' narrow clusterBuf'
    rw [contents] at reads
    exact reads

def letters : File := ⟨2, 510, [2]⟩

lemma letters_files : Files (smallVolume fun _ => 0x41) fun _ : Unit => letters := by
  refine ⟨smallVolume_geometry _, by decide, fun _ => ⟨?_, by decide, by decide⟩,
    fun i j different => absurd rfl different⟩
  rw [if_neg (by decide)]
  exact smallVolume_directory _

/-- Three bytes behind the letters take a second cluster. -/
theorem transferFile_overlays_letters :
    let buf : Store := fun i => UInt8.ofNat (i + 1)
    ∃ s' buf', Returns ((smallVolume fun _ => 0x41).transferFile 2 510 buf 3 510 true fun _ => 0)
        ⟨s', buf, .ok 3, some 513⟩ ∧
      Returns (s'.transferFile 2 513 buf 9 509 false fun _ => 0) ⟨s', buf', .ok 4, none⟩ ∧
      slice buf' 0 4 = [0x41, 1, 2, 3] := by
  intro buf
  have given : slice buf 0 [1, 2, 3].length = [1, 2, 3] := by decide
  obtain ⟨s', clusters, wrote, -, reads, -⟩ := transferFile_overlays letters_files (i := ())
    (by decide) (show 510 ≤ 510 from le_rfl) (show 510 + [1, 2, 3].length < 2 ^ 32 by decide)
    (by decide +kernel) given fun _ => 0
  obtain ⟨buf', read, bytes⟩ := reads buf 9 509 (fun _ => 0) (by decide)
  have value : ((overlaid ((smallVolume fun _ => 0x41).contents letters) 510 [1, 2, 3]).drop
      509).take 9 = [0x41, 1, 2, 3] := by
    decide +kernel
  rw [value] at read bytes
  exact ⟨s', buf', wrote, read, bytes⟩

end Main

end AuroraOS.Fat32
