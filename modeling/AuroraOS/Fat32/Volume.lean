import AuroraOS.Fat32.Model
import AuroraOS.Lib.Chain
import Mathlib.Data.Nat.ModEq

/-!
# The clusters of a FAT32 volume

On a volume whose areas fit the device, each cluster has a FAT entry and contents of its
own.  `setCluster` changes one entry and no contents, `writeCluster` the contents of
one cluster and no entry, and a directory is the chain of clusters that the entries link.
-/

namespace AuroraOS.Fat32

open Lib Block Function List Option Nat

/-! ## Layout -/

/-- The areas of the volume follow each other on the device, and the FAT has an entry for
every cluster. -/
structure Geometry (s : SbInfo) : Prop where
  sector : s.bdev.blockSize = s.bytesPerSector
  positive : 0 < s.bytesPerSector
  aligned : 32 ∣ s.bytesPerSector
  perCluster : 0 < s.sectorsPerCluster
  byteCount : s.sectorsPerCluster < 256
  clusterSize : s.clusterSize = s.sectorsPerCluster * s.bytesPerSector
  fats : 0 < s.numFats
  fatRoom : (s.totalClusters + 2) * 4 ≤ s.sectorsPerFat * s.bytesPerSector
  layout : s.fatStart + s.numFats * s.sectorsPerFat ≤ s.dataStart
  dataLow : s.dataStart < 2 ^ 32
  within : s.dataStart + s.totalClusters * s.sectorsPerCluster ≤ s.bdev.totalSectors
  numbers : s.totalClusters + 2 ≤ clusterEocMin

/-- The volumes differ in their bytes and in the cached FAT only. -/
structure SameShape (s s' : SbInfo) : Prop where
  blockSize : s'.bdev.blockSize = s.bdev.blockSize
  totalSectors : s'.bdev.totalSectors = s.bdev.totalSectors
  bytesPerSector : s'.bytesPerSector = s.bytesPerSector
  sectorsPerCluster : s'.sectorsPerCluster = s.sectorsPerCluster
  numFats : s'.numFats = s.numFats
  sectorsPerFat : s'.sectorsPerFat = s.sectorsPerFat
  fatStart : s'.fatStart = s.fatStart
  dataStart : s'.dataStart = s.dataStart
  clusterSize : s'.clusterSize = s.clusterSize
  totalClusters : s'.totalClusters = s.totalClusters

variable {s s' t : SbInfo} {c c' n v : Nat}

lemma SameShape.refl (s : SbInfo) : SameShape s s := by
  constructor <;> rfl

lemma SameShape.trans (first : SameShape s s') (second : SameShape s' t) : SameShape s t :=
  ⟨second.blockSize.trans first.blockSize, second.totalSectors.trans first.totalSectors,
    second.bytesPerSector.trans first.bytesPerSector,
    second.sectorsPerCluster.trans first.sectorsPerCluster, second.numFats.trans first.numFats,
    second.sectorsPerFat.trans first.sectorsPerFat, second.fatStart.trans first.fatStart,
    second.dataStart.trans first.dataStart, second.clusterSize.trans first.clusterSize,
    second.totalClusters.trans first.totalClusters⟩

lemma Geometry.of_same (g : Geometry s) (same : SameShape s s') : Geometry s' := by
  have ⟨sector, positive, aligned, perCluster, byteCount, clusterSize, fats, fatRoom, layout,
    dataLow, within, numbers⟩ := g
  constructor <;> simp only [same.blockSize, same.totalSectors, same.bytesPerSector,
    same.sectorsPerCluster, same.numFats, same.sectorsPerFat, same.fatStart, same.dataStart,
    same.clusterSize, same.totalClusters] <;> assumption

lemma SameShape.entriesPerCluster (same : SameShape s s') :
    s'.entriesPerCluster = s.entriesPerCluster := by
  rw [SbInfo.entriesPerCluster, SbInfo.entriesPerCluster, same.clusterSize]

namespace SbInfo

def InVolume (s : SbInfo) (c : Nat) : Prop := 2 ≤ c ∧ c < s.totalClusters + 2

def clusterAddr (s : SbInfo) (c : Nat) : Nat :=
  ((c - 2) * s.sectorsPerCluster + s.dataStart) * s.bytesPerSector

def clusterData (s : SbInfo) (c : Nat) : Store := fun b =>
  if b < s.clusterSize then s.bdev.data (s.clusterAddr c + b) else 0

def HasEntry (s : SbInfo) (c : Nat) : Prop := (c + 1) * 4 ≤ s.sectorsPerFat * s.bytesPerSector

def fatAddr (s : SbInfo) (fat c : Nat) : Nat :=
  (s.fatStart + fat * s.sectorsPerFat) * s.bytesPerSector + c * 4

end SbInfo

open SbInfo

lemma SbInfo.InVolume.of_same (inside : s.InVolume c) (same : SameShape s s') :
    s'.InVolume c := by
  unfold SbInfo.InVolume
  rw [same.totalClusters]
  exact inside

lemma SameShape.fatAddr (same : SameShape s s') (fat c : Nat) :
    s'.fatAddr fat c = s.fatAddr fat c := by
  unfold SbInfo.fatAddr
  rw [same.fatStart, same.sectorsPerFat, same.bytesPerSector]

lemma SameShape.clusterAddr (same : SameShape s s') : s'.clusterAddr c = s.clusterAddr c := by
  unfold SbInfo.clusterAddr
  rw [same.sectorsPerCluster, same.dataStart, same.bytesPerSector]

lemma mul_add_le_mul {a b : Nat} (less : a < b) (n : Nat) : a * n + n ≤ b * n :=
  (succ_mul a n).symm.trans_le (mul_le_mul_right n less)

lemma data_le_clusterAddr : s.dataStart * s.bytesPerSector ≤ s.clusterAddr c :=
  mul_le_mul_right _ (le_add_left _ _)

section Layout

variable (g : Geometry s)
include g

lemma SbInfo.InVolume.numbers (inside : s.InVolume c) : c < clusterEocMin := by
  have bound := g.numbers
  have high := inside.2
  omega

lemma SbInfo.InVolume.bounds (inside : s.InVolume c) : 2 ≤ c ∧ c < clusterEocMin :=
  ⟨inside.1, inside.numbers g⟩

lemma SbInfo.InVolume.lt_two_pow (inside : s.InVolume c) : c < 2 ^ 32 :=
  (inside.numbers g).trans (by decide)

lemma SbInfo.InVolume.valid (inside : s.InVolume c) : ¬ (c < 2 ∨ clusterEocMax ≤ c) := by
  have small := inside.numbers g
  have low := inside.1
  unfold clusterEocMin at small
  unfold clusterEocMax
  omega

lemma SbInfo.InVolume.hasEntry (inside : s.InVolume c) : s.HasEntry c := by
  have room := g.fatRoom
  have high := inside.2
  unfold SbInfo.HasEntry
  omega

lemma clusterEnd_eq : s.clusterEnd = s.totalClusters + 2 := by
  have bound := g.numbers
  unfold clusterEocMin at bound
  unfold SbInfo.clusterEnd
  omega

lemma clusterToSector_eq (inside : s.InVolume c) :
    s.clusterToSector c = (c - 2) * s.sectorsPerCluster + s.dataStart := by
  have small := inside.lt_two_pow g
  have low := inside.1
  have number : (c + 2 ^ 32 - 2) % 2 ^ 32 = c - 2 := by omega
  rw [SbInfo.clusterToSector, number]

lemma cluster_inRange (inside : s.InVolume c) :
    s.bdev.inRange (s.clusterToSector c) s.sectorsPerCluster = true := by
  have ⟨low, high⟩ := inside
  have within := g.within
  have sectors := mul_add_le_mul (show c - 2 < s.totalClusters by omega) s.sectorsPerCluster
  have positive := g.perCluster
  have small := g.byteCount
  rw [clusterToSector_eq g inside, BlockDevice.inRange, decide_eq_true_eq]
  omega

lemma readCluster_eq (inside : s.InVolume c) : s.readCluster c = some (s.clusterData c) := by
  rw [SbInfo.readCluster, blockDevRead, if_pos (cluster_inRange g inside), some_inj]
  rw [g.sector, ← g.clusterSize, clusterToSector_eq g inside]
  rfl

omit g in
lemma fatAddr_apart (fat fat' : Nat) (room : s.HasEntry c) (room' : s.HasEntry c')
    (different : fat ≠ fat' ∨ c ≠ c') :
    s.fatAddr fat c + 4 ≤ s.fatAddr fat' c' ∨ s.fatAddr fat' c' + 4 ≤ s.fatAddr fat c := by
  unfold SbInfo.HasEntry at room room'
  have copies : ∀ a b, a < b →
      (s.fatStart + a * s.sectorsPerFat) * s.bytesPerSector + s.sectorsPerFat * s.bytesPerSector ≤
        (s.fatStart + b * s.sectorsPerFat) * s.bytesPerSector := by
    intro a b less
    rw [← add_mul, add_assoc, ← succ_mul]
    exact Nat.mul_le_mul_right _ (Nat.add_le_add_left (Nat.mul_le_mul_right _ less) _)
  unfold SbInfo.fatAddr
  rcases lt_trichotomy fat fat' with less | same | more
  · have := copies fat fat' less
    omega
  · rw [same]
    omega
  · have := copies fat' fat more
    omega

lemma fatAddr_data {fat : Nat} (copy : fat < s.numFats) (inside : s.InVolume c) :
    s.fatAddr fat c + 4 ≤ s.dataStart * s.bytesPerSector := by
  have room := g.fatRoom
  have high := inside.2
  have copies : (s.fatStart + fat * s.sectorsPerFat + s.sectorsPerFat) * s.bytesPerSector ≤
      s.dataStart * s.bytesPerSector := by
    apply Nat.mul_le_mul_right
    have below := mul_add_le_mul copy s.sectorsPerFat
    have := g.layout
    omega
  rw [add_mul] at copies
  unfold SbInfo.fatAddr
  omega

lemma clusterAddr_apart (low : 2 ≤ c) (low' : 2 ≤ c') (different : c ≠ c') :
    s.clusterAddr c + s.clusterSize ≤ s.clusterAddr c' ∨
      s.clusterAddr c' + s.clusterSize ≤ s.clusterAddr c := by
  have step : ∀ a b, 2 ≤ a → a < b → s.clusterAddr a + s.clusterSize ≤ s.clusterAddr b := by
    intro a b least less
    rw [g.clusterSize]
    unfold SbInfo.clusterAddr
    rw [← add_mul]
    apply Nat.mul_le_mul_right
    have := mul_add_le_mul (show a - 2 < b - 2 by omega) s.sectorsPerCluster
    omega
  rcases lt_or_gt_of_ne different with less | more
  · exact .inl (step c c' low less)
  · exact .inr (step c' c low' more)

lemma fatSector_addr (inside : s.InVolume c) (fat : Nat) :
    (s.fatSector c + fat * s.sectorsPerFat) * s.bytesPerSector + c * 4 % s.bytesPerSector =
      s.fatAddr fat c := by
  have small : s.fatStart + c * 4 / s.bytesPerSector < 2 ^ 32 := by
    have entry : c * 4 / s.bytesPerSector < s.sectorsPerFat := by
      apply Nat.div_lt_of_lt_mul
      have := g.fatRoom
      have := inside.2
      rw [mul_comm s.bytesPerSector]
      omega
    have copies := mul_le_mul_right s.sectorsPerFat (show 1 ≤ s.numFats from g.fats)
    have := g.layout
    have := g.dataLow
    omega
  have split := div_add_mod (c * 4) s.bytesPerSector
  rw [SbInfo.fatSector, mod_eq_of_lt small, SbInfo.fatAddr]
  calc _ = (s.fatStart + fat * s.sectorsPerFat) * s.bytesPerSector +
        (s.bytesPerSector * (c * 4 / s.bytesPerSector) + c * 4 % s.bytesPerSector) := by ring
    _ = _ := by rw [split]

lemma fatOffset_room (c : Nat) : c * 4 % s.bytesPerSector + 4 ≤ s.bytesPerSector := by
  have four : 4 ∣ s.bytesPerSector := dvd_trans (by decide) g.aligned
  obtain ⟨q, size⟩ := four
  have below := mod_lt (c * 4) g.positive
  rw [size] at below ⊢
  rw [mul_comm c 4, mul_mod_mul_left] at below ⊢
  omega

lemma fat_inRange {fat : Nat} (copy : fat < s.numFats) (inside : s.InVolume c) :
    s.bdev.inRange (s.fatSector c + fat * s.sectorsPerFat) 1 = true := by
  have addr := fatSector_addr g inside fat
  have before := fatAddr_data g copy inside
  have below : s.fatSector c + fat * s.sectorsPerFat < s.dataStart := by
    apply Nat.lt_of_mul_lt_mul_right (a := s.bytesPerSector)
    omega
  have := g.within
  rw [BlockDevice.inRange, decide_eq_true_eq]
  omega

end Layout

/-! ## Contents of clusters -/

def SbInfo.patched (s : SbInfo) (p : Patch) : SbInfo :=
  { s with bdev := { s.bdev with data := p.apply s.bdev.data, log := s.bdev.log ++ [p] } }

lemma patched_same (s : SbInfo) (p : Patch) : SameShape s (s.patched p) := by
  constructor <;> rfl

def SbInfo.wrote (s : SbInfo) (c : Nat) (buf : Store) : SbInfo :=
  s.patched ⟨s.clusterAddr c, s.clusterSize, buf⟩

lemma wrote_same (s : SbInfo) (c : Nat) (buf : Store) : SameShape s (s.wrote c buf) :=
  patched_same s _

lemma wrote_data (s : SbInfo) (c : Nat) (buf : Store) :
    (s.wrote c buf).bdev.data = blit s.bdev.data (s.clusterAddr c) s.clusterSize buf := rfl

lemma wrote_fatCache (s : SbInfo) (c : Nat) (buf : Store) :
    (s.wrote c buf).fatCache = s.fatCache := rfl

lemma clusterData_same (same : SameShape s s') (c b : Nat) :
    s'.clusterData c b = if b < s.clusterSize then s'.bdev.data (s.clusterAddr c + b) else 0 := by
  rw [SbInfo.clusterData, same.clusterSize, same.clusterAddr]

section Write

variable {buf : Store}

lemma clusterData_wrote_self {b : Nat} (small : b < s.clusterSize) :
    (s.wrote c buf).clusterData c b = buf b := by
  rw [clusterData_same (wrote_same s c buf), if_pos small, wrote_data,
    blit_inside (by omega) (by omega), Nat.add_sub_cancel_left]

variable (g : Geometry s)
include g

lemma writeCluster_eq (inside : s.InVolume c) : s.writeCluster c buf = some (s.wrote c buf) := by
  have addr : s.clusterToSector c * s.bdev.blockSize = s.clusterAddr c := by
    rw [clusterToSector_eq g inside, g.sector, SbInfo.clusterAddr]
  have size : s.sectorsPerCluster * s.bdev.blockSize = s.clusterSize := by
    rw [g.sector, g.clusterSize]
  rw [SbInfo.writeCluster, blockDevWrite, if_pos (cluster_inRange g inside), addr, size]
  rfl

lemma clusterData_wrote_other (low : 2 ≤ c) (low' : 2 ≤ c') (different : c' ≠ c) :
    (s.wrote c buf).clusterData c' = s.clusterData c' := by
  have apart := clusterAddr_apart g low' low different
  funext b
  rw [clusterData_same (wrote_same s c buf), SbInfo.clusterData]
  split
  · rw [wrote_data, blit_outside (by omega)]
  · rfl

end Write

/-! ## FAT entries -/

lemma getCluster_eq (g : Geometry s) (inside : s.InVolume c) :
    s.getCluster c = (match s.fatCache with
      | some cache => cache c
      | none => leRead s.bdev.data (s.fatAddr 0 c) 4) % 2 ^ 28 := by
  have known : decide (c < s.clusterEnd) = true := by
    rw [clusterEnd_eq g, decide_eq_true_eq]
    exact inside.2
  have ranged := fat_inRange g g.fats inside
  have addr := fatSector_addr g inside 0
  have room := fatOffset_room g c
  rw [zero_mul, add_zero] at ranged addr
  rw [SbInfo.getCluster, if_neg (inside.valid g), known]
  cases s.fatCache with
  | some cache => rfl
  | none =>
    rw [blockDevRead, if_pos ranged]
    simp only
    rw [← addr]
    congr 1
    apply leRead_shift
    intro i least upTo
    rw [if_pos (by rw [g.sector]; omega), g.sector]

lemma getCluster_wrote (g : Geometry s) {buf : Store} (inside' : s.InVolume c') :
    (s.wrote c buf).getCluster c' = s.getCluster c' := by
  have same := wrote_same s c buf
  have before := le_trans (fatAddr_data g g.fats inside') (data_le_clusterAddr (c := c))
  rw [getCluster_eq (g.of_same same) (inside'.of_same same), getCluster_eq g inside']
  rw [wrote_fatCache, wrote_data, same.fatAddr]
  rw [leRead_congr]
  intro i _ high
  apply blit_outside
  omega

structure Rewritten (d d' : BlockDevice) (data : Store) : Prop where
  blockSize : d'.blockSize = d.blockSize
  totalSectors : d'.totalSectors = d.totalSectors
  data : d'.data = data

variable {d : BlockDevice} {off last : Nat}

lemma rewrite_data {sector : Nat} (v : Nat)
    (ranged : d.inRange sector 1 = true) (room : off + 4 ≤ d.blockSize) :
    ∃ buf d', blockDevRead d sector 1 = some buf ∧
      blockDevWrite d (leWrite buf off 4 v) sector 1 = some d' ∧
      Rewritten d d' (leWrite d.data (sector * d.blockSize + off) 4 v) := by
  refine ⟨_, _, if_pos ranged, if_pos ranged, rfl, rfl, ?_⟩
  funext i
  simp only [Patch.apply, blit, leWrite, one_mul]
  by_cases inside : sector * d.blockSize ≤ i ∧ i < sector * d.blockSize + d.blockSize
  · rw [if_pos inside]
    by_cases field : off ≤ i - sector * d.blockSize ∧ i - sector * d.blockSize < off + 4
    · rw [if_pos field, if_pos (by omega)]
      congr 3
      omega
    · rw [if_neg field, if_pos (by omega), if_neg (by omega)]
      congr 1
      omega
  · rw [if_neg inside, if_neg (by omega)]

def fatsWritten (s : SbInfo) (c v : Nat) (m : Store) (fats : List Nat) : Store :=
  fats.foldl (fun m fat => leWrite m (s.fatAddr fat c) 4 v) m

lemma setCopies_eq (g : Geometry s) (inside : s.InVolume c)
    (size : d.blockSize = s.bdev.blockSize) (sectors : d.totalSectors = s.bdev.totalSectors)
    (fats : List Nat) (copies : ∀ fat ∈ fats, fat < s.numFats) :
    ∃ d', setCopies (s.fatSector c) s.sectorsPerFat (c * 4 % s.bytesPerSector) v d fats =
      (d', .ok ()) ∧ Rewritten d d' (fatsWritten s c v d.data fats) := by
  induction fats generalizing d with
  | nil => exact ⟨d, rfl, rfl, rfl, rfl⟩
  | cons fat fats ih =>
    have ranged : d.inRange (s.fatSector c + fat * s.sectorsPerFat) 1 = true := by
      have := fat_inRange g (copies fat mem_cons_self) inside
      rw [BlockDevice.inRange] at this ⊢
      rw [sectors]
      exact this
    have room : c * 4 % s.bytesPerSector + 4 ≤ d.blockSize := by
      rw [size, g.sector]
      exact fatOffset_room g c
    obtain ⟨buf, d', read, write, here⟩ := rewrite_data v ranged room
    obtain ⟨d'', rest, there⟩ := ih (here.blockSize.trans size) (here.totalSectors.trans sectors)
      fun fat' mem => copies fat' (mem_cons_of_mem _ mem)
    refine ⟨d'', ?_, there.blockSize.trans here.blockSize,
      there.totalSectors.trans here.totalSectors, ?_⟩
    · rw [setCopies, read]
      simp only
      rw [write]
      exact rest
    · rw [there.data, here.data, size, g.sector, fatSector_addr g inside]
      rfl

lemma fatsWritten_outside {m : Store} {fats : List Nat} {i : Nat}
    (out : ∀ fat ∈ fats, i < s.fatAddr fat c ∨ s.fatAddr fat c + 4 ≤ i) :
    fatsWritten s c v m fats i = m i := by
  induction fats generalizing m with
  | nil => rfl
  | cons fat fats ih =>
    rw [fatsWritten, foldl_cons]
    rw [← fatsWritten, ih fun fat' mem => out fat' (mem_cons_of_mem _ mem)]
    exact leWrite_outside (out fat mem_cons_self)

section Set

variable (g : Geometry s) (inside : s.InVolume c)
include g inside

lemma setCluster_eq : ∃ d, s.setCluster c v =
    ({ s with bdev := d, fatCache := s.setCache c (v % 2 ^ 28) }, .ok ()) ∧
    Rewritten s.bdev d (fatsWritten s c (v % 2 ^ 28) s.bdev.data (range s.numFats)) := by
  obtain ⟨d, copies, written⟩ := setCopies_eq g inside rfl rfl
    (range s.numFats) fun fat mem => mem_range.mp mem
  refine ⟨d, ?_, written⟩
  rw [SbInfo.setCluster, if_neg (inside.valid g)]
  simp only [copies]

lemma setCluster_same : SameShape s (s.setCluster c v).1 := by
  obtain ⟨d, eq, written⟩ := setCluster_eq g inside
  rw [eq]
  exact ⟨written.blockSize, written.totalSectors, rfl, rfl, rfl, rfl, rfl, rfl, rfl, rfl⟩

lemma setCluster_data : (s.setCluster c v).1.bdev.data =
    fatsWritten s c (v % 2 ^ 28) s.bdev.data (range s.numFats) := by
  obtain ⟨d, eq, written⟩ := setCluster_eq g inside
  rw [eq]
  exact written.data

lemma setCluster_fatCache : (s.setCluster c v).1.fatCache = s.setCache c (v % 2 ^ 28) := by
  obtain ⟨d, eq, _⟩ := setCluster_eq g inside
  rw [eq]

lemma clusterData_setCluster (c' : Nat) :
    (s.setCluster c v).1.clusterData c' = s.clusterData c' := by
  funext b
  rw [clusterData_same (setCluster_same g inside), setCluster_data g inside, SbInfo.clusterData]
  split
  · rw [fatsWritten_outside]
    intro fat mem
    have before := fatAddr_data g (mem_range.mp mem) inside
    have := data_le_clusterAddr (s := s) (c := c')
    omega
  · rfl

lemma leRead_fatsWritten {fat : Nat} (copy : fat < s.numFats) (entry : s.HasEntry c')
    (small : v < 2 ^ 28) :
    leRead (fatsWritten s c v s.bdev.data (range s.numFats)) (s.fatAddr fat c') 4 =
      if c' = c then v else leRead s.bdev.data (s.fatAddr fat c') 4 := by
  have own := inside.hasEntry g
  have written : ∀ (fats : List Nat) (m : Store), fat ∈ fats →
      leRead (fatsWritten s c v m fats) (s.fatAddr fat c) 4 = v := by
    intro fats
    induction fats with
    | nil => exact nofun
    | cons first fats ih =>
      intro m mem
      rw [fatsWritten, foldl_cons, ← fatsWritten]
      by_cases later : fat ∈ fats
      · exact ih _ later
      rw [← (mem_cons.mp mem).resolve_right later,
        leRead_congr (m := leWrite m (s.fatAddr fat c) 4 v), leRead_leWrite_same,
        mod_eq_of_lt (by omega)]
      intro i least upTo
      apply fatsWritten_outside
      intro other memOther
      have := fatAddr_apart fat other own own (.inl fun same => later (same ▸ memOther))
      omega
  split
  case isTrue same =>
    rw [same]
    exact written _ _ (mem_range.mpr copy)
  case isFalse other =>
    apply leRead_congr
    intro i least upTo
    apply fatsWritten_outside
    intro fat' _
    have := fatAddr_apart fat fat' entry own (.inr other)
    omega

lemma getCluster_setCluster (inside' : s.InVolume c') :
    (s.setCluster c v).1.getCluster c' = if c' = c then v % 2 ^ 28 else s.getCluster c' := by
  have same := setCluster_same (v := v) g inside
  have known : c < s.clusterEnd := by
    rw [clusterEnd_eq g]
    exact inside.2
  have small : v % 2 ^ 28 < 2 ^ 28 := mod_lt _ (by decide)
  have disk := leRead_fatsWritten g inside g.fats (inside'.hasEntry g) small
  rw [getCluster_eq (g.of_same same) (inside'.of_same same), getCluster_eq g inside']
  rw [setCluster_fatCache g inside, setCluster_data g inside, same.fatAddr, disk, SbInfo.setCache]
  cases s.fatCache with
  | none =>
    simp only [map_none]
    split
    · exact mod_eq_of_lt small
    · rfl
  | some cache =>
    simp only [map_some, if_pos known, update_apply]
    split
    · exact mod_eq_of_lt small
    · rfl

end Set

/-! ## What a call leaves -/

structure Leaves (s s' : SbInfo) (fat : Nat → Nat) (data : Nat → Store) : Prop where
  same : SameShape s s'
  fat : ∀ c, s.InVolume c → s'.getCluster c = fat c
  data : ∀ c, s.InVolume c → s'.clusterData c = data c

def SbInfo.clip (s : SbInfo) (buf : Store) : Store := fun b =>
  if b < s.clusterSize then buf b else 0

lemma Leaves.refl (s : SbInfo) : Leaves s s s.getCluster s.clusterData :=
  ⟨.refl s, fun _ _ => rfl, fun _ _ => rfl⟩

section Leaves

variable {fat : Nat → Nat} {data : Nat → Store} (left : Leaves s t fat data) (g : Geometry s)
  (inside : s.InVolume c)
include left g inside

lemma Leaves.set (v : Nat) : Leaves s (t.setCluster c v).1 (update fat c (v % 2 ^ 28)) data := by
  have gt := g.of_same left.same
  have there := inside.of_same left.same
  refine ⟨left.same.trans (setCluster_same gt there), fun c' inside' => ?_, fun c' inside' => ?_⟩
  · rw [getCluster_setCluster gt there (inside'.of_same left.same), left.fat c' inside',
      update_apply]
  · rw [clusterData_setCluster gt there, left.data c' inside']

lemma Leaves.wrote (buf : Store) : Leaves s (t.wrote c buf) fat (update data c (s.clip buf)) := by
  have gt := g.of_same left.same
  refine ⟨left.same.trans (wrote_same t c buf), fun c' inside' => ?_, fun c' inside' => ?_⟩
  · rw [getCluster_wrote gt (inside'.of_same left.same), left.fat c' inside']
  by_cases here : c' = c
  · rw [here, update_self]
    funext b
    rw [SbInfo.clip, ← left.same.clusterSize]
    by_cases small : b < t.clusterSize
    · rw [clusterData_wrote_self small, if_pos small]
    · rw [clusterData_same (wrote_same t c buf), if_neg small, if_neg small]
  · rw [update_of_ne here, clusterData_wrote_other gt inside.1 inside'.1 here,
      left.data c' inside']

omit left

lemma setCluster_leaves (v : Nat) : Leaves s (s.setCluster c v).1
    (update s.getCluster c (v % 2 ^ 28)) s.clusterData :=
  (Leaves.refl s).set g inside v

lemma wrote_leaves (buf : Store) : Leaves s (s.wrote c buf) s.getCluster
    (update s.clusterData c (s.clip buf)) :=
  (Leaves.refl s).wrote g inside buf

end Leaves

lemma findFreeCluster_spec (g : Geometry s) (found : s.findFreeCluster.2 ≠ 0) :
    s.InVolume s.findFreeCluster.2 ∧ s.getCluster s.findFreeCluster.2 = clusterFree ∧
      s.findFreeCluster.1 = (s.setCluster s.findFreeCluster.2 clusterEocMax).1 := by
  unfold SbInfo.findFreeCluster at found ⊢
  cases search : (range' 2 (s.clusterEnd - 2)).find? fun c => s.getCluster c == clusterFree with
  | none => rw [search] at found; exact absurd rfl found
  | some c =>
    have mem := mem_range'_1.mp (mem_of_find?_eq_some search)
    have free := find?_some search
    rw [clusterEnd_eq g] at mem
    refine ⟨⟨mem.1, ?_⟩, beq_iff_eq.mp free, rfl⟩
    show c < s.totalClusters + 2
    omega

lemma findFreeCluster_leaves (g : Geometry s) (found : s.findFreeCluster.2 ≠ 0) :
    Leaves s s.findFreeCluster.1
      (update s.getCluster s.findFreeCluster.2 clusterEocMax) s.clusterData := by
  have ⟨inside, _, marked⟩ := findFreeCluster_spec g found
  rw [marked]
  exact setCluster_leaves g inside clusterEocMax

lemma findFreeCluster_none (none : s.findFreeCluster.2 = 0) : s.findFreeCluster.1 = s := by
  unfold SbInfo.findFreeCluster at none ⊢
  cases search : (range' 2 (s.clusterEnd - 2)).find? fun c => s.getCluster c == clusterFree with
  | none => rfl
  | some c =>
    have low := (mem_range'_1.mp (mem_of_find?_eq_some search)).1
    rw [search] at none
    have zero : c = 0 := none
    omega

lemma appendCluster_none (none : s.findFreeCluster.2 = 0) : (s.appendCluster last).2 = 0 := by
  rw [SbInfo.appendCluster, if_pos none]

lemma appendCluster_leaves (g : Geometry s) (inside : s.InVolume last)
    (found : s.findFreeCluster.2 ≠ 0) :
    (s.appendCluster last).2 = s.findFreeCluster.2 ∧ Leaves s (s.appendCluster last).1
      (update (update s.getCluster s.findFreeCluster.2 clusterEocMax) last
        s.findFreeCluster.2) s.clusterData := by
  have small := inside.numbers g
  have ⟨insideNew, _, _⟩ := findFreeCluster_spec g found
  have marked := findFreeCluster_leaves g found
  rw [SbInfo.appendCluster, if_neg found, if_pos ⟨inside.1, small⟩]
  generalize s.findFreeCluster = r at *
  obtain ⟨s1, new⟩ := r
  simp only at insideNew marked ⊢
  have linked := marked.set g inside new
  rw [mod_eq_of_lt ((insideNew.numbers g).trans (by decide))] at linked
  exact ⟨trivial, linked⟩

lemma appendSlot_leaves (g : Geometry s) (inside : s.InVolume last)
    (done : s.appendSlot last = (s', .ok (n, off))) :
    off = 0 ∧ s.InVolume n ∧ s.getCluster n = clusterFree ∧ Leaves s s'
      (update (update s.getCluster n clusterEocMax) last n)
      (update s.clusterData n (s.clip fun _ => 0)) := by
  rw [SbInfo.appendSlot] at done
  by_cases none : s.findFreeCluster.2 = 0
  · rw [if_pos (appendCluster_none none)] at done
    cases done
  have ⟨insideNew, free, _⟩ := findFreeCluster_spec g none
  have ⟨new, linked⟩ := appendCluster_leaves g inside none
  rw [new, if_neg none, writeCluster_eq (g.of_same linked.same)
    (insideNew.of_same linked.same)] at done
  have zeroed := linked.wrote g insideNew fun _ => 0
  obtain ⟨rfl, rfl, rfl⟩ := done
  exact ⟨rfl, insideNew, free, zeroed⟩

/-! ## Directories -/

def SbInfo.link (s : SbInfo) (c : Nat) : Option Nat :=
  if clusterEocMin ≤ s.getCluster c then none else some (s.getCluster c)

structure Directory (s : SbInfo) (d : Nat) (cs : List Nat) : Prop where
  chain : Chain s.link (some d) cs
  inside : ∀ c ∈ cs, s.InVolume c

section Directory

variable {d : Nat} {cs : List Nat}

variable (dir : Directory s d cs)
include dir

lemma Directory.cases : ∃ rest, cs = d :: rest ∧ s.InVolume d ∧
    (rest = [] ∧ clusterEocMin ≤ s.getCluster d ∨
      ¬ clusterEocMin ≤ s.getCluster d ∧ Directory s (s.getCluster d) rest) := by
  rcases cs with _ | ⟨c, rest⟩
  · cases dir.chain
  obtain ⟨⟨⟩, behind⟩ := dir.chain
  refine ⟨rest, rfl, dir.inside d mem_cons_self, ?_⟩
  unfold SbInfo.link at behind
  by_cases ends : clusterEocMin ≤ s.getCluster d
  · rw [if_pos ends] at behind
    exact .inl ⟨behind.eq_nil_iff.mpr rfl, ends⟩
  · rw [if_neg ends] at behind
    exact .inr ⟨ends, behind, fun c mem => dir.inside c (mem_cons_of_mem _ mem)⟩

lemma Directory.nodup : cs.Nodup := dir.chain.nodup

lemma Directory.used : ∀ c ∈ cs, s.getCluster c ≠ clusterFree := by
  induction cs generalizing d with
  | nil => intro c mem; cases mem
  | cons x cs ih =>
    intro c mem
    obtain ⟨rest, split, _, behind⟩ := dir.cases
    cases split
    rcases mem_cons.mp mem with here | later
    · rw [here]
      rcases behind with ⟨_, ends⟩ | ⟨_, next⟩
      · unfold clusterEocMin at ends
        unfold clusterFree
        omega
      · obtain ⟨_, _, inside, _⟩ := next.cases
        have := inside.1
        unfold clusterFree
        omega
    · rcases behind with ⟨none, _⟩ | ⟨_, next⟩
      · rw [none] at later
        cases later
      · exact ih next c later

omit dir in
lemma Directory.single (inside : s.InVolume d) (ends : clusterEocMin ≤ s.getCluster d) :
    Directory s d [d] := by
  refine ⟨⟨rfl, ?_⟩, fun c mem => ?_⟩
  · rw [SbInfo.link, if_pos ends]
    rfl
  · rw [mem_singleton.mp mem]
    exact inside

lemma Directory.congr (same : SameShape s s')
    (fat : ∀ c ∈ cs, s'.getCluster c = s.getCluster c) : Directory s' d cs := by
  refine ⟨dir.chain.congr fun c mem => ?_, fun c mem => (dir.inside c mem).of_same same⟩
  rw [SbInfo.link, SbInfo.link, fat c mem]

omit dir in
lemma Directory.append (g : Geometry s) (dir : Directory s d cs) {m : Nat} {data : Nat → Store}
    (inside : s.InVolume m) (free : s.getCluster m = clusterFree)
    (left : Leaves s s' (update (update s.getCluster m clusterEocMax)
      (cs.getLastD 0) m) data) : Directory s' d (cs ++ [m]) := by
  obtain ⟨rest, shape, _⟩ := dir.cases
  have nonempty : cs ≠ [] := by
    rw [shape]
    exact cons_ne_nil _ _
  obtain ⟨front, last, rfl⟩ := eq_nil_or_concat cs |>.resolve_left nonempty
  rw [concat_eq_append] at *
  rw [getLastD_concat] at left
  have lastMember : last ∈ front ++ [last] := mem_append_right _ (mem_singleton_self _)
  have fresh : ∀ x ∈ front ++ [last], x ≠ m := fun x mem same =>
    dir.used x mem (same ▸ free)
  refine ⟨?_, fun x mem => ?_⟩
  · have atLast : s'.link last = some m := by
      have small := inside.numbers g
      rw [SbInfo.link, left.fat last (dir.inside last lastMember), update_self, if_neg (by omega)]
    have atNew : s'.link m = none := by
      rw [SbInfo.link, left.fat m inside, update_of_ne (fresh last lastMember).symm,
        update_self, if_pos (by decide)]
    rw [append_assoc]
    apply dir.chain.extend _ atLast atNew
    intro x mem
    have inChain : x ∈ front ++ [last] := mem_append_left _ mem
    have notLast : x ≠ last := by
      rintro rfl
      exact (nodup_append.mp dir.nodup).2.2 x mem x (mem_singleton_self _) rfl
    rw [SbInfo.link, SbInfo.link, left.fat x (dir.inside x inChain), update_of_ne notLast,
      update_of_ne (fresh x inChain)]
  · rcases mem_append.mp mem with old | new
    · exact (dir.inside x old).of_same left.same
    · rw [mem_singleton.mp new]
      exact inside.of_same left.same

lemma Directory.first_inside : s.InVolume d := by
  obtain ⟨_, _, inside, _⟩ := dir.cases
  exact inside

lemma Directory.getLastD_mem : cs.getLastD 0 ∈ cs := by
  obtain ⟨rest, rfl, _⟩ := dir.cases
  rw [getLastD_cons]
  exact getLastD_mem_cons

lemma Directory.drop {j : Nat} (inside : j < cs.length) : Directory s cs[j] (cs.drop j) := by
  induction j generalizing d cs with
  | zero =>
    obtain ⟨rest, split, _⟩ := dir.cases
    subst split
    exact dir
  | succ j ih =>
    obtain ⟨rest, split, _, behind⟩ := dir.cases
    subst split
    rcases behind with ⟨none, _⟩ | ⟨_, next⟩
    · rw [none] at inside
      exact absurd inside (by simp)
    · exact ih next (by simpa using inside)

end Directory

end AuroraOS.Fat32
