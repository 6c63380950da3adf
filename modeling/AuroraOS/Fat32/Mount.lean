import AuroraOS.Fat32.Model
import AuroraOS.Lib.Fuel

/-!
# Mounting a volume

Model of `fat32_mount`.  It checks neither that the FAT has an entry for each cluster nor that the
chains of the FAT end.  The memory for the cache may be missing (`kmalloc`), and then there is none;
without memory for its other structures `fat32_mount` returns NULL, which is left out.
-/

namespace AuroraOS.Fat32

open Lib Block Option SbInfo

/-! ## The boot sector -/

namespace Boot

variable (boot : Store)

def bytesPerSector : Nat := leRead boot 11 2
def sectorsPerCluster : Nat := (boot 13).toNat
def reservedSectors : Nat := leRead boot 14 2
def numFats : Nat := (boot 16).toNat
def sectorsPerFat : Nat := leRead boot 36 4
def rootCluster : Nat := leRead boot 44 4

def totalSectors : Nat := if leRead boot 19 2 ≠ 0 then leRead boot 19 2 else leRead boot 32 4

def dataStart : Nat := (reservedSectors boot + numFats boot * sectorsPerFat boot) % 2 ^ 32

def totalClusters : Nat := (totalSectors boot - dataStart boot) / sectorsPerCluster boot

def fatBytes : Nat := sectorsPerFat boot * bytesPerSector boot % 2 ^ 32

def Accepted : Prop :=
  leRead boot 510 2 = 0xAA55 ∧ 512 ≤ bytesPerSector boot ∧ bytesPerSector boot ≤ 4096 ∧
    sectorsPerCluster boot ≠ 0 ∧ sectorsPerFat boot ≠ 0 ∧ dataStart boot < totalSectors boot

instance : Decidable (Accepted boot) := inferInstanceAs (Decidable (_ ∧ _))

def cacheEnd : Nat := min ((totalClusters boot + 2) % 2 ^ 32) clusterEocMax

end Boot

open Boot

/-- The largest block of `kmalloc`: `2 ^ MAX_ORDER` pages. -/
def kmallocMax : Nat := 4096 * 2 ^ 10

/-- `kmalloc`: no memory for 0 bytes or for more than the largest block, and else `free`, which is
`none` when the allocator has nothing left. -/
def kmalloc (free : Option Store) (size : Nat) : Option Store :=
  if size = 0 ∨ kmallocMax < size then none else free

variable (d : BlockDevice) (boot memory : Store) (free : Option Store)

/-- The loop that reads the first sectors of the FAT; `memory` is what the memory holds before. -/
def cacheFat : Nat → Option Store
  | 0 => some memory
  | i + 1 => (cacheFat i).bind fun fatBuf =>
    (blockDevRead d ((reservedSectors boot + i) % 2 ^ 32) 1).map
      (blit fatBuf (i * bytesPerSector boot % 2 ^ 32) d.blockSize)

/-- The volume with the fields of the boot sector, and the cached FAT unless `kmalloc` or a read
fails. -/
def mountInfo : SbInfo where
  bdev := d
  bytesPerSector := bytesPerSector boot
  sectorsPerCluster := sectorsPerCluster boot
  numFats := numFats boot
  sectorsPerFat := sectorsPerFat boot
  fatStart := reservedSectors boot
  dataStart := dataStart boot
  clusterSize := bytesPerSector boot * sectorsPerCluster boot
  totalClusters := totalClusters boot
  fatCache := (kmalloc free (fatBytes boot)).bind fun memory =>
    (cacheFat d boot memory (sectorsPerFat boot)).map fun fatBuf c => leRead fatBuf (c * 4) 4

def SbInfo.getDirSize (s : SbInfo) : Nat → Nat → Option Nat
  | 0, _ => none
  | fuel + 1, cluster =>
    if 2 ≤ cluster ∧ cluster < clusterEocMin then
      if clusterEocMin ≤ s.getCluster cluster then some s.clusterSize
      else (s.getDirSize fuel (s.getCluster cluster)).map (s.clusterSize + ·)
    else some 0

/-- `fat32_mount`: the volume, or `none` for NULL. -/
def mount (fuel : Nat) : Option (Option SbInfo) :=
  match blockDevRead d 0 1 with
  | none => some none
  | some boot =>
    if Accepted boot then
      let s := mountInfo d boot free
      (s.getDirSize fuel (rootCluster boot)).map fun _ => some s
    else some none

variable {d boot memory free} {s : SbInfo} {c fuel : Nat}

lemma mount_eq (mounted : mount d free fuel = some (some s))
    (read : blockDevRead d 0 1 = some boot) : s = mountInfo d boot free ∧ Accepted boot := by
  unfold mount at mounted
  rw [read] at mounted
  simp only at mounted
  split at mounted
  case isTrue accepted =>
    obtain ⟨_, _, same⟩ := map_eq_some_iff.mp mounted
    cases same
    exact ⟨rfl, accepted⟩
  case isFalse => cases mounted

lemma mount_accepted {n : Nat} (read : blockDevRead d 0 1 = some boot) (accepted : Accepted boot)
    (size : (mountInfo d boot free).getDirSize fuel (rootCluster boot) = some n) :
    mount d free fuel = some (some (mountInfo d boot free)) := by
  unfold mount
  rw [read]
  simp only
  rw [if_pos accepted, size, map_some]

/-! ## The cached FAT -/

lemma cacheFat_isSome (n : Nat) : (cacheFat d boot memory n).isSome = true ↔
    ∀ i < n, d.inRange ((reservedSectors boot + i) % 2 ^ 32) 1 = true := by
  induction n with
  | zero => exact ⟨fun _ _ => nofun, fun _ => rfl⟩
  | succ n ih =>
    have step : (cacheFat d boot memory (n + 1)).isSome = true ↔
        (cacheFat d boot memory n).isSome = true ∧
          d.inRange ((reservedSectors boot + n) % 2 ^ 32) 1 = true := by
      rw [cacheFat, blockDevRead]
      cases cacheFat d boot memory n with
      | none => simp
      | some fatBuf => cases d.inRange ((reservedSectors boot + n) % 2 ^ 32) 1 <;> simp
    rw [step, ih, Nat.forall_lt_succ_right]

/-- `fat32_get_cluster` and `fat32_set_cluster` use the cache for this cluster. -/
def SbInfo.Cached (s : SbInfo) (c : Nat) : Prop :=
  s.fatCache.isSome = true ∧ ¬ (c < 2 ∨ clusterEocMax ≤ c) ∧ c < s.clusterEnd

/-- Every access to the cache stays inside its `fatBytes` bytes, and no divisor is 0. -/
def SbInfo.Safe (s : SbInfo) (fatBytes : Nat) : Prop :=
  (∀ c, s.Cached c → c * 4 + 4 ≤ fatBytes) ∧
    0 < s.bytesPerSector ∧ 0 < s.sectorsPerCluster ∧ 0 < s.clusterSize

/-- The sectors of the first FAT are on the device. -/
def FatRead (d : BlockDevice) (boot : Store) : Prop :=
  ∀ i < sectorsPerFat boot, d.inRange ((reservedSectors boot + i) % 2 ^ 32) 1 = true

/-- There is memory for the cache, and the FAT can be read into it. -/
def CacheMade (d : BlockDevice) (boot : Store) (free : Option Store) : Prop :=
  free.isSome = true ∧ 0 < fatBytes boot ∧ fatBytes boot ≤ kmallocMax ∧ FatRead d boot

lemma fatCache_isSome : (mountInfo d boot free).fatCache.isSome = true ↔ CacheMade d boot free := by
  unfold mountInfo kmalloc CacheMade
  dsimp only
  by_cases fits : fatBytes boot = 0 ∨ kmallocMax < fatBytes boot
  · rw [if_pos fits]
    refine iff_of_false (by simp) fun made => ?_
    omega
  · rw [if_neg fits]
    cases free with
    | none => simp
    | some memory =>
      rw [bind_some, isSome_map, cacheFat_isSome, FatRead]
      simp only [isSome_some, true_and]
      refine ⟨fun reads => ⟨by omega, by omega, reads⟩, fun made => made.2.2⟩

/-- The cache of a volume is used safely exactly where it is large enough for the clusters that are
looked up in it, or where there is none. -/
theorem mount_cache_iff (mounted : mount d free fuel = some (some s))
    (read : blockDevRead d 0 1 = some boot) : s.Safe (fatBytes boot) ↔
      (CacheMade d boot free → 2 < cacheEnd boot → cacheEnd boot * 4 ≤ fatBytes boot) := by
  obtain ⟨rfl, _, size, _, clusters, _⟩ := mount_eq mounted read
  have cached : ∀ c, (mountInfo d boot free).Cached c ↔
      CacheMade d boot free ∧ 2 ≤ c ∧ c < cacheEnd boot := by
    intro c
    rw [← fatCache_isSome, SbInfo.Cached, SbInfo.clusterEnd]
    unfold cacheEnd
    refine and_congr_right fun _ => ?_
    simp only [mountInfo]
    omega
  constructor
  · rintro ⟨inside, _⟩ present more
    have last := inside (cacheEnd boot - 1) ((cached _).mpr ⟨present, by omega, by omega⟩)
    omega
  intro fits
  have positive : 0 < bytesPerSector boot := Nat.lt_of_lt_of_le (by decide) size
  refine ⟨fun c here => ?_, positive, Nat.pos_of_ne_zero clusters,
    Nat.mul_pos positive (Nat.pos_of_ne_zero clusters)⟩
  obtain ⟨present, low, high⟩ := (cached c).mp here
  have := fits present (by omega)
  omega

/-- A device with two FATs of one sector, in which cluster 2 ends a chain and cluster 3 names
itself.  The boot sector gives it 20 sectors, and 256 for each unit of `more`. -/
def twoFats (more : UInt8) : BlockDevice where
  blockSize := 512
  totalSectors := 5000
  data := fun a => ([(12, 2), (13, 1), (14, 1), (16, 2), (19, 20), (20, more), (36, 1), (44, 2),
    (510, 0x55), (511, 0xAA), (520, 0xFF), (521, 0xFF), (522, 0xFF), (523, 0x0F),
    (524, 3), (1032, 0xFF), (1033, 0xFF), (1034, 0xFF), (1035, 0x0F), (1036, 3)].lookup a).getD 0

def twoFatsBoot (more : UInt8) : Store := (blockDevRead (twoFats more) 0 1).getD fun _ => 0

def twoFatsInfo : SbInfo := mountInfo (twoFats 0) (twoFatsBoot 0) (some fun _ => 0)

lemma mount_twoFats : mount (twoFats 0) (some fun _ => 0) 2 = some (some twoFatsInfo) :=
  mount_accepted (n := 512) rfl (by decide +kernel) (by decide +kernel)

/-- With 4116 sectors the entry of cluster 200 lies behind the FAT. -/
theorem mount_cache_outside : ∃ s, blockDevRead (twoFats 16) 0 1 = some (twoFatsBoot 16) ∧
    mount (twoFats 16) (some fun _ => 0) 2 = some (some s) ∧ s.Cached 200 ∧
      fatBytes (twoFatsBoot 16) < 200 * 4 + 4 :=
  ⟨_, rfl, mount_accepted (n := 512) rfl (by decide +kernel) (by decide +kernel),
    ⟨by decide +kernel, by decide, by decide +kernel⟩, by decide +kernel⟩

theorem mount_cache_inside : ∃ s, blockDevRead (twoFats 0) 0 1 = some (twoFatsBoot 0) ∧
    mount (twoFats 0) (some fun _ => 0) 2 = some (some s) ∧ s.Safe (fatBytes (twoFatsBoot 0)) := by
  refine ⟨_, rfl, mount_twoFats, (mount_cache_iff mount_twoFats rfl).mpr fun _ _ => ?_⟩
  decide +kernel

/-! ## Walks along a chain -/

inductive SbInfo.Ends (s : SbInfo) : Nat → Prop
  | out {c : Nat} (outside : ¬ (2 ≤ c ∧ c < clusterEocMin)) : s.Ends c
  | next {c : Nat} (rest : s.Ends (s.getCluster c)) : s.Ends c

/-- A loop that stops, or goes on with the next cluster, ends with the chain. -/
lemma SbInfo.Ends.returns {α β : Type} (ends : s.Ends c) (walk : α → Nat → Nat → Option β)
    (step : ∀ a c, (∃ r, ∀ fuel, walk a (fuel + 1) c = some r) ∨ (2 ≤ c ∧ c < clusterEocMin) ∧
      ∃ (b : α) (g : β → β), ∀ {fuel r}, walk b fuel (s.getCluster c) = some r →
        walk a (fuel + 1) c = some (g r)) (a : α) :
    ∃ r, Returns (walk a · c) r := by
  induction ends generalizing a with
  | @out c outside =>
    obtain ⟨r, stops⟩ := (step a c).resolve_right fun goes => outside goes.1
    exact ⟨r, .of_succ 0 fun fuel _ => stops fuel⟩
  | @next c _ ih =>
    rcases step a c with ⟨r, stops⟩ | ⟨_, b, g, goes⟩
    · exact ⟨r, .of_succ 0 fun fuel _ => stops fuel⟩
    · obtain ⟨r, bound, rest⟩ := ih b
      exact ⟨g r, .of_succ bound fun fuel enough => goes (rest fuel enough)⟩

lemma ends_of_count {n : Nat} (counted : s.countClusters fuel c = some n) : s.Ends c := by
  induction fuel generalizing c n with
  | zero => cases counted
  | succ fuel ih =>
    rw [SbInfo.countClusters] at counted
    split_ifs at counted with valid ends
    · exact .next (.out fun inside => Nat.not_lt.mpr ends inside.2)
    · obtain ⟨_, rest, _⟩ := map_eq_some_iff.mp counted
      exact .next (ih rest)
    · exact .out valid

/-- Each walk of `fat32_transfer_file`, `fat32_find_entry`, `fat32_find_free_slot` and
`fat32_get_dir_size` from the cluster ends. -/
structure WalksEnd (s : SbInfo) (c : Nat) : Prop where
  count : ∃ n, Returns (s.countClusters · c) n
  last : ∀ last, ∃ n, Returns (s.findLastCluster · last c) n
  find : ∀ name, ∃ r, Returns (s.findEntry c name) r
  slot : ∃ r, Returns (s.findFreeSlot · c) r
  size : ∃ n, Returns (s.getDirSize · c) n

/-- The walks from a cluster end exactly if the FAT leads from it to an end. -/
theorem walks_end_iff : WalksEnd s c ↔ s.Ends c := by
  constructor
  · intro walks
    obtain ⟨n, bound, counted⟩ := walks.count
    exact ends_of_count (counted bound le_rfl)
  intro ends
  refine ⟨ends.returns (fun _ : Unit => s.countClusters) (fun _ c => ?_) (),
    ends.returns (fun last fuel => s.findLastCluster fuel last) fun last c => ?_,
    fun name => ends.returns (fun lfn fuel c => s.findEntryFrom name fuel c lfn)
      (fun lfn c => ?_) [],
    ends.returns (fun _ : Unit => s.findFreeSlot) (fun _ c => ?_) (),
    ends.returns (fun _ : Unit => s.getDirSize) (fun _ c => ?_) ()⟩
  · simp only [SbInfo.countClusters]
    split_ifs with valid last
    · exact .inl ⟨_, fun _ => rfl⟩
    · exact .inr ⟨valid, (), (· + 1), fun rest => by rw [rest, map_some]⟩
    · exact .inl ⟨_, fun _ => rfl⟩
  · simp only [SbInfo.findLastCluster]
    split_ifs with valid last
    · exact .inl ⟨_, fun _ => rfl⟩
    · exact .inr ⟨valid, c, id, id⟩
    · exact .inl ⟨_, fun _ => rfl⟩
  · by_cases valid : 2 ≤ c ∧ c < clusterEocMin
    · simp only [SbInfo.findEntryFrom, if_pos valid]
      cases s.readCluster c with
      | none => exact .inl ⟨_, fun _ => rfl⟩
      | some buf =>
        simp only
        cases scanSlots name (s.bufSlots c buf) lfn with
        | ended => exact .inl ⟨_, fun _ => rfl⟩
        | found f => exact .inl ⟨_, fun _ => rfl⟩
        | more lfn =>
          simp only
          split_ifs
          · exact .inl ⟨_, fun _ => rfl⟩
          · exact .inr ⟨valid, lfn, id, id⟩
    · exact .inl ⟨_, fun _ => if_neg valid⟩
  · by_cases valid : 2 ≤ c ∧ c < clusterEocMin
    · simp only [SbInfo.findFreeSlot, if_pos valid]
      cases s.readCluster c with
      | none => exact .inl ⟨_, fun _ => rfl⟩
      | some buf =>
        simp only
        cases (s.bufSlots c buf).find? Slot.isFree with
        | some slot => exact .inl ⟨_, fun _ => rfl⟩
        | none =>
          simp only
          split_ifs
          · exact .inl ⟨_, fun _ => rfl⟩
          · exact .inr ⟨valid, (), id, id⟩
    · exact .inl ⟨_, fun _ => if_neg valid⟩
  · simp only [SbInfo.getDirSize]
    split_ifs with valid last
    · exact .inl ⟨_, fun _ => rfl⟩
    · exact .inr ⟨valid, (), (s.clusterSize + ·), fun rest => by rw [rest, map_some]⟩
    · exact .inl ⟨_, fun _ => rfl⟩

/-- Cluster 3 of a volume that is mounted names itself. -/
theorem count_never_ends : ∃ s, mount (twoFats 0) (some fun _ => 0) 2 = some (some s) ∧
    ∀ fuel, s.countClusters fuel 3 = none := by
  refine ⟨_, mount_twoFats, fun fuel => ?_⟩
  have itself : twoFatsInfo.getCluster 3 = 3 := by
    decide +kernel
  induction fuel with
  | zero => rfl
  | succ fuel ih =>
    rw [SbInfo.countClusters, if_pos (by decide), itself, if_neg (by decide), ih]
    rfl

end AuroraOS.Fat32
