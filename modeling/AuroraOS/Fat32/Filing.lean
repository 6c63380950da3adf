import AuroraOS.Fat32.Tree

/-!
# Creating an entry, however it ends

`fat32_dir_create` and `fat32_mkdir` mark a free cluster, look for a place in the directory, which
may take another cluster, and write the entries of the name.  When they do not fit, those that do
are left and the cluster is given back.
-/

namespace AuroraOS.Fat32

open Lib SbInfo Function List Option Nat

variable {s s' t mid : SbInfo} {root c c0 d k p : Nat} {cs more : List Nat} {name : Name}
  {own raw : Store}

/-! ## The bytes of new entries -/

lemma toUpper_ne {ch v : UInt8} (different : ch ≠ v) (low : v < 0x40) : toUpper ch ≠ v := by
  unfold toUpper
  split
  case isTrue small =>
    intro same
    have high := UInt8.le_iff_toNat_le.mp small.1
    have shifted : (ch - 0x20).toNat = ch.toNat - 32 :=
      UInt8.toNat_sub_of_le _ _ (UInt8.le_iff_toNat_le.mpr (le_trans (by decide) high))
    have least : 97 ≤ ch.toNat := high
    have most : v.toNat < 64 := UInt8.lt_iff_toNat_lt.mp low
    rw [same] at shifted
    omega
  case isFalse => exact different

/-- The first byte of a short name is a blank, a tilde or the capital of a character. -/
lemma shortName_first (name : Name) : (shortName name).getD 0 0 = space ∨
    (shortName name).getD 0 0 = 0x7E ∨
      ∃ ch ∈ name, ch ≠ dot ∧ (shortName name).getD 0 0 = toUpper ch := by
  cases name with
  | nil => exact .inl (by decide)
  | cons ch rest =>
    by_cases first : ch = dot
    · subst first
      unfold shortName strToShortName
      split_ifs
      · exact .inr (.inl rfl)
      · exact .inr (.inl rfl)
      · exact .inl rfl
      · exact .inr (.inl rfl)
      · simp at *
    · have fallback : (fallbackName (ch :: rest)).getD 0 0 = toUpper ch := by
        rw [fallbackName, takeWhile_cons_of_pos (by simpa using first)]
        rfl
      have front : (ch :: rest).idxOf dot = rest.idxOf dot + 1 :=
        idxOf_cons_ne _ first
      refine .inr (.inr ⟨ch, mem_cons_self, first, ?_⟩)
      unfold shortName strToShortName
      split_ifs
      · exact fallback
      · exact fallback
      · rw [getD_some, front, take_succ_cons]
        rfl
      · exact fallback
      · rfl

lemma shortName_proper (terminated : 0 ∉ name) :
    (shortName name).getD 0 0 ≠ 0 ∧ (shortName name).getD 0 0 ≠ dot := by
  rcases shortName_first name with blank | tilde | ⟨ch, mem, notDot, upper⟩
  · rw [blank]
    decide
  · rw [tilde]
    decide
  · rw [upper]
    refine ⟨toUpper_ne ?_ (by decide), toUpper_ne notDot (by decide)⟩
    rintro rfl
    exact terminated mem

lemma lfnEntry_first {e : Nat} (inside : e < lfnEntries name) (short : lfnEntries name ≤ 20) :
    lfnEntry name e 0 ≠ 0 ∧ lfnEntry name e 0 ≠ dot := by
  obtain ⟨order, some, _⟩ := lfnEntry_order inside short
  refine ⟨some, fun dotted => ?_⟩
  have numbers : ∀ e, e < 20 → dot &&& 0x3F ≠ UInt8.ofNat (e + 1) := by decide
  rw [dotted] at order
  exact numbers e (by omega) order

variable {short : List UInt8} {attr : UInt8} {fileSize fuel start n : Nat}

lemma dirEntry_attr : dirEntry short attr c fileSize 11 = attr := rfl

lemma startCluster_dirEntry
    (small : c < 2 ^ 32) : startCluster (dirEntry short attr c fileSize) = c := by
  have high : leRead (dirEntry short attr c fileSize) 20 2 = c / 2 ^ 16 := by
    simp only [leRead, dirEntry]
    norm_num
    omega
  have low : leRead (dirEntry short attr c fileSize) 26 2 = c % 2 ^ 16 := by
    simp only [leRead, dirEntry]
    norm_num
    omega
  rw [startCluster, high, low]
  omega

/-! ## The entries written -/

/-- The first `n` entries stand in the row from `start` on, and nothing else in use has changed but
the clusters `more` linked behind the chain. -/
structure Filed (s s' : SbInfo) (d c0 : Nat) (cs more : List Nat) (start n : Nat)
    (entry : Nat → Store) : Prop where
  same : SameShape s s'
  chain : Directory s' d (cs ++ more)
  free : s.getCluster c0 = clusterFree
  fresh : ∀ {m}, m ∈ more → s.getCluster m = clusterFree ∧ m ≠ c0
  others : ∀ {c}, s.InVolume c → c ∉ cs ++ more → c ≠ c0 →
    s'.getCluster c = s.getCluster c ∧ s'.clusterData c = s.clusterData c
  room : start + n ≤ s.rowLength (cs ++ more)
  slots : ∀ {k}, k < s.rowLength (cs ++ more) → ∀ {b}, b < 32 →
    (s'.slotAt (cs ++ more) k).raw b =
      if start ≤ k ∧ k < start + n then entry (k - start) b
      else if k < s.rowLength cs then (s.slotAt cs k).raw b else 0

lemma Placed.slots (g : Geometry s) (placed : Placed s t d c0 cs more own)
    (free : s.getCluster c0 = clusterFree) (dir : Directory s d cs)
    (inside : k < s.rowLength (cs ++ more)) (b : Nat) :
    (t.slotAt (cs ++ more) k).raw b = if k < s.rowLength cs then (s.slotAt cs k).raw b else 0 := by
  split
  case isTrue early =>
    rw [slotAt_append (by rwa [placed.same.rowLength]), slotAt_congr placed.same ?_ early]
    intro c mem
    have used := dir.used c mem
    have notNew : c ∉ more := fun new => used (placed.fresh new).1
    have other : c ≠ c0 := fun same => used (same ▸ free)
    rw [placed.data (dir.inside c mem) notNew, if_neg other]
  case isFalse late =>
    have bound := div_lt_length inside
    have behind : cs.length ≤ k / s.entriesPerCluster := by
      by_contra before
      apply late
      have whole := div_add_mod k s.entriesPerCluster
      have remainder := mod_lt k (entriesPerCluster_pos g)
      rw [mul_comm] at whole
      have := mul_add_le_mul (lt_of_not_ge before) s.entriesPerCluster
      unfold SbInfo.rowLength
      omega
    have mem : (cs ++ more)[k / s.entriesPerCluster] ∈ more := by
      rw [getElem_append_right behind]
      exact getElem_mem _
    simp only [SbInfo.slotAt, placed.same.entriesPerCluster, getD_eq_getElem?_getD,
      getElem?_eq_getElem bound, getD_some, rawEntry, placed.blank mem, ite_self]

variable {entry : Nat → Store}

lemma Placed.filed (g : Geometry s) (placed : Placed s mid d c0 cs more own)
    (free : s.getCluster c0 = clusterFree) (dir : Directory s d cs)
    (written : Written mid t (cs ++ more) start n entry) :
    Filed s t d c0 cs more start n entry := by
  have room := written.room
  rw [placed.same.rowLength] at room
  refine ⟨placed.same.trans written.same, ?_, free, placed.fresh,
    fun {c} inside outside other => ?_, room, fun {k} inside {b} small => ?_⟩
  · exact placed.chain.congr written.same fun c mem =>
      written.fat c (placed.chain.inside c mem)
  · have there := inside.of_same placed.same
    constructor
    · rw [written.fat c there, placed.fat inside outside, if_neg other]
    · rw [written.others c there outside,
        placed.data inside fun new => outside (mem_append_right _ new), if_neg other]
  · rw [written.slots k (by rwa [placed.same.rowLength]) b small, placed.slots g free dir inside]

lemma Filed.released (g : Geometry s)
    (filed : Filed s t d c0 cs more start n entry) (dir : Directory s d cs)
    (inside0 : s.InVolume c0) :
    Filed s (t.setCluster c0 clusterFree).1 d c0 cs more start n entry := by
  have left := setCluster_leaves (g.of_same filed.same) (inside0.of_same filed.same)
    clusterFree
  have foreign : ∀ c ∈ cs ++ more, c ≠ c0 := by
    intro c mem
    rcases mem_append.mp mem with early | late
    · exact fun same => dir.used c early (same ▸ filed.free)
    · exact (filed.fresh late).2
  refine ⟨filed.same.trans left.same, ?_, filed.free, filed.fresh,
    fun {c} inside outside other => ?_, filed.room, fun {k} inside {b} small => ?_⟩
  · refine filed.chain.congr left.same fun c mem => ?_
    rw [left.fat c (filed.chain.inside c mem), update_of_ne (foreign c mem)]
  · have there := inside.of_same filed.same
    obtain ⟨fat, data⟩ := filed.others inside outside other
    exact ⟨by rw [left.fat c there, update_of_ne other, fat], by rw [left.data c there, data]⟩
  · rw [slotAt_congr left.same (fun c mem => left.data c (filed.chain.inside c mem))
      (by rwa [filed.same.rowLength]), filed.slots inside small]

/-! ## The revision -/

lemma builtEntry_first {j : Nat} (terminated : 0 ∉ name)
    (short : lfnEntries name ≤ 20) : builtEntry name attr c0 0 j 0 ≠ 0 ∧
      builtEntry name attr c0 0 j 0 ≠ dot := by
  unfold builtEntry
  split
  · exact lfnEntry_first (by omega) short
  · exact shortName_proper terminated

lemma builtEntry_last (name : Name) (attr : UInt8) (c0 : Nat) :
    builtEntry name attr c0 0 (lfnEntries name) = dirEntry (shortName name) attr c0 0 :=
  if_neg (lt_irrefl _)

lemma used_before_firstFree (before : k < s.firstFree cs) :
    k < s.rowLength cs ∧ (s.slotAt cs k).raw 0 ≠ 0 := by
  have bound := @List.findIdx_le_length _ Slot.isFree (s.dirSlots cs)
  rw [length_dirSlots] at bound
  have inside : k < (s.dirSlots cs).length := by
    rw [length_dirSlots]
    exact lt_of_lt_of_le before bound
  have used := not_of_lt_findIdx before
  rw [dirSlots_getElem inside, Slot.isFree] at used
  refine ⟨by rwa [length_dirSlots] at inside, fun zero => ?_⟩
  rw [zero] at used
  cases used

lemma entriesPerCluster_wide (g : Geometry s) (sector : 512 ≤ s.bytesPerSector) :
    16 ≤ s.entriesPerCluster := by
  have := clusterSize_eq g
  have := g.clusterSize
  have := mul_le_mul g.perCluster sector
  omega

def newPlace (d c0 start n : Nat) (name : Name) : Option (Nat × Nat × Nat) :=
  if n = lfnEntries name + 1 then some (d, start + lfnEntries name, c0) else none

namespace Filed

variable {start n : Nat} {attr : UInt8}
  (filed : Filed s s' d c0 cs more start n (builtEntry name attr c0 0))
include filed

lemma raw_new (inside : start ≤ k ∧ k < start + n) {b : Nat} (small : b < 32) :
    (s'.slotAt (cs ++ more) k).raw b = builtEntry name attr c0 0 (k - start) b := by
  rw [filed.slots (lt_of_lt_of_le inside.2 filed.room) small, if_pos inside]

lemma raw_old (inside : k < s.rowLength cs)
    (outside : ¬ (start ≤ k ∧ k < start + n)) {b : Nat} (small : b < 32) :
    (s'.slotAt (cs ++ more) k).raw b = (s.slotAt cs k).raw b := by
  have longer : s.rowLength cs ≤ s.rowLength (cs ++ more) :=
    mul_le_mul_right _ (by simp)
  rw [filed.slots (lt_of_lt_of_le inside longer) small, if_neg outside, if_pos inside]

lemma visible (early : start ≤ s.firstFree cs) (terminated : 0 ∉ name)
    (short : n = 0 ∨ lfnEntries name ≤ 20) (inside : start ≤ k ∧ k < start + n) {i : Nat}
    (before : i < k) : (s'.slotAt (cs ++ more) i).raw 0 ≠ 0 := by
  rcases lt_or_ge i start with left | within
  · obtain ⟨insideI, used⟩ := used_before_firstFree (lt_of_lt_of_le left early)
    rwa [filed.raw_old insideI (by omega) (by decide)]
  · rw [filed.raw_new ⟨within, by omega⟩ (by decide)]
    exact (builtEntry_first terminated (by omega)).1

lemma slotStep (early : start ≤ s.firstFree cs) (terminated : 0 ∉ name)
    (short : n = 0 ∨ lfnEntries name ≤ 20) (most : n ≤ lfnEntries name + 1)
    (label : attr &&& attrVolumeId = 0) (number : c0 < 2 ^ 32)
    (inside : k < s.rowLength (cs ++ more)) :
    SlotStep s s' none (newPlace d c0 start n name) d cs (cs ++ more) k := by
  by_cases region : start ≤ k ∧ k < start + n
  · have bytes := fun {b} small => filed.raw_new region (b := b) small
    have first : builtEntry name attr c0 0 (k - start) 0 ≠ 0 ∧
        builtEntry name attr c0 0 (k - start) 0 ≠ dot := builtEntry_first terminated (by omega)
    have visible := fun i before => filed.visible early terminated short region (i := i) before
    have some : (s'.slotAt (cs ++ more) k).raw 0 ≠ 0 := by
      rw [bytes (by decide)]
      exact first.1
    rcases lt_or_ge (k - start) (lfnEntries name) with long | last
    · refine .struck some (.inr ?_) visible
      rw [bytes (by decide), builtEntry, if_pos long]
      rfl
    have here : k - start = lfnEntries name := by omega
    rw [here, builtEntry_last] at bytes
    by_cases deleted : (s'.slotAt (cs ++ more) k).raw 0 = 0xE5
    · exact .struck some (.inl deleted) visible
    have alike : Alike (dirEntry (shortName name) attr c0 0)
        (s'.slotAt (cs ++ more) k).raw := fun b small => bytes (by omega)
    refine .filed ?_ some ?_ ?_ visible
    · rw [alike.startCluster, startCluster_dirEntry number, newPlace, if_pos (by omega)]
      congr 3
      omega
    · rw [filed.raw_new region (by decide)]
      exact first.2
    · rw [bytes (by decide)]
      exact label
  · by_cases old : k < s.rowLength cs
    · exact .kept old (fun b small => filed.raw_old old region (by omega)) fun _ _ is => by cases is
    · refine .blank (Nat.le_of_not_lt old) ?_
      rw [filed.slots inside (by decide), if_neg region, if_neg old]

lemma head (g : Geometry s) (sector : 512 ≤ s.bytesPerSector) (terminated : 0 ∉ name)
    (least : FirstFilled s start n name)
    (dotted : (s'.slotAt (cs ++ more) 1).raw 0 = dot)
    (long : (s'.slotAt (cs ++ more) 0).raw 11 = attrLfn) (dir : Directory s d cs) :
    (s.slotAt cs 0).raw 11 = attrLfn := by
  have wide := entriesPerCluster_wide g sector
  by_cases region : start ≤ 0 ∧ 0 < start + n
  · rcases least with zero | ⟨named, short, least⟩
    · omega
    have two : 2 ≤ n := by
      have some : 1 ≤ lfnEntries name := by
        unfold lfnEntries
        omega
      rw [show start = 0 by omega, zero_mod] at least
      omega
    rw [filed.raw_new ⟨by omega, by omega⟩ (by decide)] at dotted
    exact absurd dotted (builtEntry_first terminated short).2
  · rwa [filed.raw_old (dir.rowLength_pos g) region (by decide)] at long

/-- Writing the entries of a name to a reachable directory is a revision. -/
lemma revision (old : Consistent s root) (reach : Reach s root d p) (dir : Directory s d cs)
    (inside0 : s.InVolume c0) (early : start ≤ s.firstFree cs) (terminated : 0 ∉ name)
    (least : FirstFilled s start n name)
    (most : n ≤ lfnEntries name + 1) (label : attr &&& attrVolumeId = 0)
    (marked : n = lfnEntries name + 1 → s'.getCluster c0 = clusterEocMax)
    (row : n = lfnEntries name + 1 → attr &&& attrDirectory ≠ 0 → ∀ j, j < s'.rowLength [c0] →
      (j < 2 → (s'.slotAt [c0] j).raw 0 = dot ∧ (s'.slotAt [c0] j).raw 11 = attrDirectory ∧
        Dotted s' [c0] c0 d j) ∧ (2 ≤ j → (s'.slotAt [c0] j).raw 0 = 0)) :
    Revision s s' root none (fun c => if c = d then more else []) (newPlace d c0 start n name) := by
  have short : n = 0 ∨ lfnEntries name ≤ 20 := least.imp_right fun some => some.2.1
  obtain ⟨o, named⟩ := reach.names
  -- a chain of another name keeps its links and its bytes
  have others : ∀ {o' c ds}, Names s root o' c → c ≠ d → Directory s c ds → ∀ x ∈ ds,
      s'.getCluster x = s.getCluster x ∧ s'.clusterData x = s.clusterData x := by
    intro o' c ds named' different dir' x mem
    have used := dir'.used x mem
    refine filed.others (dir'.inside x mem) (fun inside => ?_) fun same => ?_
    · rcases mem_append.mp inside with mine | new
      · exact old.sound.foreign named' named different dir' dir mem mine
      · exact used (filed.fresh new).1
    · exact used (same ▸ filed.free)
  have news : ∀ {d' k c}, newPlace d c0 start n name = some (d', k, c) →
      n = lfnEntries name + 1 ∧ d' = d ∧ k = start + lfnEntries name ∧ c = c0 := by
    intro d' k c new
    rw [newPlace] at new
    split at new
    case isTrue all =>
      cases new
      exact ⟨all, rfl, rfl, rfl⟩
    case isFalse => cases new
  refine ⟨filed.same, nofun, fun {o' c ds} named' _ dir' => ?_, fun {c x} mem => ?_,
    fun {c c' x} mem mem' => ?_, fun {e q es} reach' _ dir' k inside => ?_,
    fun {e q es} reach' _ dir' dotted long => ?_, fun {d' k c} new => ?_,
    fun {d' k c} new => ?_, fun {d' k c raw} new lists isDir => ?_⟩
  · split
    case isTrue here =>
      subst here
      rw [dir'.unique dir]
      exact filed.chain
    case isFalse other =>
      rw [append_nil]
      exact dir'.congr filed.same fun x mem => (others named' other dir' x mem).1
  · split at mem
    · exact (filed.fresh mem).1
    · cases mem
  · split at mem
    · split at mem'
      · exact ‹c = d›.trans ‹c' = d›.symm
      · cases mem'
    · cases mem
  · by_cases here : e = d
    · subst here
      cases dir'.unique dir
      rw [if_pos rfl] at inside ⊢
      exact filed.slotStep early terminated short most label
        (inside0.lt_two_pow old.geometry) inside
    · obtain ⟨o', named'⟩ := reach'.names
      rw [if_neg here, append_nil] at inside ⊢
      have same := slotAt_congr filed.same (fun x mem => (others named' here dir' x mem).2) inside
      exact .kept inside (fun b _ => by rw [same]) fun _ _ => nofun
  · by_cases here : e = d
    · subst here
      cases dir'.unique dir
      rw [if_pos rfl] at dotted long
      exact filed.head old.geometry old.sector terminated least dotted long dir
    · obtain ⟨o', named'⟩ := reach'.names
      rw [if_neg here, append_nil] at long
      rwa [slotAt_congr filed.same (fun x mem => (others named' here dir' x mem).2)
        (dir'.rowLength_pos old.geometry)] at long
  · obtain ⟨_, _, _, rfl⟩ := news new
    refine ⟨filed.free, fun c' mem => ?_⟩
    split at mem
    · exact (filed.fresh mem).2 rfl
    · cases mem
  · obtain ⟨all, _, _, rfl⟩ := news new
    refine Directory.single (inside0.of_same filed.same) ?_
    rw [marked all]
    decide
  · obtain ⟨all, rfl, rfl, rfl⟩ := news new
    apply row all
    obtain ⟨ds, dir', existing, rfl, _⟩ := lists
    cases dir'.unique filed.chain
    have region : start ≤ start + lfnEntries name ∧ start + lfnEntries name < start + n := by omega
    rw [isDirectory, filed.raw_new region (by decide), Nat.add_sub_cancel_left,
      builtEntry_last] at isDir
    exact bne_iff_ne.mp isDir

end Filed

/-! ## The row of a new directory -/

lemma shortNameToStr_dirEntry :
    shortNameToStr (dirEntry short attr c fileSize) = shortNameToStr fun i => short.getD i 0 := by
  apply shortNameToStr_congr
  intro i small
  rw [dirEntry, if_pos small]

lemma slotAt_single (inside : k < s.entriesPerCluster) :
    (s.slotAt [c] k).raw = rawEntry (s.clusterData c) k := by
  simp only [SbInfo.slotAt, div_eq_of_lt inside, mod_eq_of_lt inside]
  rfl

lemma dirEntry_dotted {raw : Store} (number : c < 2 ^ 32)
    (is : ∀ b, b < 32 → raw b = dirEntry short attrDirectory c 0 b) :
    raw 11 = attrDirectory ∧ (shortNameToStr raw = shortNameToStr fun i => short.getD i 0) ∧
      isDirectory raw = true ∧ startCluster raw = c := by
  have alike : Alike _ raw := fun b small => is b (by omega)
  refine ⟨is 11 (by decide), ?_, ?_, ?_⟩
  · rw [shortNameToStr_congr fun i small => alike i (lt_trans small (by decide)),
      shortNameToStr_dirEntry]
  · rw [alike.isDirectory, isDirectory, dirEntry_attr]
    decide
  · rw [alike.startCluster, startCluster_dirEntry number]

lemma dotEntries_row (g : Geometry s) (sector : 512 ≤ s.bytesPerSector)
    (number : c0 < 2 ^ 32) (parent : d < 2 ^ 32)
    (own : s.clusterData c0 = s.clip (dotEntries c0 d)) (inside : k < s.rowLength [c0]) :
    (k < 2 → (s.slotAt [c0] k).raw 0 = dot ∧ (s.slotAt [c0] k).raw 11 = attrDirectory ∧
      Dotted s [c0] c0 d k) ∧ (2 ≤ k → (s.slotAt [c0] k).raw 0 = 0) := by
  have wide := entriesPerCluster_wide g sector
  have size := clusterSize_eq g
  rw [SbInfo.rowLength, length_singleton, one_mul] at inside
  have bytes : ∀ {j b}, j < s.entriesPerCluster → b < 32 →
      (s.slotAt [c0] j).raw b = dotEntries c0 d (j * 32 + b) := by
    intro j b insideJ small
    rw [slotAt_single insideJ, rawEntry, if_pos small, own, SbInfo.clip, if_pos (by omega)]
  have self : ∀ b, b < 32 → (s.slotAt [c0] 0).raw b =
      dirEntry (dot :: replicate 10 space) attrDirectory c0 0 b := by
    intro b small
    rw [bytes (by omega) small, zero_mul, zero_add, dotEntries, if_pos small]
  have above : ∀ b, b < 32 → (s.slotAt [c0] 1).raw b =
      dirEntry (dot :: dot :: replicate 9 space) attrDirectory d 0 b := by
    intro b small
    rw [bytes (by omega) small, dotEntries, if_neg (by omega), if_pos (by omega)]
    congr 1
    omega
  refine ⟨fun early => ?_, fun late => ?_⟩
  · obtain ⟨attr, name, isDir, target⟩ := dirEntry_dotted number self
    rcases lt_or_ge k 1 with first | second
    · obtain rfl : k = 0 := by omega
      refine ⟨self 0 (by decide), attr, .inl ?_, isDir, .inr (.inl target), .inl rfl⟩
      rw [name]
      decide
    · obtain rfl : k = 1 := by omega
      obtain ⟨attr', name', isDir', target'⟩ := dirEntry_dotted parent above
      refine ⟨above 0 (by decide), attr', .inr ?_, isDir', .inr (.inr target'), .inr ⟨rfl, ?_⟩⟩
      · rw [name']
        decide
      · rw [attr]
        decide
  · rw [bytes inside (by decide), dotEntries, if_neg (by omega), if_neg (by omega)]

/-! ## The calls -/

lemma Revision.refl (s : SbInfo) (root : Nat) : Revision s s root none (fun _ => []) none := by
  refine ⟨SameShape.refl s, nofun, fun _ _ dir => ?_, nofun, nofun, fun _ _ dir k inside => ?_,
    fun _ _ _ _ long => ?_, nofun, nofun, nofun⟩
  · rwa [append_nil]
  · rw [append_nil] at inside ⊢
    exact .kept inside (fun _ _ => rfl) fun _ _ => nofun
  · rwa [append_nil] at long

def Revised (s s' : SbInfo) (root : Nat) : Prop :=
  ∃ gone more new, Revision s s' root gone more new

lemma Revised.refl (s : SbInfo) (root : Nat) : Revised s s root := ⟨_, _, _, .refl s root⟩

variable {e : Errno} {r : Except Errno Unit}

lemma giveBack_eq (g : Geometry s) (inside : s.InVolume c0)
    (mark : s.getCluster c0 = clusterEocMax)
    (done : s.giveBack fuel c0 e = some (s', r)) :
    s' = (s.setCluster c0 clusterFree).1 ∧ r = .error e := by
  obtain ⟨t, freed, result⟩ := map_eq_some_iff.mp done
  cases fuel with
  | zero => cases freed
  | succ fuel =>
    rw [SbInfo.freeClusterChain, if_pos (inside.bounds g), mark,
      if_pos (by decide)] at freed
    cases freed
    cases result
    exact ⟨rfl, rfl⟩

section Placed

variable (placed : Placed s mid d c0 cs more own) (dir : Directory s d cs)
  (inside0 : s.InVolume c0) (free : s.getCluster c0 = clusterFree)
include placed dir inside0 free

lemma Placed.untouched (written : Written mid t (cs ++ more) start n entry) :
    t.getCluster c0 = clusterEocMax ∧ t.clusterData c0 = own := by
  have outside : c0 ∉ cs ++ more := by
    intro mem
    rcases mem_append.mp mem with early | late
    · exact dir.used c0 early free
    · exact (placed.fresh late).2 rfl
  have there := inside0.of_same placed.same
  have notNew : c0 ∉ more := fun new => outside (mem_append_right _ new)
  constructor
  · rw [written.fat c0 there, placed.fat inside0 outside, if_pos rfl]
  · rw [written.others c0 there outside, placed.data inside0 notNew, if_pos rfl]

/-- The end of both functions: the entries written, and the cluster given back unless all of them
are. -/
lemma Placed.revision (old : Consistent s root) (reach : Reach s root d p)
    (early : start ≤ s.firstFree cs) (terminated : 0 ∉ name) (label : attr &&& attrVolumeId = 0)
    (dots : attr &&& attrDirectory ≠ 0 → own = s.clip (dotEntries c0 d))
    (written : Written mid t (cs ++ more) start n (builtEntry name attr c0 0))
    (least : FirstFilled s start n name) (most : n ≤ lfnEntries name + 1)
    (ends : n = lfnEntries name + 1 ∧ s' = t ∨
      n ≠ lfnEntries name + 1 ∧ s' = (t.setCluster c0 clusterFree).1) : Revised s s' root := by
  have g := old.geometry
  have filed := placed.filed g free dir written
  obtain ⟨mark, kept⟩ := placed.untouched dir inside0 free written
  rcases ends with ⟨all, rfl⟩ | ⟨part, rfl⟩
  · have same := filed.same
    refine ⟨_, _, _, filed.revision old reach dir inside0 early terminated least most label
      (fun _ => mark) fun _ isDir j inside => ?_⟩
    refine dotEntries_row (g.of_same same) (by rw [same.bytesPerSector]; exact old.sector)
      (inside0.lt_two_pow g) (dir.first_inside.lt_two_pow g) ?_ inside
    rw [kept, dots isDir]
    funext b
    rw [SbInfo.clip, SbInfo.clip, same.clusterSize]
  · exact ⟨_, _, _, (filed.released g dir inside0).revision old reach dir inside0 early terminated
      least most label (fun all => absurd all part) fun all => absurd all part⟩

end Placed

lemma DirOp.revised (op : DirOp) (old : Consistent s root) (terminated : 0 ∉ name)
    (reach : Reach s root d p) (done : op.run s d name fuel = some (s', r)) :
    Revised s s' root := by
  have g := old.geometry
  obtain ⟨cs, dir⟩ := old.sound.directory reach
  have label : op.attr &&& attrVolumeId = 0 := by cases op <;> rfl
  have early : op.start s cs ≤ s.firstFree cs := by
    cases op with
    | create => exact le_rfl
    | mkdir => exact mod_le _ _
  cases op.attempt g dir done with
  | nothing same _ =>
    rw [same]
    exact .refl s root
  | dropped marked gave =>
    -- nothing is written
    have mark := marked.fat marked.inside
    rw [if_pos rfl] at mark
    obtain ⟨rfl, _⟩ := giveBack_eq (g.of_same marked.same)
      (marked.inside.of_same marked.same) mark gave
    exact (marked.placed dir).revision dir marked.inside marked.free old reach (zero_le _)
      terminated (by decide) (fun isDir => absurd rfl isDir)
      (Written.refl (zero_le _) (builtEntry name attrArchive _ 0)) (.inl rfl) (zero_le _)
      (.inr ⟨nofun, rfl⟩)
  | wrote inside0 free placed _ dots less wrote ends =>
    obtain ⟨n, written, least, most, all⟩ :=
      writeLfn_cases (g.of_same placed.same) placed.chain less wrote
    rw [FirstFilled, placed.same.entriesPerCluster] at least
    refine placed.revision dir inside0 free old reach early terminated label dots written least
      most ?_
    rcases ends with ⟨rfl, same⟩ | ⟨e, rfl, gave⟩
    · exact .inl ⟨all.mp rfl, (Prod.mk.inj same).1.symm⟩
    · have mark := (placed.untouched dir inside0 free written).1
      have inside := (inside0.of_same placed.same).of_same written.same
      exact .inr ⟨fun whole => (by cases all.mpr whole),
        (giveBack_eq ((g.of_same placed.same).of_same written.same) inside mark gave).1⟩

end AuroraOS.Fat32
