import AuroraOS.Journal.Writes

/-!
# Crashes during a commit

The device after a crash between two writes of a commit, and what `journal_init` makes of it at the
next boot: `journal_recover` refuses to run before `g_journal_initialized` is set, so a dirty
superblock makes the boot fail.
-/

namespace AuroraOS.Journal

open Lib Block List

variable {j : Handle}

/-! ## Opening the journal -/

def Handle.geometry (j : Handle) : Geometry :=
  ⟨j.journalStart, j.journalBlocks, j.blockSize, j.fsTotalBlocks⟩

structure SameShape (j : Handle) (d : BlockDevice) : Prop where
  sector : d.blockSize = j.bdev.blockSize
  total : d.totalSectors = j.bdev.totalSectors

section Boot

variable {d : BlockDevice}

lemma emptyHandle_sized (sized : Sized j) (shape : SameShape j d) :
    Sized (emptyHandle false d j.geometry) := sized.congr rfl shape.sector

lemma emptyHandle_start (placed : Placed j) (shape : SameShape j d) :
    onDevice (emptyHandle false d j.geometry) j.journalStart := by
  have on := placed.start_onDevice
  simp only [onDevice, emptyHandle, sectorsPerBlock, shape.sector, shape.total]
  exact on

lemma emptyHandle_read (placed : Placed j) (shape : SameShape j d) :
    ∃ buf, journalReadBlock (emptyHandle false d j.geometry) 0 = some buf ∧
      ∀ a n, a + n ≤ j.blockSize →
      leRead buf a n = leRead d.data (j.journalStart * j.blockSize + a) n := by
  have on := emptyHandle_start placed shape
  apply journalReadBlock_eq (emptyHandle_sized placed.toSized shape)
  · have total := placed.total
    have fits := on
    rw [onDevice, add_mul] at fits
    simp only [emptyHandle, Handle.geometry, add_zero, shape.total] at fits ⊢
    omega
  · exact on

variable (placed : Placed j) (block : 512 ≤ j.blockSize) (shape : SameShape j d)
include placed block shape

/-- With a superblock, the journal opens and writes nothing if it is clean; if it is dirty,
`journal_recover` finds the journal not initialised. -/
lemma journalInit_marked (flag : Bool)
    (magic : leRead d.data (j.journalStart * j.blockSize) 4 = journalMagicSb)
    (marked : leRead d.data (j.journalStart * j.blockSize + 52) 4 = if flag then 1 else 0) :
    (flag = false → (journalInit false d j.geometry).1 = 0 ∧
      (journalInit false d j.geometry).2.bdev = d) ∧
    (flag = true → (journalInit false d j.geometry).1 = -1) := by
  obtain ⟨buf, read, field⟩ := emptyHandle_read placed shape
  have reserve := placed.reserve
  rw [← add_zero (j.journalStart * j.blockSize), ← field 0 4 (by omega)] at magic
  rw [← field 52 4 (by omega)] at marked
  rw [journalInit, if_neg (by simp only [Handle.geometry]; omega)]
  simp only [read, if_pos magic]
  constructor <;> rintro rfl
  · simp [marked]
    rfl
  · simp [marked, emptyHandle, journalRecover]

lemma journalInit_create
    (other : leRead d.data (j.journalStart * j.blockSize) 4 ≠ journalMagicSb) :
    (journalInit false d j.geometry).1 = 0 ∧ ∃ sb, (journalInit false d j.geometry).2.bdev =
      d.push [blockPatch j.blockSize (j.journalStart, sb)] := by
  obtain ⟨buf, read, field⟩ := emptyHandle_read placed shape
  have reserve := placed.reserve
  rw [← add_zero (j.journalStart * j.blockSize), ← field 0 4 (by omega)] at other
  let j₀ : Handle := { emptyHandle false d j.geometry with
    head := 1, tail := 1, sequence := 1, dirty := false }
  have start : onDevice j₀ j.journalStart := emptyHandle_start placed shape
  have written : writeJsb j₀ =
      (0, j₀.push [blockPatch j₀.blockSize (j₀.journalStart, superblock j₀)]) :=
    writeJsb_eq ((emptyHandle_sized placed.toSized shape).congr rfl rfl)
      start (shape.total.trans_lt placed.total)
  have created : journalInit false d j.geometry = (0, { j₀.push
      [blockPatch j₀.blockSize (j₀.journalStart, superblock j₀)] with initialized := true }) := by
    rw [journalInit, if_neg (by simp only [Handle.geometry]; omega)]
    simp only [read, if_neg other, journalInit.journalCreate]
    rw [written]
    rfl
  rw [created]
  exact ⟨rfl, _, rfl⟩

end Boot

/-! ## The image a crash leaves -/

lemma descriptor_magic (j : Handle) (seq : Nat) :
    leRead (descriptor j seq) 0 4 = journalMagicDesc := by
  have entries : ∀ (l : List ((Nat × Store) × Nat)) (b : Store),
      leRead (l.foldl (fun b e =>
        leWrite (leWrite b (36 + 20 * e.2) 8 e.1.1) (36 + 20 * e.2 + 8) 4
          (calcChecksum e.1.2 j.blockSize)) b) 0 4 = leRead b 0 4 := by
    intro l
    induction l with
    | nil => exact fun _ => rfl
    | cons e l ih =>
      intro b
      rw [foldl_cons, ih, leRead_leWrite_disjoint (by omega), leRead_leWrite_disjoint (by omega)]
  refine (entries _ _).trans ?_
  rw [leRead_leWrite_disjoint (by omega), leRead_leWrite_disjoint (by omega), leRead_leWrite_same]
  rfl

lemma commitRecord_magic (seq : Nat) (stack : Store) :
    leRead (commitRecord seq stack) 0 4 = journalMagicCommit := by
  simp only [commitRecord]
  rw [leRead_leWrite_disjoint (by omega), leRead_leWrite_disjoint (by omega), leRead_leWrite_same]
  rfl

/-- Every log write goes to a block behind the superblock, or to it when the head is 0. -/
lemma mem_logWrites {desc commit : Store} {p : Patch} (mem : p ∈ logWrites j desc commit) :
    ∃ c data, j.journalStart + j.head ≤ c ∧ p = blockPatch j.blockSize (c, data) := by
  simp only [logWrites, mem_cons, mem_append, not_mem_nil, or_false] at mem
  rcases mem with rfl | mem | rfl
  · exact ⟨_, desc, le_rfl, rfl⟩
  · obtain ⟨c, data, low, -, rfl⟩ := mem_logged mem
    exact ⟨c, data, by omega, rfl⟩
  · exact ⟨_, commit, by omega, rfl⟩

lemma checkpointPatch_avoids (fits : Fits j) {w : Nat × Store} (mem : w ∈ j.txn) {i : Nat} :
    (checkpointPatch j w).Avoids (j.journalStart * j.blockSize + i) := by
  right
  have before := Nat.mul_le_mul_right j.bdev.blockSize (fits.targets w mem)
  rw [add_mul, mul_assoc j.journalStart, fits.bytes] at before
  simp only [checkpointPatch, sectorPatch]
  omega

section Image

variable {desc commit moved clean : Store} {k : Nat}

lemma phaseWrites_take (short : k ≤ 2 * j.txn.length + 2) :
    (phaseWrites j desc commit moved clean).take k =
      (logWrites j desc commit ++ j.txn.map (checkpointPatch j)).take k := by
  rw [phaseWrites, ← append_assoc]
  apply take_append_of_le_length
  simp only [logWrites, length_append, length_cons, length_map, logged_length]
  omega

lemma log_avoids (fits : Fits j) (head : j.head ≠ 0) {i : Nat} (inside : i < j.blockSize)
    {p : Patch} (mem : p ∈ logWrites j desc commit ++ j.txn.map (checkpointPatch j)) :
    p.Avoids (j.journalStart * j.blockSize + i) := by
  rcases mem_append.mp mem with mem | mem
  · obtain ⟨c, data, low, rfl⟩ := mem_logWrites mem
    exact blockPatch_avoids inside (by omega)
  · obtain ⟨w, inTxn, rfl⟩ := mem_map.mp mem
    exact checkpointPatch_avoids fits inTxn

variable {stack dirty : Store} {data : Store} {i : Nat}

lemma image_dirty (fits : Fits j) (inside : i < j.blockSize) (head : j.head ≠ 0 ∨ k = 0)
    (short : k ≤ 2 * j.txn.length + 2) :
    overlay data ((commitWrites j stack dirty moved clean).take (k + 1))
      (j.journalStart * j.blockSize + i) = dirty i := by
  rw [commitWrites, take_succ_cons, phaseWrites_take short]
  apply overlay_last [] inside
  intro p mem
  rcases head with behind | rfl
  · exact log_avoids fits behind inside (mem_of_mem_take mem)
  · simp at mem

lemma image_descriptor (fits : Fits j) (inside : i < j.blockSize) (head : j.head = 0)
    (short : k ≤ 2 * j.txn.length + 1) :
    overlay data ((commitWrites j stack dirty moved clean).take (k + 2))
      (j.journalStart * j.blockSize + i) = descriptor j j.sequence i := by
  rw [commitWrites, take_succ_cons, phaseWrites_take (by omega), logWrites, cons_append,
    take_succ_cons, head, add_zero]
  apply overlay_last [_] inside
  intro p mem
  have written := mem_of_mem_take mem
  simp only [mem_append, mem_singleton] at written
  rcases written with (mem | rfl) | mem
  · obtain ⟨c, data, low, -, rfl⟩ := mem_logged mem
    exact blockPatch_avoids inside (by omega)
  · exact blockPatch_avoids inside (by omega)
  · obtain ⟨w, inTxn, rfl⟩ := mem_map.mp mem
    exact checkpointPatch_avoids fits inTxn

lemma commitWrites_take (j : Handle) (stack dirty moved clean : Store) (extra : Nat) :
    ∃ front : List Patch, (commitWrites j stack dirty moved clean).take
      (2 * j.txn.length + 3 + extra) = front ++ [blockPatch j.blockSize (j.journalStart, moved),
         blockPatch j.blockSize (j.journalStart, clean)].take extra := by
  generalize filled : blockPatch j.blockSize (j.journalStart, dirty) ::
    (logWrites j (descriptor j j.sequence) (commitRecord j.sequence stack) ++
      j.txn.map (checkpointPatch j)) = front
  have size : 2 * j.txn.length + 3 = front.length := by
    rw [← filled]
    simp only [logWrites, length_append, length_cons, length_map, logged_length, length_nil]
    omega
  refine ⟨front, ?_⟩
  rw [size, ← take_length_add_append, ← filled]
  simp [commitWrites, phaseWrites]

lemma image_moved (inside : i < j.blockSize) :
    overlay data ((commitWrites j stack dirty moved clean).take (2 * j.txn.length + 4))
      (j.journalStart * j.blockSize + i) = moved i := by
  obtain ⟨front, cut⟩ := commitWrites_take j stack dirty moved clean 1
  rw [cut]
  exact overlay_last _ inside (by simp)

lemma image_clean (inside : i < j.blockSize) :
    overlay data ((commitWrites j stack dirty moved clean).take (2 * j.txn.length + 5))
      (j.journalStart * j.blockSize + i) = clean i := by
  obtain ⟨front, cut⟩ := commitWrites_take j stack dirty moved clean 2
  rw [cut, take_succ_cons, append_cons]
  exact overlay_last _ inside (by simp)

/-- A block before the journal holds what the checkpoint has written. -/
lemma image_target {b : Nat} (inside : i < j.blockSize) (before : b < j.journalStart) :
    overlay data ((commitWrites j stack dirty moved clean).take k) (b * j.blockSize + i) =
      overlay data ((j.txn.map (checkpointPatch j)).take (k - (j.txn.length + 3)))
        (b * j.blockSize + i) := by
  have size : (blockPatch j.blockSize (j.journalStart, dirty) ::
      logWrites j (descriptor j j.sequence) (commitRecord j.sequence stack)).length =
      j.txn.length + 3 := by
    simp [logWrites, logged_length]
  have split : commitWrites j stack dirty moved clean =
      (blockPatch j.blockSize (j.journalStart, dirty) ::
        logWrites j (descriptor j j.sequence) (commitRecord j.sequence stack)) ++
      (j.txn.map (checkpointPatch j) ++
        [blockPatch j.blockSize (j.journalStart, moved),
         blockPatch j.blockSize (j.journalStart, clean)]) := rfl
  rw [split, take_append, size, overlay_skip, take_append, overlay_append]
  · apply overlay_of_avoids
    intro p mem
    have written := mem_of_mem_take mem
    simp only [mem_cons, not_mem_nil, or_false] at written
    rcases written with rfl | rfl
    · exact blockPatch_avoids inside (by omega)
    · exact blockPatch_avoids inside (by omega)
  · intro p mem
    rcases mem_cons.mp (mem_of_mem_take mem) with rfl | written
    · exact blockPatch_avoids inside (by omega)
    · obtain ⟨c, data, low, rfl⟩ := mem_logWrites written
      exact blockPatch_avoids inside (by omega)

def IsCommitRecord (j : Handle) (n : Nat) (p : Patch) : Prop :=
  p.addr = (j.journalStart + j.head + 1 + n) * j.blockSize ∧
    leRead p.bytes 0 4 = journalMagicCommit

lemma commitRecord_mem_iff (stack dirty moved clean : Store) (size : 0 < j.blockSize) :
    (∃ p ∈ (commitWrites j stack dirty moved clean).take k,
      IsCommitRecord j j.txn.length p) ↔ j.txn.length + 3 ≤ k := by
  generalize filled : blockPatch j.blockSize (j.journalStart, dirty) ::
    blockPatch j.blockSize (j.journalStart + j.head, descriptor j j.sequence) ::
    logged j.blockSize (j.journalStart + j.head + 1) j.txn = front
  have length : front.length = j.txn.length + 2 := by
    simp [← filled, logged_length]
  have split : commitWrites j stack dirty moved clean = front ++
      blockPatch j.blockSize (j.journalStart + j.head + 1 + j.txn.length,
        commitRecord j.sequence stack) ::
      (j.txn.map (checkpointPatch j) ++
        [blockPatch j.blockSize (j.journalStart, moved),
         blockPatch j.blockSize (j.journalStart, clean)]) := by
    simp [← filled, commitWrites, phaseWrites, logWrites]
  have earlier : ∀ p ∈ front, ∃ c data, c < j.journalStart + j.head + 1 + j.txn.length ∧
      p = blockPatch j.blockSize (c, data) := by
    intro p mem
    rw [← filled] at mem
    simp only [mem_cons] at mem
    rcases mem with rfl | rfl | mem
    · exact ⟨_, dirty, by omega, rfl⟩
    · exact ⟨_, descriptor j j.sequence, by omega, rfl⟩
    · obtain ⟨c, data, -, high, rfl⟩ := mem_logged mem
      exact ⟨c, data, high, rfl⟩
  rw [split]
  constructor
  · rintro ⟨p, mem, addr, -⟩
    by_contra few
    rw [take_append_of_le_length (by omega)] at mem
    obtain ⟨c, data, low, rfl⟩ := earlier p (mem_of_mem_take mem)
    have same := Nat.eq_of_mul_eq_mul_right size addr
    omega
  · intro enough
    refine ⟨blockPatch j.blockSize (j.journalStart + j.head + 1 + j.txn.length,
      commitRecord j.sequence stack), ?_, rfl, commitRecord_magic j.sequence stack⟩
    obtain ⟨m, rfl⟩ : ∃ m, k = j.txn.length + 2 + (m + 1) := ⟨k - (j.txn.length + 3), by omega⟩
    rw [← length, take_length_add_append, take_succ_cons]
    exact mem_append_right _ (mem_cons_self ..)

end Image

/-! ## The outcome of the next boot -/

/-- The numbers of completed writes after which the journal opens. -/
def Opens (j : Handle) (k : Nat) : Prop :=
  k = 0 ∨ k = 2 * j.txn.length + 5 ∨ j.head = 0 ∧ 2 ≤ k ∧ k ≤ 2 * j.txn.length + 3

section Outcome

variable {stack dirty moved clean : Store} {k : Nat}

lemma crash_shape (writes : List Patch) : SameShape j (j.bdev.crash writes k) := ⟨rfl, rfl⟩

lemma leRead_of_image {data sb : Store}
    (same : ∀ i < j.blockSize, data (j.journalStart * j.blockSize + i) = sb i) {a n : Nat}
    (inside : a + n ≤ j.blockSize) :
    leRead data (j.journalStart * j.blockSize + a) n = leRead sb a n :=
  (leRead_shift fun i _ high => (same i (by omega)).symm).symm

lemma journalInit_of_image {d : BlockDevice} {sb : Store} {flag : Bool} (placed : Placed j)
    (block : 512 ≤ j.blockSize) (shape : SameShape j d) (super : IsSuperblock flag sb)
    (same : ∀ i < j.blockSize, d.data (j.journalStart * j.blockSize + i) = sb i) :
    (flag = false → (journalInit false d j.geometry).1 = 0 ∧
      (journalInit false d j.geometry).2.bdev = d) ∧
    (flag = true → (journalInit false d j.geometry).1 = -1) := by
  have magic := leRead_of_image same (a := 0) (n := 4) (by omega)
  have flags := leRead_of_image same (a := 52) (n := 4) (by omega)
  rw [super.1, add_zero] at magic
  rw [super.2] at flags
  exact journalInit_marked placed block shape flag magic flags

/-- The boot after a crash: it opens the journal without touching a block before it, or
it fails. -/
lemma journalInit_crash (stack : Store) (fits : Fits j) (block : 512 ≤ j.blockSize)
    (magic : leRead j.bdev.data (j.journalStart * j.blockSize) 4 = journalMagicSb)
    (unmarked : leRead j.bdev.data (j.journalStart * j.blockSize + 52) 4 = 0)
    (dirtyOk : IsSuperblock true dirty) (movedOk : IsSuperblock true moved)
    (cleanOk : IsSuperblock false clean) (short : k ≤ 2 * j.txn.length + 5) :
    let d := j.bdev.crash (commitWrites j stack dirty moved clean) k
    (Opens j k ∧ (journalInit false d j.geometry).1 = 0 ∧
      ∀ b < j.journalStart, ∀ i < j.blockSize,
        (journalInit false d j.geometry).2.bdev.data (b * j.blockSize + i) =
          d.data (b * j.blockSize + i)) ∨
    (¬ Opens j k ∧ (journalInit false d j.geometry).1 = -1) := by
  intro d
  have placed := fits.toPlaced
  have shape : SameShape j d := crash_shape _
  have untouched (ok : (journalInit false d j.geometry).1 = 0 ∧
      (journalInit false d j.geometry).2.bdev = d) : (journalInit false d j.geometry).1 = 0 ∧
      ∀ b < j.journalStart, ∀ i < j.blockSize,
        (journalInit false d j.geometry).2.bdev.data (b * j.blockSize + i) =
          d.data (b * j.blockSize + i) :=
    ⟨ok.1, fun b _ i _ => by rw [ok.2]⟩
  -- a superblock that was written decides the boot
  rcases Nat.eq_zero_or_pos k with rfl | positive
  · exact .inl ⟨.inl rfl, untouched
      ((journalInit_marked placed block shape false magic unmarked).1 rfl)⟩
  by_cases last : k = 2 * j.txn.length + 5
  · subst last
    exact .inl ⟨.inr (.inl rfl), untouched
      ((journalInit_of_image placed block shape cleanOk fun i inside => image_clean inside).1 rfl)⟩
  by_cases previous : k = 2 * j.txn.length + 4
  · subst previous
    refine .inr ⟨by simp only [Opens]; omega, ?_⟩
    exact (journalInit_of_image placed block shape movedOk fun i inside => image_moved inside).2 rfl
  by_cases replaced : j.head = 0 ∧ 2 ≤ k
  · obtain ⟨m, rfl⟩ : ∃ m, k = m + 2 := ⟨k - 2, by omega⟩
    have image : ∀ i < j.blockSize, d.data (j.journalStart * j.blockSize + i) =
        descriptor j j.sequence i := fun i inside =>
      image_descriptor fits inside replaced.1 (by omega)
    have found := leRead_of_image image (a := 0) (n := 4) (by omega)
    rw [descriptor_magic, add_zero] at found
    obtain ⟨ok, sb, bdev⟩ := journalInit_create placed block shape (by rw [found]; decide)
    refine .inl ⟨.inr (.inr ⟨replaced.1, by omega, by omega⟩), ok, ?_⟩
    intro b before i inside
    rw [bdev]
    exact Patch.apply_of_avoids (blockPatch_avoids inside (by omega))
  · obtain ⟨m, rfl⟩ : ∃ m, k = m + 1 := ⟨k - 1, by omega⟩
    refine .inr ⟨by simp only [Opens]; omega, ?_⟩
    exact (journalInit_of_image placed block shape dirtyOk fun i inside =>
      image_dirty fits inside (by omega) (by omega)).2 rfl

end Outcome

end AuroraOS.Journal
