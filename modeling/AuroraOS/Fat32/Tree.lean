import AuroraOS.Fat32.LongName

/-!
# The tree of a FAT32 volume

`Sound` says that the chains named by the entries of reachable directories end, hold no free cluster
and are pairwise disjoint; `Consistent` adds what the functions of `fat32.c` rely on in the rows of
the directories.  A `Revision` is what one call may do to a volume.
-/

namespace AuroraOS.Fat32

open Lib SbInfo List

variable {s s' : SbInfo} {root c c' d d' e k p q : Nat} {cs : List Nat} {raw raw' : Store}

/-! ## Entries -/

/-- An entry of a file or a subdirectory: no long-name entry, no volume label, and neither
"." nor "..". -/
structure IsEntry (raw : Store) : Prop where
  short : raw 11 ≠ attrLfn
  named : raw 11 &&& attrVolumeId = 0
  proper : raw 0 ≠ dot

def Alike (raw raw' : Store) : Prop := ∀ b, b < 28 → raw' b = raw b

lemma Alike.startCluster (alike : Alike raw raw') : startCluster raw' = startCluster raw := by
  rw [Fat32.startCluster, Fat32.startCluster,
    leRead_congr fun b _ high => alike b (high.trans (by decide)),
    leRead_congr fun b _ high => alike b high]

lemma Alike.isDirectory (alike : Alike raw raw') : isDirectory raw' = isDirectory raw := by
  rw [Fat32.isDirectory, Fat32.isDirectory, alike 11 (by decide)]

lemma Alike.isEntry (alike : Alike raw raw') (entry : IsEntry raw') : IsEntry raw := by
  refine ⟨?_, ?_, ?_⟩
  · rw [← alike 11 (by decide)]
    exact entry.short
  · rw [← alike 11 (by decide)]
    exact entry.named
  · rw [← alike 0 (by decide)]
    exact entry.proper

def Lists (s : SbInfo) (d k : Nat) (raw : Store) : Prop :=
  ∃ cs, Directory s d cs ∧ s.Existing cs k ∧ (s.slotAt cs k).raw = raw ∧ IsEntry raw

lemma Directory.unique {cs cs' : List Nat} (dir : Directory s d cs) (dir' : Directory s d cs') :
    cs = cs' := dir.chain.unique dir'.chain

lemma Directory.first_mem (dir : Directory s d cs) : d ∈ cs := by
  obtain ⟨rest, rfl, _⟩ := dir.cases
  exact mem_cons_self

lemma Directory.rowLength_pos (g : Geometry s) (dir : Directory s d cs) : 0 < s.rowLength cs := by
  obtain ⟨rest, rfl, _⟩ := dir.cases
  exact Nat.mul_pos (Nat.succ_pos _) (entriesPerCluster_pos g)

lemma Lists.unique (one : Lists s d k raw) (two : Lists s d k raw') : raw = raw' := by
  obtain ⟨cs, dir, _, bytes, _⟩ := one
  obtain ⟨cs', dir', _, bytes', _⟩ := two
  rw [← bytes, ← bytes', dir.unique dir']

/-! ## Reachable entries -/

inductive Reach (s : SbInfo) (root : Nat) : Nat → Nat → Prop
  | root : Reach s root root root
  | child {d p k : Nat} {raw : Store} : Reach s root d p → Lists s d k raw →
      isDirectory raw = true → Reach s root (startCluster raw) d

/-- What names the first cluster `c` of a chain: nothing for the root directory, else the place of
a reachable entry. -/
inductive Names (s : SbInfo) (root : Nat) : Option (Nat × Nat) → Nat → Prop
  | root : Names s root none root
  | entry {d p k : Nat} {raw : Store} : Reach s root d p → Lists s d k raw →
      Names s root (some (d, k)) (startCluster raw)

lemma Names.unique {o : Option (Nat × Nat)} (one : Names s root o c) (two : Names s root o c') :
    c = c' := by
  cases one with
  | root =>
    cases two with
    | root => rfl
  | entry _ lists =>
    cases two with
    | entry _ lists' => rw [lists.unique lists']

/-- The chains of the root directory and of the reachable entries stay in the volume up to an
end mark, hold no free cluster and are pairwise disjoint. -/
structure Sound (s : SbInfo) (root : Nat) : Prop where
  rooted : ∃ cs, Directory s root cs
  chains : ∀ {d p k : Nat} {raw : Store}, Reach s root d p → Lists s d k raw →
    isDirectory raw = true ∨ 2 ≤ startCluster raw → ∃ cs, Directory s (startCluster raw) cs
  used : ∀ {o c cs}, Names s root o c → Directory s c cs → ∀ x ∈ cs, s.getCluster x ≠ clusterFree
  apart : ∀ {o o' c c' cs cs' x}, Names s root o c → Names s root o' c' → Directory s c cs →
    Directory s c' cs' → x ∈ cs → x ∈ cs' → o = o'

lemma Reach.names (reach : Reach s root d p) : ∃ o, Names s root o d := by
  cases reach with
  | root => exact ⟨none, .root⟩
  | child reach lists isDir => exact ⟨_, .entry reach lists⟩

namespace Sound

variable (sound : Sound s root)
include sound

lemma directory (reach : Reach s root d p) : ∃ cs, Directory s d cs := by
  cases reach with
  | root => exact sound.rooted
  | child reach lists isDir => exact sound.chains reach lists (.inl isDir)

variable {o o' : Option (Nat × Nat)}

lemma chain (names : Names s root o c) (low : 2 ≤ c) : ∃ cs, Directory s c cs := by
  cases names with
  | root => exact sound.rooted
  | entry reach lists => exact sound.chains reach lists (.inr low)

lemma foreign {x : Nat} {cs cs' : List Nat}
    (names : Names s root o c) (names' : Names s root o' c') (different : c ≠ c')
    (dir : Directory s c cs) (dir' : Directory s c' cs') (mem : x ∈ cs) : x ∉ cs' := by
  intro mem'
  cases sound.apart names names' dir dir' mem mem'
  exact different (names.unique names')

lemma name_unique (names : Names s root o c)
    (names' : Names s root o' c) (dir : Directory s c cs) : o = o' :=
  sound.apart names names' dir dir dir.first_mem dir.first_mem

end Sound

inductive ReachIn (s : SbInfo) (root : Nat) : Nat → Nat → Nat → Prop
  | root : ReachIn s root 0 root root
  | child {n d p k : Nat} {raw : Store} : ReachIn s root n d p → Lists s d k raw →
      isDirectory raw = true → ReachIn s root (n + 1) (startCluster raw) d

lemma ReachIn.reach {n : Nat} (steps : ReachIn s root n d p) : Reach s root d p := by
  induction steps with
  | root => exact .root
  | child _ lists isDir ih => exact .child ih lists isDir

lemma Reach.steps (reach : Reach s root d p) : ∃ n, ReachIn s root n d p := by
  induction reach with
  | root => exact ⟨0, .root⟩
  | child _ lists isDir ih =>
    obtain ⟨n, steps⟩ := ih
    exact ⟨n + 1, .child steps lists isDir⟩

lemma ReachIn.place {n : Nat} (steps : ReachIn s root n d p) :
    n = 0 ∧ d = root ∧ Names s root none d ∨
      ∃ m k raw q, n = m + 1 ∧ Names s root (some (p, k)) d ∧ Lists s p k raw ∧
        ReachIn s root m p q := by
  cases steps with
  | root => exact .inl ⟨rfl, rfl, .root⟩
  | child steps lists isDir =>
    exact .inr ⟨_, _, _, _, rfl, .entry steps.reach lists, lists, steps⟩

namespace Sound

variable (sound : Sound s root)
include sound

lemma steps_unique {n m : Nat} (one : ReachIn s root n d p) (two : ReachIn s root m d q) :
    n = m := by
  induction n generalizing d p m q with
  | zero =>
    obtain ⟨cs, dir⟩ := sound.directory one.reach
    rcases one.place with ⟨_, _, named⟩ | ⟨_, _, _, _, more, _⟩
    · rcases two.place with ⟨zero, _⟩ | ⟨_, _, _, _, _, named', _⟩
      · exact zero.symm
      · cases sound.name_unique named named' dir
    · cases more
  | succ n ih =>
    obtain ⟨cs, dir⟩ := sound.directory one.reach
    rcases one.place with ⟨zero, _⟩ | ⟨n', _, _, _, more, named, _, before⟩
    · cases zero
    · cases more
      rcases two.place with ⟨_, _, named'⟩ | ⟨m', _, _, _, rfl, named', _, before'⟩
      · cases sound.name_unique named named' dir
      · cases sound.name_unique named named' dir
        rw [ih before before']

lemma steps_of_entry {n m : Nat} (one : ReachIn s root n d p) (lists : Lists s d k raw)
    (two : ReachIn s root m (startCluster raw) q) : m = n + 1 := by
  obtain ⟨cs, dir⟩ := sound.directory two.reach
  have named : Names s root (some (d, k)) (startCluster raw) := .entry one.reach lists
  rcases two.place with ⟨_, _, named'⟩ | ⟨m', _, _, _, rfl, named', _, before⟩
  · cases sound.name_unique named named' dir
  · cases sound.name_unique named named' dir
    rw [sound.steps_unique before one]

lemma not_ancestor (reach : Reach s root d p) (lists : Lists s d k raw) :
    startCluster raw ≠ d ∧ startCluster raw ≠ p := by
  obtain ⟨n, steps⟩ := reach.steps
  have notSelf : startCluster raw ≠ d := by
    intro up
    have := sound.steps_of_entry steps lists (up ▸ steps)
    omega
  refine ⟨notSelf, fun up => ?_⟩
  cases steps with
  | root => exact notSelf up
  | child before lists' isDir =>
    have := sound.steps_of_entry (.child before lists' isDir) lists (up ▸ before)
    omega

end Sound

/-! ## Consistent volumes -/

/-- Entry `k` of the directory `d`, reached from `p`, is one of the two that `fat32_mkdir` puts at
its start. -/
structure Dotted (s : SbInfo) (cs : List Nat) (d p k : Nat) : Prop where
  name : shortNameToStr (s.slotAt cs k).raw = [dot] ∨
    shortNameToStr (s.slotAt cs k).raw = [dot, dot]
  isDir : isDirectory (s.slotAt cs k).raw = true
  target : startCluster (s.slotAt cs k).raw < 2 ∨ startCluster (s.slotAt cs k).raw = d ∨
    startCluster (s.slotAt cs k).raw = p
  place : k = 0 ∨ k = 1 ∧ (s.slotAt cs 0).raw 11 ≠ attrLfn

/-- The row of the directory `d`, reached from `p`: nothing stands behind an end mark, a volume
label has no cluster, and the entries that start with a dot are "." and "..". -/
structure Orderly (s : SbInfo) (cs : List Nat) (d p : Nat) : Prop where
  ended : ∀ {i j}, i < j → j < s.rowLength cs → (s.slotAt cs i).raw 0 = 0 →
    (s.slotAt cs j).raw 0 = 0
  labels : ∀ {k}, s.Existing cs k → (s.slotAt cs k).raw 11 ≠ attrLfn →
    (s.slotAt cs k).raw 11 &&& attrVolumeId ≠ 0 → startCluster (s.slotAt cs k).raw < 2
  dots : ∀ {k}, s.Existing cs k → (s.slotAt cs k).raw 11 ≠ attrLfn →
    (s.slotAt cs k).raw 11 &&& attrVolumeId = 0 → (s.slotAt cs k).raw 0 = dot → Dotted s cs d p k

structure Consistent (s : SbInfo) (root : Nat) : Prop where
  geometry : Geometry s
  sector : 512 ≤ s.bytesPerSector
  sound : Sound s root
  rows : ∀ {d p cs}, Reach s root d p → Directory s d cs → Orderly s cs d p

/-! ## Revisions -/

/-- What a call may make of place `k` in the row `cs` of the directory `d`, which becomes the row
`cs'`: it keeps its entry, unless that names the chain `gone`; it is free behind the old row;
it is struck out; or the entry `new` is filed there. -/
inductive SlotStep (s s' : SbInfo) (gone : Option Nat) (new : Option (Nat × Nat × Nat)) (d : Nat)
    (cs cs' : List Nat) (k : Nat) : Prop
  | kept : k < s.rowLength cs → Alike (s.slotAt cs k).raw (s'.slotAt cs' k).raw →
      (s.Existing cs k → IsEntry (s.slotAt cs k).raw →
        gone ≠ some (startCluster (s.slotAt cs k).raw)) →
      SlotStep s s' gone new d cs cs' k
  | blank : s.rowLength cs ≤ k → (s'.slotAt cs' k).raw 0 = 0 → SlotStep s s' gone new d cs cs' k
  | struck : (s'.slotAt cs' k).raw 0 ≠ 0 →
      (s'.slotAt cs' k).raw 0 = 0xE5 ∨ (s'.slotAt cs' k).raw 11 = attrLfn →
      (∀ i, i < k → (s'.slotAt cs' i).raw 0 ≠ 0) → SlotStep s s' gone new d cs cs' k
  | filed : new = some (d, k, startCluster (s'.slotAt cs' k).raw) →
      (s'.slotAt cs' k).raw 0 ≠ 0 → (s'.slotAt cs' k).raw 0 ≠ dot →
      (s'.slotAt cs' k).raw 11 &&& attrVolumeId = 0 →
      (∀ i, i < k → (s'.slotAt cs' i).raw 0 ≠ 0) → SlotStep s s' gone new d cs cs' k

/-- What a call may do: free the chain of `gone`, link the free clusters `more c` behind the chain
of `c`, and file the entry `new` of a free cluster; a directory it makes has "." and ".."
only. -/
structure Revision (s s' : SbInfo) (root : Nat) (gone : Option Nat) (more : Nat → List Nat)
    (new : Option (Nat × Nat × Nat)) : Prop where
  same : SameShape s s'
  stays : gone ≠ some root
  chains : ∀ {o c cs}, Names s root o c → gone ≠ some c → Directory s c cs →
    Directory s' c (cs ++ more c)
  fresh : ∀ {c x}, x ∈ more c → s.getCluster x = clusterFree
  split : ∀ {c c' x}, x ∈ more c → x ∈ more c' → c = c'
  slots : ∀ {d p cs}, Reach s root d p → gone ≠ some d → Directory s d cs →
    ∀ k, k < s.rowLength (cs ++ more d) → SlotStep s s' gone new d cs (cs ++ more d) k
  heads : ∀ {d p cs}, Reach s root d p → gone ≠ some d → Directory s d cs →
    (s'.slotAt (cs ++ more d) 1).raw 0 = dot → (s'.slotAt (cs ++ more d) 0).raw 11 = attrLfn →
    (s.slotAt cs 0).raw 11 = attrLfn
  newFree : ∀ {d k c}, new = some (d, k, c) → s.getCluster c = clusterFree ∧ ∀ c', c ∉ more c'
  newChain : ∀ {d k c}, new = some (d, k, c) → Directory s' c [c]
  newRow : ∀ {d k c raw}, new = some (d, k, c) → Lists s' d k raw → isDirectory raw = true →
    ∀ j, j < s'.rowLength [c] →
      (j < 2 → (s'.slotAt [c] j).raw 0 = dot ∧ (s'.slotAt [c] j).raw 11 = attrDirectory ∧
        Dotted s' [c] c d j) ∧
      (2 ≤ j → (s'.slotAt [c] j).raw 0 = 0)

lemma SbInfo.Existing.nonzero (existing : s.Existing cs k) : (s.slotAt cs k).raw 0 ≠ 0 :=
  (Slot.used_iff.mp existing.2.1).1

lemma SbInfo.Existing.not_deleted (existing : s.Existing cs k) :
    (s.slotAt cs k).raw 0 ≠ 0xE5 := (Slot.used_iff.mp existing.2.1).2

variable {gone : Option Nat} {more : Nat → List Nat} {new : Option (Nat × Nat × Nat)}
  {cs' : List Nat}

lemma SlotStep.of_existing (step : SlotStep s s' gone new d cs cs' k) (row : Orderly s cs d p)
    (existing : s'.Existing cs' k) (short : (s'.slotAt cs' k).raw 11 ≠ attrLfn) :
    (s.Existing cs k ∧ Alike (s.slotAt cs k).raw (s'.slotAt cs' k).raw ∧
      (IsEntry (s.slotAt cs k).raw → gone ≠ some (startCluster (s.slotAt cs k).raw))) ∨
      new = some (d, k, startCluster (s'.slotAt cs' k).raw) ∧ (s'.slotAt cs' k).raw 0 ≠ dot ∧
        (s'.slotAt cs' k).raw 11 &&& attrVolumeId = 0 := by
  cases step with
  | kept inside alike spared =>
    have same := alike 0 (by decide)
    have used := existing.2.1
    rw [Slot.isFree, same] at used
    have before : s.Existing cs k := ⟨inside, used, fun j earlier zero =>
      existing.nonzero (same.trans (row.ended earlier inside zero))⟩
    exact .inl ⟨before, alike, spared before⟩
  | blank _ zero => exact absurd zero (existing.nonzero)
  | struck _ gone _ =>
    rcases gone with deleted | long
    · exact absurd deleted (existing.not_deleted)
    · exact absurd long short
  | filed filed _ proper named _ => exact .inr ⟨filed, proper, named⟩

namespace Revision

variable (rev : Revision s s' root gone more new) (old : Consistent s root)
include rev old

lemma row (reach : Reach s root d p) (stays : gone ≠ some d)
    (dir' : Directory s' d cs') : ∃ cs, Directory s d cs ∧ cs' = cs ++ more d := by
  obtain ⟨cs, dir⟩ := old.sound.directory reach
  obtain ⟨o, named⟩ := reach.names
  exact ⟨cs, dir, dir'.unique (rev.chains named stays dir)⟩

lemma lists_cases (reach : Reach s root d p) (stays : gone ≠ some d) (lists : Lists s' d k raw') :
    (∃ raw, Lists s d k raw ∧ Alike raw raw' ∧ gone ≠ some (startCluster raw)) ∨
      new = some (d, k, startCluster raw') := by
  obtain ⟨cs', dir', existing, rfl, entry⟩ := lists
  obtain ⟨cs, dir, rfl⟩ := rev.row old reach stays dir'
  have inside := existing.1
  rw [rev.same.rowLength] at inside
  rcases (rev.slots reach stays dir k inside).of_existing (old.rows reach dir) existing
    entry.short with ⟨before, alike, spared⟩ | ⟨filed, _⟩
  · have was := alike.isEntry entry
    exact .inl ⟨_, ⟨cs, dir, before, rfl, was⟩, alike, spared was⟩
  · exact .inr filed

omit old in
lemma new_empty (filed : new = some (d, k, c)) (lists : Lists s' d k raw)
    (isDir : isDirectory raw = true) {k' : Nat} : ¬ Lists s' c k' raw' := by
  rintro ⟨cs', dir', existing, rfl, entry⟩
  obtain rfl := dir'.unique (rev.newChain filed)
  obtain ⟨dots, rest⟩ := rev.newRow filed lists isDir k' existing.1
  rcases lt_or_ge k' 2 with early | late
  · exact entry.proper (dots early).1
  · exact existing.nonzero (rest late)

lemma reach_cases (reach : Reach s' root d p) : Reach s root d p ∧ gone ≠ some d ∨
      ∃ k raw, new = some (p, k, d) ∧ Lists s' p k raw ∧ isDirectory raw = true := by
  induction reach with
  | root => exact .inl ⟨.root, rev.stays⟩
  | child _ lists isDir ih =>
    rcases ih with ⟨reach, stays⟩ | ⟨_, _, filed, above, isAbove⟩
    · rcases rev.lists_cases old reach stays lists with ⟨raw, before, alike, spared⟩ | filed
      · rw [alike.startCluster]
        rw [alike.isDirectory] at isDir
        exact .inl ⟨.child reach before isDir, spared⟩
      · exact .inr ⟨_, _, filed, lists, isDir⟩
    · exact absurd lists (rev.new_empty filed above isAbove)

lemma entry_cases (reach : Reach s' root d p) (lists : Lists s' d k raw') :
    (∃ raw, Reach s root d p ∧ Lists s d k raw ∧ Alike raw raw' ∧
      gone ≠ some (startCluster raw)) ∨ new = some (d, k, startCluster raw') := by
  rcases rev.reach_cases old reach with ⟨reach, stays⟩ | ⟨_, _, filed, above, isAbove⟩
  · rcases rev.lists_cases old reach stays lists with ⟨raw, before, alike, spared⟩ | filed
    · exact .inl ⟨raw, reach, before, alike, spared⟩
    · exact .inr filed
  · exact absurd lists (rev.new_empty filed above isAbove)

variable {o : Option (Nat × Nat)}

lemma names_cases (names : Names s' root o c) :
    Names s root o c ∧ gone ≠ some c ∨ ∃ d k, o = some (d, k) ∧ new = some (d, k, c) := by
  cases names with
  | root => exact .inl ⟨.root, rev.stays⟩
  | entry reach lists =>
    rcases rev.entry_cases old reach lists with ⟨raw, reach, before, alike, spared⟩ | filed
    · rw [alike.startCluster]
      exact .inl ⟨.entry reach before, spared⟩
    · exact .inr ⟨_, _, rfl, filed⟩

lemma chain_cases (names : Names s root o c) (stays : gone ≠ some c) (dir' : Directory s' c cs') :
    ∃ cs, Directory s c cs ∧ cs' = cs ++ more c := by
  obtain ⟨cs, dir⟩ := old.sound.chain names dir'.first_inside.1
  exact ⟨cs, dir, dir'.unique (rev.chains names stays dir)⟩

lemma new_foreign (names : Names s root o c) (stays : gone ≠ some c) (dir' : Directory s' c cs')
    (filed : new = some (d, k, c')) : c' ∉ cs' := by
  obtain ⟨cs, dir, rfl⟩ := rev.chain_cases old names stays dir'
  obtain ⟨free, none⟩ := rev.newFree filed
  intro mem
  rcases mem_append.mp mem with early | late
  · exact dir.used c' early free
  · exact none c late

lemma sound : Sound s' root := by
  refine ⟨?_, fun reach lists some => ?_, fun _ dir => dir.used, ?_⟩
  · obtain ⟨cs, dir⟩ := old.sound.rooted
    exact ⟨_, rev.chains .root rev.stays dir⟩
  · rcases rev.entry_cases old reach lists with ⟨raw, reach, before, alike, spared⟩ | filed
    · rw [alike.startCluster, alike.isDirectory] at some
      obtain ⟨cs, dir⟩ := old.sound.chains reach before some
      rw [alike.startCluster]
      exact ⟨_, rev.chains (.entry reach before) spared dir⟩
    · exact ⟨_, rev.newChain filed⟩
  · intro o o' c c' cs cs' x names names' dir dir' mem mem'
    rcases rev.names_cases old names with ⟨before, stays⟩ | ⟨d, k, rfl, filed⟩
    · rcases rev.names_cases old names' with ⟨before', stays'⟩ | ⟨d, k, rfl, filed⟩
      · obtain ⟨ds, oldDir, rfl⟩ := rev.chain_cases old before stays dir
        obtain ⟨ds', oldDir', rfl⟩ := rev.chain_cases old before' stays' dir'
        rcases mem_append.mp mem with early | late
        · rcases mem_append.mp mem' with early' | late'
          · exact old.sound.apart before before' oldDir oldDir' early early'
          · exact absurd (rev.fresh late') (oldDir.used x early)
        · rcases mem_append.mp mem' with early' | late'
          · exact absurd (rev.fresh late) (oldDir'.used x early')
          · cases rev.split late late'
            exact old.sound.name_unique before before' oldDir
      · obtain rfl := dir'.unique (rev.newChain filed)
        rw [mem_singleton.mp mem'] at mem
        exact absurd mem (rev.new_foreign old before stays dir filed)
    · obtain rfl := dir.unique (rev.newChain filed)
      rw [mem_singleton.mp mem] at mem'
      rcases rev.names_cases old names' with ⟨before', stays'⟩ | ⟨d', k', rfl, filed'⟩
      · exact absurd mem' (rev.new_foreign old before' stays' dir' filed)
      · cases filed.symm.trans filed'
        rfl

lemma orderly (reach : Reach s root d p) (stays : gone ≠ some d) (dir : Directory s d cs) :
    Orderly s' (cs ++ more d) d p := by
  have row := old.rows reach dir
  have slots : ∀ k, k < s'.rowLength (cs ++ more d) →
      SlotStep s s' gone new d cs (cs ++ more d) k := by
    intro k inside
    rw [rev.same.rowLength] at inside
    exact rev.slots reach stays dir k inside
  refine ⟨fun {i j} less inside zero => ?_, fun {k} existing short label => ?_,
    fun {k} existing short named dotted => ?_⟩
  · cases slots j inside with
    | kept insideJ alike _ =>
      rw [alike 0 (by decide)]
      apply row.ended less insideJ
      cases slots i (less.trans inside) with
      | kept _ alike _ => rw [← alike 0 (by decide), zero]
      | blank behind _ => omega
      | struck some _ _ => exact absurd zero some
      | filed _ some _ _ _ => exact absurd zero some
    | blank _ zero => exact zero
    | struck _ _ before => exact absurd zero (before i less)
    | filed _ _ _ _ before => exact absurd zero (before i less)
  · rcases (slots k existing.1).of_existing row existing short with
      ⟨before, alike, _⟩ | ⟨_, _, none⟩
    · rw [alike.startCluster]
      rw [alike 11 (by decide)] at short label
      exact row.labels before short label
    · exact absurd none label
  · rcases (slots k existing.1).of_existing row existing short with
      ⟨before, alike, _⟩ | ⟨_, proper, _⟩
    · rw [alike 11 (by decide)] at short named
      have was := row.dots before short named ((alike 0 (by decide)).symm.trans dotted)
      have name := shortNameToStr_congr fun i small => alike i (small.trans (by decide))
      refine ⟨?_, ?_, ?_, ?_⟩
      · rw [name]
        exact was.name
      · rw [alike.isDirectory]
        exact was.isDir
      · rw [alike.startCluster]
        exact was.target
      · rcases was.place with rfl | ⟨rfl, first⟩
        · exact .inl rfl
        · refine .inr ⟨rfl, fun long => first ?_⟩
          exact rev.heads reach stays dir dotted long
    · exact absurd dotted proper

omit old in
lemma orderly_new (filed : new = some (p, k, d)) (lists : Lists s' p k raw)
    (isDir : isDirectory raw = true) : Orderly s' [d] d p := by
  have row := fun {j} inside => rev.newRow filed lists isDir j inside
  have early : ∀ {j}, s'.Existing [d] j → (s'.slotAt [d] j).raw 0 = dot ∧
      (s'.slotAt [d] j).raw 11 = attrDirectory ∧ Dotted s' [d] d p j := by
    intro j existing
    obtain ⟨dots, rest⟩ := row existing.1
    rcases lt_or_ge j 2 with first | behind
    · exact dots first
    · exact absurd (rest behind) (existing.nonzero)
  refine ⟨fun {i j} less inside zero => ?_, fun {j} existing _ label => ?_,
    fun {j} existing _ _ _ => (early existing).2.2⟩
  · obtain ⟨dots, _⟩ := row (less.trans inside)
    obtain ⟨_, rest⟩ := row inside
    apply rest
    by_contra small
    have first := (dots (by omega)).1
    rw [zero] at first
    exact absurd first (by decide)
  · rw [(early existing).2.1] at label
    exact absurd rfl label

lemma consistent : Consistent s' root := by
  refine ⟨old.geometry.of_same rev.same, ?_, rev.sound old, fun {d p cs'} reach dir' => ?_⟩
  · rw [rev.same.bytesPerSector]
    exact old.sector
  · rcases rev.reach_cases old reach with ⟨reach, stays⟩ | ⟨k, raw, filed, lists, isDir⟩
    · obtain ⟨cs, dir, rfl⟩ := rev.row old reach stays dir'
      exact rev.orderly old reach stays dir
    · obtain rfl := dir'.unique (rev.newChain filed)
      exact rev.orderly_new filed lists isDir

end Revision

end AuroraOS.Fat32
