import AuroraOS.Fat32.Slots

/-!
# What creating an entry does to the entries there are

`fat32_find_free_slot` finds one free entry and `fat32_write_lfn` writes all entries of the new name
from there on, whether or not the entries behind the free one are in use.
-/

namespace AuroraOS.Fat32

open Lib Block SbInfo Function List Option

variable {s t s' mid : SbInfo} {cs cs' more : List Nat} {c c0 d k fuel : Nat} {name : Name}
  {own : Store}

/-! ## Preparing the place -/

lemma slotAt_congr (same : SameShape s t) (data : ∀ c ∈ cs, t.clusterData c = s.clusterData c)
    (inside : k < s.rowLength cs) : t.slotAt cs k = s.slotAt cs k := by
  have bound := div_lt_length inside
  simp only [SbInfo.slotAt, same.entriesPerCluster, getD_eq_getElem?_getD,
    getElem?_eq_getElem bound, getD_some, data _ (getElem_mem bound)]

lemma firstFree_congr (same : SameShape s t)
    (data : ∀ c ∈ cs, t.clusterData c = s.clusterData c) : t.firstFree cs = s.firstFree cs := by
  have rows : t.dirSlots cs = s.dirSlots cs := by
    rw [SbInfo.dirSlots, SbInfo.dirSlots, same.rowLength]
    apply map_congr_left
    intro k mem
    exact slotAt_congr same data (mem_range.mp mem)
  rw [SbInfo.firstFree, SbInfo.firstFree, rows]

structure Spares (s t : SbInfo) : Prop where
  same : SameShape s t
  fat : ∀ c, s.InVolume c → s.getCluster c ≠ clusterFree → t.getCluster c = s.getCluster c
  data : ∀ c, s.InVolume c → s.getCluster c ≠ clusterFree → t.clusterData c = s.clusterData c
  free : ∀ c, s.InVolume c → t.getCluster c = clusterFree → s.getCluster c = clusterFree

lemma Spares.directory (spares : Spares s t) (dir : Directory s d cs) : Directory t d cs :=
  dir.congr spares.same fun c mem => spares.fat c (dir.inside c mem) (dir.used c mem)

lemma Spares.firstFree (spares : Spares s t) (dir : Directory s d cs) :
    t.firstFree cs = s.firstFree cs :=
  firstFree_congr spares.same fun c mem =>
    spares.data c (dir.inside c mem) (dir.used c mem)

/-! ## A marked cluster -/

/-- The free cluster `c0` is marked as the end of a chain and holds the bytes `own`. -/
structure Marked (s t : SbInfo) (c0 : Nat) (own : Store) : Prop where
  same : SameShape s t
  inside : s.InVolume c0
  free : s.getCluster c0 = clusterFree
  fat : ∀ {c}, s.InVolume c → t.getCluster c = if c = c0 then clusterEocMax else s.getCluster c
  data : ∀ {c}, s.InVolume c → t.clusterData c = if c = c0 then own else s.clusterData c

lemma marked_findFreeCluster (g : Geometry s) (found : s.findFreeCluster.2 ≠ 0) :
    Marked s s.findFreeCluster.1 s.findFreeCluster.2 (s.clusterData s.findFreeCluster.2) := by
  have ⟨inside, free, _⟩ := findFreeCluster_spec g found
  have left := findFreeCluster_leaves g found
  refine ⟨left.same, inside, free, fun {c} insideC => ?_, fun {c} insideC => ?_⟩
  · rw [left.fat c insideC, update_apply]
  · rw [left.data c insideC]
    split
    case isTrue here => rw [here]
    case isFalse => rfl

namespace Marked

variable (marked : Marked s t c0 own)
include marked

lemma wrote (g : Geometry s) (buf : Store) : Marked s (t.wrote c0 buf) c0 (s.clip buf) := by
  have left := wrote_leaves (g.of_same marked.same) (marked.inside.of_same marked.same) buf
  refine ⟨marked.same.trans left.same, marked.inside, marked.free, fun {c} inside => ?_,
    fun {c} inside => ?_⟩
  · rw [left.fat c (inside.of_same marked.same), marked.fat inside]
  rw [left.data c (inside.of_same marked.same), update_apply]
  split
  case isTrue here =>
    funext b
    rw [SbInfo.clip, SbInfo.clip, marked.same.clusterSize]
  case isFalse other => rw [marked.data inside, if_neg other]

lemma spares : Spares s t := by
  have other : ∀ {c}, s.getCluster c ≠ clusterFree → c ≠ c0 := fun used same =>
    used (same ▸ marked.free)
  refine ⟨marked.same, fun c inside used => ?_, fun c inside used => ?_, fun c inside free => ?_⟩
  · rw [marked.fat inside, if_neg (other used)]
  · rw [marked.data inside, if_neg (other used)]
  · rw [marked.fat inside] at free
    split at free
    · cases free
    · exact free

end Marked

/-- A place in the directory: the clusters `more` are linked behind its chain and zeroed. -/
structure Placed (s t : SbInfo) (d c0 : Nat) (cs more : List Nat) (own : Store) : Prop where
  same : SameShape s t
  chain : Directory t d (cs ++ more)
  fresh : ∀ {m}, m ∈ more → s.getCluster m = clusterFree ∧ m ≠ c0
  fat : ∀ {c}, s.InVolume c → c ∉ cs ++ more →
    t.getCluster c = if c = c0 then clusterEocMax else s.getCluster c
  data : ∀ {c}, s.InVolume c → c ∉ more →
    t.clusterData c = if c = c0 then own else s.clusterData c
  blank : ∀ {m}, m ∈ more → ∀ b, t.clusterData m b = 0

lemma Marked.placed (marked : Marked s t c0 own) (dir : Directory s d cs) :
    Placed s t d c0 cs [] own := by
  refine ⟨marked.same, ?_, nofun, fun inside _ => marked.fat inside,
    fun inside _ => marked.data inside, nofun⟩
  rw [append_nil]
  exact marked.spares.directory dir

lemma Marked.append (g : Geometry s) (marked : Marked s t c0 own) (dir : Directory s d cs)
    {m off : Nat} (done : t.appendSlot (cs.getLastD 0) = (mid, .ok (m, off))) :
    Placed s mid d c0 cs [m] own ∧ off = 0 := by
  have gt := g.of_same marked.same
  have dirT := marked.spares.directory dir
  have ⟨zero, insideT, freeT, left⟩ := appendSlot_leaves gt (dirT.inside _ dir.getLastD_mem) done
  have insideM : s.InVolume m := by
    unfold SbInfo.InVolume at insideT ⊢
    rwa [marked.same.totalClusters] at insideT
  have other : m ≠ c0 := by
    rintro rfl
    rw [marked.fat insideM, if_pos rfl] at freeT
    cases freeT
  rw [marked.fat insideM, if_neg other] at freeT
  refine ⟨⟨marked.same.trans left.same, ?_, fun mem => ?_, fun {c} inside outside => ?_,
    fun {c} inside outside => ?_, fun mem b => ?_⟩, zero⟩
  · refine dirT.append gt insideT ?_ left
    rw [marked.fat insideM, if_neg other, freeT]
  · rw [mem_singleton.mp mem]
    exact ⟨freeT, other⟩
  · have notLast : c ≠ cs.getLastD 0 := fun same =>
      outside (mem_append_left _ (same ▸ dir.getLastD_mem))
    have notNew : c ≠ m := fun same =>
      outside (mem_append_right _ (mem_singleton.mpr same))
    rw [left.fat c (inside.of_same marked.same), update_of_ne notLast,
      update_of_ne notNew, marked.fat inside]
  · have notNew : c ≠ m := fun same => outside (mem_singleton.mpr same)
    rw [left.data c (inside.of_same marked.same), update_of_ne notNew, marked.data inside]
  · rw [mem_singleton.mp mem, left.data m insideT, update_self, SbInfo.clip, ite_self]

lemma Marked.findFreeSlot (g : Geometry s) (marked : Marked s t c0 own) (dir : Directory s d cs)
    {r : Except Errno (Nat × Nat)} (done : t.findFreeSlot fuel d = some (mid, r)) :
    (∃ e, r = .error e ∧ mid = t) ∨
      ∃ more, (more = [] ∨ s.firstFree cs = s.rowLength cs ∧ ∃ m, more = [m]) ∧
        Placed s mid d c0 cs more own ∧ s.firstFree cs < s.rowLength (cs ++ more) ∧
        r = .ok ((cs ++ more).getD (s.firstFree cs / s.entriesPerCluster) 0,
          s.firstFree cs % s.entriesPerCluster * 32) := by
  have positive := entriesPerCluster_pos g
  have value := findFreeSlot_eq (g.of_same marked.same) (marked.spares.directory dir) done
  rw [marked.spares.firstFree dir, marked.same.rowLength, marked.same.entriesPerCluster] at value
  rcases value with ⟨less, found⟩ | ⟨none, appended⟩
  · cases found
    refine .inr ⟨[], .inl rfl, marked.placed dir, ?_, ?_⟩
    · rwa [append_nil]
    · rw [append_nil]
  · cases r with
    | error e =>
      refine .inl ⟨e, rfl, ?_⟩
      rw [SbInfo.appendSlot] at appended
      by_cases empty : t.findFreeCluster.2 = 0
      · rw [if_pos (appendCluster_none empty), SbInfo.appendCluster, if_pos empty] at appended
        cases appended
        exact findFreeCluster_none empty
      have gt := g.of_same marked.same
      have last := (marked.spares.directory dir).inside _ dir.getLastD_mem
      obtain ⟨new, left⟩ := appendCluster_leaves gt last empty
      have inside := (findFreeCluster_spec gt empty).1
      rw [new, if_neg empty, writeCluster_eq (gt.of_same left.same)
        (inside.of_same left.same)] at appended
      cases appended
    | ok place =>
      obtain ⟨m, off⟩ := place
      obtain ⟨placed, zero⟩ := marked.append g dir appended.symm
      refine .inr ⟨[m], .inr ⟨none, m, rfl⟩, placed, ?_, ?_⟩
      · rw [none, SbInfo.rowLength, SbInfo.rowLength, length_append, add_mul]
        simpa using positive
      · rw [none, SbInfo.rowLength, Nat.mul_div_cancel _ positive, Nat.mul_mod_left, zero]
        simp

/-- The directory may have a new cluster, and no other cluster in use is changed. -/
structure Extended (s mid : SbInfo) (d : Nat) (cs cs' : List Nat) : Prop where
  same : SameShape s mid
  chain : Directory mid d cs'
  clusters : cs' = cs ∨ ∃ m, cs' = cs ++ [m] ∧ s.getCluster m = clusterFree
  fat : ∀ c, s.InVolume c → s.getCluster c ≠ clusterFree → c ∉ cs →
    mid.getCluster c = s.getCluster c
  data : ∀ c, s.InVolume c → s.getCluster c ≠ clusterFree → mid.clusterData c = s.clusterData c

lemma Placed.extended (free : s.getCluster c0 = clusterFree)
    (placed : Placed s mid d c0 cs more own)
    (few : more = [] ∨ s.firstFree cs = s.rowLength cs ∧ ∃ m, more = [m]) :
    Extended s mid d cs (cs ++ more) ∧ (cs ++ more = cs ∨ s.firstFree cs = s.rowLength cs) := by
  have other : ∀ {c}, s.getCluster c ≠ clusterFree → c ≠ c0 ∧ c ∉ more := fun used =>
    ⟨fun same => used (same ▸ free), fun new => used (placed.fresh new).1⟩
  refine ⟨⟨placed.same, placed.chain, ?_, fun c inside used foreign => ?_,
    fun c inside used => ?_⟩, ?_⟩
  · rcases few with rfl | ⟨_, m, rfl⟩
    · exact .inl (append_nil cs)
    · exact .inr ⟨m, rfl, (placed.fresh (mem_singleton_self m)).1⟩
  · rw [placed.fat inside, if_neg (other used).1]
    exact mem_append.not.mpr (not_or.mpr ⟨foreign, (other used).2⟩)
  · rw [placed.data inside (other used).2, if_neg (other used).1]
  · rcases few with rfl | ⟨none, _⟩
    · exact .inl (append_nil cs)
    · exact .inr none

/-! ## The two ways to create an entry -/

inductive DirOp
  | create
  | mkdir
  deriving DecidableEq, Repr

def DirOp.run (op : DirOp) (s : SbInfo) (d : Nat) (name : Name) (fuel : Nat) :
    Option (SbInfo × Except Errno Unit) :=
  match op with
  | .create => dirCreate s ⟨d, true⟩ name fuel
  | .mkdir => s.mkdir d name fuel

def DirOp.attr : DirOp → UInt8
  | .create => attrArchive
  | .mkdir => attrDirectory

/-- The first place written: the first free entry, or for `fat32_mkdir` the entry at the same
offset in the first cluster. -/
def DirOp.start (op : DirOp) (s : SbInfo) (cs : List Nat) : Nat :=
  match op with
  | .create => s.firstFree cs
  | .mkdir => s.firstFree cs % s.entriesPerCluster

lemma mem_of_clusters (extended : Extended s mid d cs cs') (inside : c ∈ cs') :
    c ∈ cs ∨ s.getCluster c = clusterFree := by
  rcases extended.clusters with rfl | ⟨m, rfl, free⟩
  · exact .inl inside
  · rcases mem_append.mp inside with old | new
    · exact .inl old
    · rw [mem_singleton.mp new]
      exact .inr free

structure Creation (op : DirOp) (s s' : SbInfo) (d : Nat) (name : Name) (cs cs' : List Nat)
    (mid : SbInfo) : Prop where
  extended : Extended s mid d cs cs'
  appended : cs' = cs ∨ s.firstFree cs = s.rowLength cs
  written : Written mid s' cs' (op.start s cs) (lfnEntries name + 1)
    (builtEntry name op.attr s.findFreeCluster.2 0)
  named : 0 < name.length
  short : lfnEntries name ≤ 20

lemma Directory.inFirst (g : Geometry s) (dir : Directory s d cs) (k : Nat) :
    k % s.entriesPerCluster < s.rowLength cs ∧
      cs.getD (k % s.entriesPerCluster / s.entriesPerCluster) 0 = d ∧
      k % s.entriesPerCluster % s.entriesPerCluster = k % s.entriesPerCluster := by
  have small := Nat.mod_lt k (entriesPerCluster_pos g)
  obtain ⟨rest, shape, _⟩ := dir.cases
  refine ⟨?_, ?_, Nat.mod_mod ..⟩
  · rw [SbInfo.rowLength, shape, length_cons, Nat.succ_mul]
    omega
  · rw [Nat.div_eq_of_lt small, shape]
    rfl

variable {fuel : Nat}

/-- What creating an entry comes to: nothing is changed, a free cluster is marked and given back, or
the entries of the name are written and the cluster is given back if they do not fit. -/
inductive DirOp.Attempt (op : DirOp) (s s' : SbInfo) (d : Nat) (name : Name) (cs : List Nat)
    (fuel : Nat) (r : Except Errno Unit) : Prop
  | nothing : s' = s → r ≠ .ok () → Attempt op s s' d name cs fuel r
  | dropped {t : SbInfo} {own : Store} {e : Errno} : Marked s t s.findFreeCluster.2 own →
      t.giveBack fuel s.findFreeCluster.2 e = some (s', r) → Attempt op s s' d name cs fuel r
  | wrote {mid t : SbInfo} {own : Store} {more : List Nat} {result : Except Errno Unit} :
      s.InVolume s.findFreeCluster.2 → s.getCluster s.findFreeCluster.2 = clusterFree →
      Placed s mid d s.findFreeCluster.2 cs more own →
      (more = [] ∨ s.firstFree cs = s.rowLength cs ∧ ∃ m, more = [m]) →
      (op.attr &&& attrDirectory ≠ 0 → own = s.clip (dotEntries s.findFreeCluster.2 d)) →
      op.start s cs < mid.rowLength (cs ++ more) →
      mid.writeLfn ((cs ++ more).getD (op.start s cs / mid.entriesPerCluster) 0)
        (op.start s cs % mid.entriesPerCluster * 32) name op.attr s.findFreeCluster.2 0 fuel =
          some (t, result) →
      (result = .ok () ∧ (t, result) = (s', r) ∨
        ∃ e, result = .error e ∧ t.giveBack fuel s.findFreeCluster.2 e = some (s', r)) →
      Attempt op s s' d name cs fuel r

variable {op : DirOp} {r : Except Errno Unit}

section Attempt

variable (g : Geometry s) (dir : Directory s d cs)
include g dir

lemma Marked.attempt (marked : Marked s t s.findFreeCluster.2 own)
    (dots : op.attr &&& attrDirectory ≠ 0 → own = s.clip (dotEntries s.findFreeCluster.2 d))
    (done : ((t.findFreeSlot fuel d).bind fun (mid, slot) => match slot with
      | .error e => mid.giveBack fuel s.findFreeCluster.2 e
      | .ok (target, offset) =>
        (mid.writeLfn (if op = .create then target else d) offset name op.attr
          s.findFreeCluster.2 0 fuel).bind fun (t, result) => match result with
            | .error e => t.giveBack fuel s.findFreeCluster.2 e
            | .ok () => some (t, .ok ())) = some (s', r)) :
    op.Attempt s s' d name cs fuel r := by
  obtain ⟨⟨mid, slot⟩, searched, rest⟩ := bind_eq_some_iff.mp done
  rcases marked.findFreeSlot g dir searched with ⟨e, rfl, rfl⟩ | ⟨more, few, placed, less, rfl⟩
  · exact .dropped marked rest
  obtain ⟨⟨t, result⟩, wrote, last⟩ := bind_eq_some_iff.mp rest
  rw [← placed.same.rowLength] at less
  rw [← placed.same.entriesPerCluster] at wrote
  have ends : result = .ok () ∧ (t, result) = (s', r) ∨
      ∃ e, result = .error e ∧ t.giveBack fuel s.findFreeCluster.2 e = some (s', r) := by
    cases result with
    | ok u => exact .inl ⟨rfl, some.inj last⟩
    | error e => exact .inr ⟨e, rfl, last⟩
  cases op with
  | create => exact .wrote marked.inside marked.free placed few dots less wrote ends
  | mkdir =>
    obtain ⟨less, start, offset⟩ :=
      placed.chain.inFirst (g.of_same placed.same) (s.firstFree cs)
    rw [if_neg nofun, ← offset, ← start] at wrote
    rw [placed.same.entriesPerCluster] at less wrote
    exact .wrote marked.inside marked.free placed few dots less
      (by rw [placed.same.entriesPerCluster]; exact wrote) ends

lemma DirOp.attempt (op : DirOp) (done : op.run s d name fuel = some (s', r)) :
    op.Attempt s s' d name cs fuel r := by
  cases op with
  | create =>
    obtain ⟨existing, _, done⟩ := bind_eq_some_iff.mp
      (show dirCreate s ⟨d, true⟩ name fuel = some (s', r) from done)
    cases existing with
    | ok f =>
      cases done
      exact .nothing rfl nofun
    | error e =>
      by_cases none : s.findFreeCluster.2 = 0
      · rw [if_pos none, findFreeCluster_none none] at done
        cases done
        exact .nothing rfl nofun
      · rw [if_neg none] at done
        exact (marked_findFreeCluster g none).attempt g dir (fun isDir => absurd rfl isDir) done
  | mkdir =>
    rw [DirOp.run, SbInfo.mkdir] at done
    by_cases none : s.findFreeCluster.2 = 0
    · rw [if_pos none, findFreeCluster_none none] at done
      cases done
      exact .nothing rfl nofun
    · have marked := marked_findFreeCluster g none
      rw [if_neg none, writeCluster_eq (g.of_same marked.same)
        (marked.inside.of_same marked.same)] at done
      exact (marked.wrote g (dotEntries s.findFreeCluster.2 d)).attempt g dir (fun _ => rfl) done

lemma DirOp.creation (op : DirOp) (done : op.run s d name fuel = some (s', .ok ())) :
    ∃ cs' mid, Creation op s s' d name cs cs' mid := by
  have failed : ∀ {t c e}, giveBack t fuel c e ≠ some (s', .ok ()) := by
    intro t c e gave
    obtain ⟨_, _, ⟨⟩⟩ := map_eq_some_iff.mp gave
  cases op.attempt g dir done with
  | nothing _ error => exact absurd rfl error
  | dropped _ gave => exact absurd gave failed
  | wrote _ free placed few _ less wrote ends =>
    rcases ends with ⟨rfl, same⟩ | ⟨_, _, gave⟩
    · cases same
      obtain ⟨extended, appended⟩ := placed.extended free few
      obtain ⟨written, named, short⟩ :=
        writeLfn_written (g.of_same placed.same) placed.chain less wrote
      exact ⟨_, _, extended, appended, written, named, short⟩
    · exact absurd gave failed

end Attempt

lemma dirCreate_absent (done : dirCreate s ⟨d, true⟩ name fuel = some (s', .ok ())) :
    ∃ e, s.findEntry d name fuel = some (.error e) := by
  obtain ⟨existing, looked, done⟩ := bind_eq_some_iff.mp done
  cases existing with
  | ok f => cases done
  | error e => exact ⟨e, looked⟩

/-! ## The entries there are -/

/-- Entry `k` of a directory is in use: it is not free, and no entry before it marks the end. -/
def SbInfo.Existing (s : SbInfo) (cs : List Nat) (k : Nat) : Prop :=
  k < s.rowLength cs ∧ (s.slotAt cs k).isFree = false ∧ ∀ j, j < k → (s.slotAt cs j).raw 0 ≠ 0

/-- A volume and the first clusters of its directories, no two of which share a cluster. -/
structure Volume (s : SbInfo) (dirs : Set Nat) : Prop where
  geometry : Geometry s
  directory : ∀ d ∈ dirs, ∃ cs, Directory s d cs
  apart : ∀ d ∈ dirs, ∀ d' ∈ dirs, d ≠ d' → ∀ cs cs', Directory s d cs → Directory s d' cs' →
    ∀ c ∈ cs, c ∉ cs'

/-- Every directory keeps its clusters, and every entry in use its bytes. -/
def KeepsEntries (s s' : SbInfo) (dirs : Set Nat) : Prop :=
  ∀ d ∈ dirs, ∀ cs, Directory s d cs →
    (∃ more, Directory s' d (cs ++ more)) ∧
      ∀ k, s.Existing cs k → ∀ b, b < 32 → (s'.slotAt cs k).raw b = (s.slotAt cs k).raw b

lemma slotAt_append {more : List Nat} (inside : k < s.rowLength cs) :
    s.slotAt (cs ++ more) k = s.slotAt cs k := by
  simp only [SbInfo.slotAt, getD_eq_getElem?_getD, getElem?_append_left (div_lt_length inside)]

variable (creation : Creation op s s' d name cs cs' mid)
include creation

lemma Creation.grown : ∃ more, cs' = cs ++ more ∧ Directory s' d (cs ++ more) := by
  have chain := creation.extended.chain.congr creation.written.same
    fun c mem => creation.written.fat c (creation.extended.chain.inside c mem)
  rcases creation.extended.clusters with rfl | ⟨m, rfl, _⟩
  · exact ⟨[], (append_nil _).symm, by rwa [append_nil]⟩
  · exact ⟨[m], rfl, chain⟩

lemma Creation.slots
    (dir : Directory s d cs) (inside : k < s.rowLength cs) {b : Nat} (small : b < 32) :
    (s'.slotAt cs k).raw b = if op.start s cs ≤ k ∧ k < op.start s cs + (lfnEntries name + 1) then
        builtEntry name op.attr s.findFreeCluster.2 0 (k - op.start s cs) b
      else (s.slotAt cs k).raw b := by
  have shape := creation.extended.same
  obtain ⟨more, clusters, _⟩ := creation.grown
  have insideMid : k < mid.rowLength cs := by rwa [shape.rowLength]
  have inside' : k < s'.rowLength cs := by rwa [creation.written.same.rowLength]
  have longer : mid.rowLength cs ≤ mid.rowLength cs' := by
    rw [clusters]
    exact Nat.mul_le_mul_right _ (by simp)
  have written := creation.written.slots k (by omega) b small
  rw [clusters, slotAt_append inside', slotAt_append insideMid] at written
  rw [written, slotAt_congr shape (fun c mem => creation.extended.data c (dir.inside c mem)
    (dir.used c mem)) inside]

lemma Creation.foreign
    {other : Nat} {ds : List Nat} (dir : Directory s other ds) (apart : ∀ c ∈ ds, c ∉ cs) :
    Directory s' other ds ∧ ∀ k, k < s.rowLength ds → s'.slotAt ds k = s.slotAt ds k := by
  have extended := creation.extended
  have written := creation.written
  have shape := extended.same.trans written.same
  have outside : ∀ c ∈ ds, c ∉ cs' := by
    intro c mem inside
    rcases mem_of_clusters extended inside with old | free
    · exact apart c mem old
    · exact dir.used c mem free
  refine ⟨dir.congr shape fun c mem => ?_, fun k inside => slotAt_congr shape
    (fun c mem => ?_) inside⟩
  · have here := dir.inside c mem
    rw [written.fat c (here.of_same extended.same),
      extended.fat c here (dir.used c mem) (apart c mem)]
  · have here := dir.inside c mem
    rw [written.others c (here.of_same extended.same) (outside c mem),
      extended.data c here (dir.used c mem)]

omit creation

/-- A successful `fat32_dir_create` or `fat32_mkdir` keeps the entries of all directories exactly
when every entry in use among the places it writes, the first free one and the next
`lfnEntries name`, has the bytes written already. -/
theorem keepsEntries_iff (op : DirOp) {dirs : Set Nat} (volume : Volume s dirs) (member : d ∈ dirs)
    (dir : Directory s d cs) {fuel : Nat}
    (done : op.run s d name fuel = some (s', .ok ())) :
    KeepsEntries s s' dirs ↔
      ∀ k, op.start s cs ≤ k → k ≤ op.start s cs + lfnEntries name → s.Existing cs k →
        ∀ b, b < 32 → (s.slotAt cs k).raw b =
          builtEntry name op.attr s.findFreeCluster.2 0 (k - op.start s cs) b := by
  obtain ⟨cs', mid, creation⟩ := op.creation volume.geometry dir done
  constructor
  · intro keeps k low high existing b small
    have kept := (keeps d member cs dir).2 k existing b small
    rw [creation.slots dir existing.1 small, if_pos ⟨low, by omega⟩] at kept
    exact kept.symm
  · intro free other memberOther ds dirOther
    by_cases here : other = d
    · subst here
      have same := dirOther.chain.unique dir.chain
      subst same
      obtain ⟨more, _, chain⟩ := creation.grown
      refine ⟨⟨more, chain⟩, fun k existing b small => ?_⟩
      rw [creation.slots dir existing.1 small]
      split
      case isTrue covered => exact (free k covered.1 (by omega) existing b small).symm
      case isFalse => rfl
    · have ⟨chain, slots⟩ := creation.foreign dirOther
        (volume.apart other memberOther d member here ds cs dirOther dir)
      refine ⟨⟨[], by rwa [append_nil]⟩, fun k existing b _ => ?_⟩
      rw [slots k existing.1]

/-! ## A small volume -/

def smallVolume (root : Store) : SbInfo where
  bdev := {
    blockSize := 512
    totalSectors := 10
    data := fun a =>
      if 520 ≤ a ∧ a < 523 then 0xFF
      else if a = 523 then 0x0F
      else if 1024 ≤ a ∧ a < 1536 then root (a - 1024)
      else 0 }
  bytesPerSector := 512
  sectorsPerCluster := 1
  numFats := 1
  sectorsPerFat := 1
  fatStart := 1
  dataStart := 2
  clusterSize := 512
  totalClusters := 8
  fatCache := none

section SmallVolume

variable (root : Store)

lemma smallVolume_geometry : Geometry (smallVolume root) := by
  constructor <;> simp [smallVolume, clusterEocMin]

lemma smallVolume_directory : Directory (smallVolume root) 2 [2] := by
  have inside : (smallVolume root).InVolume 2 := ⟨le_rfl, show 2 < 10 by decide⟩
  have entry : (smallVolume root).getCluster 2 = clusterEocMax := by
    rw [getCluster_eq (smallVolume_geometry root) inside]
    simp [smallVolume, SbInfo.fatAddr, leRead, clusterEocMax]
  refine ⟨⟨rfl, ?_⟩, fun c mem => mem_singleton.mp mem ▸ inside⟩
  rw [SbInfo.link, entry, if_pos (by decide)]
  rfl

lemma smallVolume_volume : Volume (smallVolume root) {2} := by
  refine ⟨smallVolume_geometry root, fun d mem => ⟨[2], ?_⟩, fun d mem d' mem' different => ?_⟩
  · rw [Set.mem_singleton_iff.mp mem]
    exact smallVolume_directory root
  · exact absurd (mem.trans mem'.symm) different

end SmallVolume

def deletedBetween : Store := fun a =>
  if a = 0 then 0x41 else if a = 32 then 0xE5 else if a = 64 then 0x42 else 0

/-- The entries of a new file overwrite `B`. -/
theorem create_overwrites :
    ∃ s', DirOp.create.run (smallVolume deletedBetween) 2 [0x78] 5 = some (s', .ok ()) ∧
      ¬ KeepsEntries (smallVolume deletedBetween) s' {2} := by
  have value : (DirOp.create.run (smallVolume deletedBetween) 2 [0x78] 5).any (fun r =>
      r.2.isOk && (r.1.slotAt [2] 2).raw 0 != 0x42) = true := by
    decide +kernel
  obtain ⟨⟨s', result⟩, done, lost⟩ := (any_eq_true _ _).mp value
  rw [Bool.and_eq_true, bne_iff_ne] at lost
  cases result with
  | error e => exact absurd lost.1 nofun
  | ok u =>
    refine ⟨s', done, fun keeps => lost.2 ?_⟩
    have kept := (keeps 2 rfl [2] (smallVolume_directory _)).2 2
      ⟨by decide +kernel, by decide +kernel, by decide +kernel⟩ 0 (by decide)
    exact kept.trans (by decide +kernel)

def oneEntry : Store := fun a => if a = 0 then 0x41 else 0

/-- The file `x` is made next to one entry. -/
theorem keepsEntries_iff_oneEntry :
    ∃ s', DirOp.create.run (smallVolume oneEntry) 2 [0x78] 5 = some (s', .ok ()) ∧
      KeepsEntries (smallVolume oneEntry) s' {2} := by
  have value : (DirOp.create.run (smallVolume oneEntry) 2 [0x78] 5).any (fun r => r.2.isOk) =
      true := by
    decide +kernel
  obtain ⟨⟨s', result⟩, done, fine⟩ := (any_eq_true _ _).mp value
  cases result with
  | error e => exact absurd fine nofun
  | ok u =>
    refine ⟨s', done, (keepsEntries_iff .create (smallVolume_volume _) rfl
      (smallVolume_directory _) done).mpr fun k low _ existing => ?_⟩
    have start : DirOp.create.start (smallVolume oneEntry) [2] = 1 := by decide +kernel
    -- entry 1 marks the end of the directory
    rcases Nat.eq_or_lt_of_le low with here | behind
    · exact absurd existing.2.1 (by rw [← here]; decide +kernel)
    · exact absurd (existing.2.2 1 behind) (by decide +kernel)

end AuroraOS.Fat32
