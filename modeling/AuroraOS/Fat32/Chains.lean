import AuroraOS.Fat32.Mount
import AuroraOS.Fat32.Volume

/-!
# Chains that may meet or turn back

Each entry of the FAT is free, ends a chain or names a cluster; nothing says that
chains are apart, or that they end.
-/

namespace AuroraOS.Fat32

open Lib SbInfo Function List Option Nat Relation

variable {s s' t : SbInfo} {c last v x : Nat} {gone more : Set Nat}

namespace SbInfo

def IsLink (s : SbInfo) (v : Nat) : Prop := v = clusterFree ∨ clusterEocMin ≤ v ∨ s.InVolume v

def Linked (s : SbInfo) : Prop := ∀ {c}, s.InVolume c → s.IsLink (s.getCluster c)

def Follows (s : SbInfo) (a b : Nat) : Prop := s.InVolume a ∧ s.InVolume b ∧ s.getCluster a = b

def Reaches (s : SbInfo) : Nat → Nat → Prop := ReflTransGen s.Follows

end SbInfo

lemma SbInfo.InVolume.before (inside : s'.InVolume c) (same : SameShape s s') : s.InVolume c := by
  rwa [InVolume, same.totalClusters] at inside

lemma SbInfo.IsLink.of_same (link : s.IsLink v) (same : SameShape s s') : s'.IsLink v :=
  link.imp_right fun rest => rest.imp_right fun inside => inside.of_same same

lemma SbInfo.Linked.set (linked : s.Linked) (g : Geometry s) (inside : s.InVolume c)
    (link : s.IsLink (v % 2 ^ 28)) : (s.setCluster c v).1.Linked := by
  have left := setCluster_leaves g inside v
  intro x insideX
  have old := insideX.before left.same
  apply IsLink.of_same _ left.same
  rw [left.fat x old, update_apply]
  split
  · exact link
  · exact linked old

/-! ## Freeing a chain -/

/-- The entries of `gone` are 0, and nothing but these entries has changed. -/
structure Freed (s s' : SbInfo) (gone : Set Nat) : Prop where
  same : SameShape s s'
  free : ∀ {x}, s.InVolume x → x ∈ gone → s'.getCluster x = clusterFree
  kept : ∀ {x}, s.InVolume x → x ∉ gone → s'.getCluster x = s.getCluster x
  cache : ∀ {x}, x ∉ gone → s'.fatCache.map (· x) = s.fatCache.map (· x)
  data : ∀ {i}, (∀ x ∈ gone, ∀ fat < s.numFats, i < s.fatAddr fat x ∨ s.fatAddr fat x + 4 ≤ i) →
    s'.bdev.data i = s.bdev.data i

lemma Freed.single (g : Geometry s) (inside : s.InVolume c) :
    Freed s (s.setCluster c clusterFree).1 {c} := by
  have left := setCluster_leaves g inside clusterFree
  refine ⟨left.same, fun insideX here => ?_, fun insideX other => ?_, fun other => ?_,
    fun outside => ?_⟩
  · rw [left.fat _ insideX, here, update_self]
    rfl
  · rw [left.fat _ insideX, update_of_ne other]
  · rw [setCluster_fatCache g inside, setCache, Option.map_map]
    congr 1
    funext cache
    show (if c < s.clusterEnd then update cache c _ else cache) _ = cache _
    split
    · exact update_of_ne other _ _
    · rfl
  · rw [setCluster_data g inside]
    exact fatsWritten_outside fun fat mem => outside c rfl fat (mem_range.mp mem)

lemma Freed.trans (one : Freed s s' gone) (two : Freed s' t more) : Freed s t (gone ∪ more) := by
  refine ⟨one.same.trans two.same, fun {x} insideX mem => ?_, fun {x} insideX out => ?_,
    fun {x} out => ?_, fun {i} outside => ?_⟩
  · have later := insideX.of_same one.same
    by_cases second : x ∈ more
    · exact two.free later second
    · rw [two.kept later second, one.free insideX (mem.resolve_right second)]
  · obtain ⟨first, second⟩ := not_or.mp out
    rw [two.kept (insideX.of_same one.same) second, one.kept insideX first]
  · obtain ⟨first, second⟩ := not_or.mp out
    rw [two.cache second, one.cache first]
  · rw [two.data fun x mem fat copy => ?_, one.data fun x mem => outside x (.inl mem)]
    rw [one.same.fatAddr]
    exact outside x (.inr mem) fat (one.same.numFats ▸ copy)

lemma reaches_alone (last : ¬ s.InVolume (s.getCluster c)) : {x | s.Reaches c x} = {c} := by
  ext x
  refine ⟨fun walk => ?_, fun here => here ▸ .refl⟩
  rcases walk.cases_head with rfl | ⟨b, ⟨_, next, rfl⟩, _⟩
  · rfl
  · exact absurd next last

/-- The clusters behind `c` are reachable without the entry of `c`, even where they lead back. -/
lemma reaches_next (g : Geometry s) (inside : s.InVolume c)
    (next : s.InVolume (s.getCluster c)) : {x | s.Reaches c x} =
      {c} ∪ {x | (s.setCluster c clusterFree).1.Reaches (s.getCluster c) x} := by
  have freed := Freed.single g inside
  ext x
  constructor
  · intro walk
    rcases walk.cases_head with rfl | ⟨b, ⟨_, _, rfl⟩, rest⟩
    · exact .inl rfl
    refine .inr ?_
    clear walk
    induction rest with
    | refl => exact .refl
    | @tail y z _ step ih =>
      obtain ⟨insideY, insideZ, rfl⟩ := step
      by_cases back : y = c
      · rw [back]
        exact .refl
      · exact ih.tail ⟨insideY.of_same freed.same, insideZ.of_same freed.same,
          freed.kept insideY back⟩
  · rintro (rfl | walk)
    · exact .refl
    refine .head ⟨inside, next, rfl⟩ (ReflTransGen.mono (fun y z step => ?_) _ _ walk)
    obtain ⟨insideY, insideZ, rfl⟩ := step
    have old := insideY.before freed.same
    have other : y ≠ c := by
      rintro rfl
      rw [freed.free old rfl] at insideZ
      exact absurd insideZ.1 (by decide)
    rw [freed.kept old other] at insideZ ⊢
    exact ⟨old, insideZ.before freed.same, rfl⟩

/-- The list holds the clusters in use, and each step takes one off. -/
lemma freeClusterChain_freed {n : Nat} (used : List Nat) (g : Geometry s) (linked : s.Linked)
    (inside : s.InVolume c) (all : ∀ {x}, s.InVolume x → s.getCluster x ≠ clusterFree → x ∈ used)
    (size : used.length < n) :
    ∃ s', Returns (freeClusterChain · s c) s' ∧ Freed s s' {x | s.Reaches c x} := by
  induction n generalizing s c used with
  | zero => exact absurd size (not_lt_zero _)
  | succ n ih =>
    have freed := Freed.single g inside
    have step : ∀ fuel, freeClusterChain (fuel + 1) s c = _ := fun _ => if_pos (inside.bounds g)
    rcases linked inside with free | ends | next
    · rw [reaches_alone (by rw [free]; exact fun named => absurd named.1 (by decide))]
      refine ⟨_, .of_succ 1 fun fuel enough => ?_, freed⟩
      obtain ⟨fuel, rfl⟩ := exists_eq_succ_of_ne_zero (pos_iff_ne_zero.mp enough)
      rw [step, free]
      rfl
    · rw [reaches_alone fun named => not_lt.mpr ends (named.numbers g)]
      refine ⟨_, .of_succ 0 fun fuel _ => ?_, freed⟩
      rw [step]
      exact if_pos ends
    · have busy : s.getCluster c ≠ clusterFree := fun free => by
        rw [free] at next
        exact absurd next.1 (by decide)
      have shorter := length_erase_of_mem (all inside busy)
      have positive := length_pos_of_mem (all inside busy)
      obtain ⟨s', ⟨bound, ends⟩, rest⟩ := ih (used.erase c) (g.of_same freed.same)
        (linked.set g inside (.inl rfl)) (next.of_same freed.same) (fun {x} insideX usedX => by
          have old := insideX.before freed.same
          have other : x ≠ c := fun here => usedX (freed.free old here)
          rw [freed.kept old other] at usedX
          exact (mem_erase_of_ne other).mpr (all old usedX)) (by omega)
      rw [reaches_next g inside next]
      refine ⟨s', .of_succ bound fun fuel enough => ?_, freed.trans rest⟩
      rw [step]
      exact (if_neg (not_le.mpr (next.numbers g))).trans (ends fuel enough)

/-- `fat32_free_cluster_chain` ends on every FAT, and frees exactly the clusters that are
reachable. -/
theorem freeClusterChain_reachable (g : Geometry s) (linked : s.Linked) (inside : s.InVolume c) :
    ∃ s', Returns (freeClusterChain · s c) s' ∧ Freed s s' {x | s.Reaches c x} := by
  refine freeClusterChain_freed (range' 2 s.totalClusters) g linked inside
    (fun {x} insideX _ => ?_) (lt_succ_self _)
  have ⟨low, high⟩ := insideX
  exact mem_range'_1.mpr ⟨low, by omega⟩

/-! ## The copies of the FAT -/

def SbInfo.Agree (s : SbInfo) : Prop :=
  ∃ entry : Nat → Nat, ∀ c, s.HasEntry c → (∀ cache ∈ s.fatCache, cache c = entry c) ∧
    ∀ fat < s.numFats, leRead s.bdev.data (s.fatAddr fat c) 4 = entry c

/-- The volumes on which the calls keep the copies equal. -/
structure Mirrored (s : SbInfo) : Prop where
  geometry : Geometry s
  linked : s.Linked
  agree : s.Agree

lemma Mirrored.set (old : Mirrored s) (inside : s.InVolume c) (link : s.IsLink (v % 2 ^ 28)) :
    Mirrored (s.setCluster c v).1 := by
  have g := old.geometry
  have same := setCluster_same (v := v) g inside
  refine ⟨g.of_same same, Linked.set old.linked g inside link, ?_⟩
  obtain ⟨entry, agree⟩ := old.agree
  refine ⟨update entry c (v % 2 ^ 28), fun x room => ?_⟩
  unfold HasEntry at room
  rw [same.sectorsPerFat, same.bytesPerSector] at room
  rw [setCluster_fatCache g inside, setCluster_data g inside, same.numFats, update_apply]
  refine ⟨fun cache mem => ?_, fun fat copy => ?_⟩
  · obtain ⟨before, cached, rfl⟩ := map_eq_some_iff.mp mem
    have known : c < s.clusterEnd := by
      rw [clusterEnd_eq g]
      exact inside.2
    rw [if_pos known, update_apply, (agree x room).1 before cached]
  · rw [same.fatAddr, leRead_fatsWritten g inside copy room (mod_lt _ (by decide)),
      (agree x room).2 fat copy]

lemma Mirrored.append (old : Mirrored s) (inside : s.InVolume last) :
    Mirrored (s.appendCluster last).1 := by
  have g := old.geometry
  by_cases none : s.findFreeCluster.2 = 0
  · rwa [SbInfo.appendCluster, if_pos none, findFreeCluster_none none]
  obtain ⟨insideNew, _, marked⟩ := findFreeCluster_spec g none
  have first := old.set insideNew (v := clusterEocMax) (.inr (.inl (by decide)))
  have same := setCluster_same (v := clusterEocMax) g insideNew
  rw [SbInfo.appendCluster, if_neg none, if_pos (inside.bounds g), marked]
  refine first.set (inside.of_same same) (.inr (.inr ?_))
  rw [mod_eq_of_lt ((insideNew.numbers g).trans (by decide))]
  exact insideNew.of_same same

lemma Mirrored.free {fuel : Nat} (old : Mirrored s) (inside : s.InVolume c)
    (done : freeClusterChain fuel s c = some s') : Mirrored s' := by
  induction fuel generalizing s c with
  | zero => cases done
  | succ fuel ih =>
    have g := old.geometry
    have one := old.set inside (v := clusterFree) (.inl rfl)
    rw [freeClusterChain, if_pos (inside.bounds g)] at done
    simp only at done
    rcases old.linked inside with free | ends | next
    · rw [free, if_neg (by decide)] at done
      cases fuel with
      | zero => cases done
      | succ fuel =>
        cases done
        exact one
    · rw [if_pos ends] at done
      cases done
      exact one
    · rw [if_neg (not_le.mpr (next.numbers g))] at done
      exact ih one (next.of_same (setCluster_same g inside)) done

inductive FatCall (s : SbInfo) : SbInfo → Prop
  | set {c v : Nat} (inside : s.InVolume c) (link : s.IsLink (v % 2 ^ 28)) :
      FatCall s (s.setCluster c v).1
  | append {last : Nat} (inside : s.InVolume last) : FatCall s (s.appendCluster last).1
  | free {c fuel : Nat} {s' : SbInfo} (inside : s.InVolume c)
      (done : freeClusterChain fuel s c = some s') : FatCall s s'

lemma FatCall.mirrored (call : FatCall s s') (old : Mirrored s) : Mirrored s' := by
  cases call with
  | set inside link => exact old.set inside link
  | append inside => exact old.append inside
  | free inside done => exact old.free inside done

/-- After any calls the cached FAT and the copies on the device agree. -/
theorem fatCalls_agree (old : Mirrored s) (calls : ReflTransGen FatCall s s') : s'.Agree := by
  have all : Mirrored s' := by
    induction calls with
    | refl => exact old
    | tail _ call ih => exact call.mirrored ih
  exact all.agree

lemma twoFatsInfo_mirrored : Mirrored twoFatsInfo := by
  have g : Geometry twoFatsInfo := by
    constructor <;> decide +kernel
  refine ⟨g, fun {c} inside => ?_, fun c => leRead twoFatsInfo.bdev.data (512 + c * 4) 4,
    fun c room => ?_⟩
  · have entries : ∀ c < 19, 2 ≤ c → twoFatsInfo.getCluster c = clusterFree ∨
        clusterEocMin ≤ twoFatsInfo.getCluster c ∨
        2 ≤ twoFatsInfo.getCluster c ∧ twoFatsInfo.getCluster c < 19 := by
      decide +kernel
    exact entries c inside.2 inside.1
  · have entries : ∀ c < 128, twoFatsInfo.fatCache.map (· c) =
        some (leRead twoFatsInfo.bdev.data (512 + c * 4) 4) ∧
        ∀ fat < 2, leRead twoFatsInfo.bdev.data (twoFatsInfo.fatAddr fat c) 4 =
          leRead twoFatsInfo.bdev.data (512 + c * 4) 4 := by
      decide +kernel
    have few : (c + 1) * 4 ≤ 512 := room
    obtain ⟨cached, copies⟩ := entries c (by omega)
    refine ⟨fun cache mem => ?_, copies⟩
    rw [mem] at cached
    exact some.inj cached

/-- The chain of cluster 3 turns back to it. -/
theorem freeClusterChain_reachable_cycle : Mirrored twoFatsInfo ∧ ∃ s',
    Returns (freeClusterChain · twoFatsInfo 3) s' ∧
      Freed twoFatsInfo s' {x | twoFatsInfo.Reaches 3 x} :=
  ⟨twoFatsInfo_mirrored, freeClusterChain_reachable twoFatsInfo_mirrored.geometry
    twoFatsInfo_mirrored.linked ⟨by decide, by decide +kernel⟩⟩

theorem fatCalls_agree_append : Mirrored twoFatsInfo ∧ (twoFatsInfo.appendCluster 3).1.Agree :=
  ⟨twoFatsInfo_mirrored, fatCalls_agree twoFatsInfo_mirrored
    (.single (.append ⟨by decide, by decide +kernel⟩))⟩

end AuroraOS.Fat32
