import AuroraOS.Lib.Outcome
import AuroraOS.Vfs.Evict

/-!
# Runs of VFS calls

`State.Careful` is what a call has to respect for the cache to stay an image of ramfs: an `unlink`
or `rmdir` takes away only a node that never got a dentry, and an eviction takes only negative
dentries.
-/

namespace AuroraOS.Vfs

open Lib List Option

namespace State

/-- The paths for which `vfs_mkdir`, `vfs_rmdir` and `vfs_unlink` look for a parent. -/
def Splittable (path : Name) : Prop :=
  path.head? = some slash ∧ lastSlash path ≠ 0 ∧ (splitLast path).1.length < 256 ∧
    (splitLast path).2 ≠ []

instance (path : Name) : Decidable (Splittable path) := by
  unfold Splittable
  infer_instance

def target (v : State) (removable : Node → Bool) (path : Name) : Option NodeId :=
  if Splittable path then
    (v.fs.walk (splitLast path).1).bind fun m => v.fs.removed removable m (splitLast path).2
  else none

/-- The calls that leave the cache an image of ramfs. -/
def Careful (v : State) : Op → Prop
  | .rmdir path => ∀ n, v.target Ramfs.isEmptyDir path = some n → v.inodeDentry n = none
  | .unlink path => ∀ n, v.target Ramfs.isFile path = some n → v.inodeDentry n = none
  | .evict => ∀ d ∈ v.victims, v.inodeOf d = none
  | _ => True

def bytes (v : State) (n : NodeId) : Except Trouble (List UInt8) := (v.fs.node n).map Node.data

def run (v : State) (ops : List Op) : Except Trouble State := ops.foldlM State.apply v

/-! ## The calls keep the image -/

variable {v v' u : State}

variable {path : Name}

lemma Cached.parentOf (cached : v.Cached) {r : Option (NodeId × Name)}
    (ran : v.parentOf path = .ok (u, r)) :
    u.Cached ∧ u.fs = v.fs ∧ ∀ m name, r = some (m, name) →
      Splittable path ∧ v.fs.walk (splitLast path).1 = some m ∧ name = (splitLast path).2 ∧
        LookedUp v u (some m) := by
  unfold State.parentOf at ran
  split at ran
  · next splits =>
      obtain ⟨⟨w, found⟩, looked, rest⟩ := bind_ok ran
      obtain ⟨rfl, after⟩ := cached.lookup_ok looked
      cases walk : v.fs.walk (splitLast path).1 with
      | none =>
        simp only [walk] at rest
        cases rest
        exact ⟨after.cached, after.fs, nofun⟩
      | some m =>
        simp only [walk] at rest
        obtain ⟨x, _, same⟩ := map_ok rest
        cases same
        refine ⟨after.cached, after.fs, ?_⟩
        intro m' name found
        split at found
        · cases found
          exact ⟨splits, rfl, rfl, walk ▸ after⟩
        · cases found
  · cases ran
    exact ⟨cached, rfl, nofun⟩

variable {done : Bool}

section

variable (cached : v.Cached)
include cached

lemma Cached.make {isDir : Bool} {m : NodeId} {name : Name} {fs : Ramfs}
    (ran : v.fs.make isDir m name = .ok (fs, done)) :
    Cached { v with fs := fs } := by
  obtain ⟨depth, ok⟩ := cached.fs
  obtain ⟨ok', root, edges⟩ := Ramfs.make_spec ok ran
  exact cached.setFs ok' root fun m name n edge _ => edges m name n edge

lemma Cached.mkdir (ran : v.mkdir path = .ok (v', done)) : v'.Cached := by
  obtain ⟨⟨u, r⟩, parent, rest⟩ := bind_ok ran
  obtain ⟨cached', _, _⟩ := cached.parentOf parent
  cases r with
  | none => cases rest; exact cached'
  | some place =>
    obtain ⟨q, made, same⟩ := map_ok rest
    cases same
    exact cached'.make made

lemma Cached.remove {removable : Node → Bool}
    (leaf : ∀ y, removable y = true → y.isDir = false ∨ y.children = [])
    (careful : ∀ n, v.target removable path = some n → v.inodeDentry n = none)
    (ran : v.onParent (fun fs => fs.remove removable) path = .ok (v', done)) : v'.Cached := by
  obtain ⟨⟨u, r⟩, parent, rest⟩ := bind_ok ran
  obtain ⟨cached', sameFs, place⟩ := cached.parentOf parent
  cases r with
  | none => cases rest; exact cached'
  | some r =>
    obtain ⟨m, name⟩ := r
    obtain ⟨splits, walk, rfl, looked⟩ := place m name rfl
    obtain ⟨⟨fs, done'⟩, removal, same⟩ := map_ok rest
    cases same
    obtain ⟨depth, ok⟩ := cached'.fs
    obtain ⟨ok', root, edges⟩ := Ramfs.remove_spec ok leaf removal
    refine cached'.setFs ⟨depth, ok'⟩ root ?_
    intro m' name' n edge held
    refine edges m' name' n edge ?_
    intro gone
    have gone' : v.fs.removed removable m (splitLast path).2 = some n := by
      rw [← sameFs]
      exact gone
    have unseen : v.inodeDentry n = none := by
      apply careful
      rw [target, if_pos splits, walk, bind_some, gone']
    -- the lookup of the parent stays above the node
    have deeper : depth m < depth n :=
      ok.tree.child_depth (filter_eq_some_iff.mp gone).1
    rcases looked.holds depth (sameFs ▸ ok) n held with ⟨d, old⟩ | above
    · rw [cached.back d n old] at unseen
      cases unseen
    · exact absurd (above m rfl) (Nat.not_le.mpr deeper)

lemma Cached.countRef {n : NodeId} {change : Nat → Nat}
    (ran : v.countRef n change = .ok u) : u.Cached := by
  obtain ⟨_, _, rest⟩ := bind_ok ran
  split at rest
  · cases rest
    exact cached
  · obtain ⟨x, read, same⟩ := map_ok rest
    cases same
    exact cached.recount (dentry_ok read) _

lemma Cached.setFiles (files : List NodeId) : Cached { v with files := files } :=
  { cached with }

lemma Cached.openPath {r : Option NodeId} (ran : v.openPath path = .ok (u, r)) : u.Cached := by
  obtain ⟨⟨w, found⟩, looked, rest⟩ := bind_ok ran
  obtain ⟨_, after⟩ := cached.lookup_ok looked
  cases found with
  | none => cases rest; exact after.cached
  | some n =>
    obtain ⟨w', counted, same⟩ := map_ok rest
    cases same
    exact (after.cached.countRef counted).setFiles _

lemma Cached.createPath (ran : v.createPath path = .ok (u, done)) : u.Cached := by
  unfold State.createPath at ran
  split at ran
  · obtain ⟨⟨w, found⟩, looked, rest⟩ := bind_ok ran
    obtain ⟨_, after⟩ := cached.lookup_ok looked
    cases found with
    | none => cases rest; exact after.cached
    | some m =>
      obtain ⟨x, _, rest⟩ := bind_ok rest
      split at rest
      · obtain ⟨q, made, same⟩ := map_ok rest
        cases same
        exact after.cached.make made
      · cases rest
        exact after.cached
  · cases ran
    exact cached

lemma Cached.openFile {create : Bool} {r : Option NodeId}
    (ran : v.openFile path create = .ok (u, r)) : u.Cached := by
  obtain ⟨⟨w, found⟩, opened, rest⟩ := bind_ok ran
  have cached' := cached.openPath opened
  split at rest
  · obtain ⟨⟨w', made⟩, created, rest⟩ := bind_ok rest
    have cached'' := cached'.createPath created
    split at rest
    · exact cached''.openPath rest
    · cases rest
      exact cached''
  · cases rest
    exact cached'

lemma Cached.write {n : NodeId} {offset : Nat} {buf : List UInt8}
    (ran : v.write n offset buf = .ok u) : u.Cached := by
  obtain ⟨x, _, rest⟩ := bind_ok ran
  split at rest
  · cases rest
    exact cached
  obtain ⟨fs, wrote, same⟩ := map_ok rest
  cases same
  obtain ⟨depth, ok⟩ := cached.fs
  obtain ⟨ok', root, tree⟩ := Ramfs.write_spec ok wrote
  refine cached.setFs ⟨depth, ok'⟩ root ?_
  intro m name n edge _
  rw [Ramfs.child, tree]
  exact edge

lemma Cached.apply {op : Op} (careful : v.Careful op)
    (ran : v.apply op = .ok v') : v'.Cached := by
  cases op with
  | lookup path =>
    obtain ⟨⟨u, r⟩, looked, rfl⟩ := map_ok ran
    exact (cached.lookup_ok looked).2.cached
  | openFile path create =>
    obtain ⟨⟨u, r⟩, opened, rfl⟩ := map_ok ran
    exact cached.openFile opened
  | close n =>
    obtain ⟨u, counted, rfl⟩ := map_ok ran
    exact (cached.countRef counted).setFiles _
  | write n offset buf => exact cached.write ran
  | mkdir path =>
    obtain ⟨⟨u, done⟩, made, rfl⟩ := map_ok ran
    exact cached.mkdir made
  | rmdir path =>
    obtain ⟨⟨u, done⟩, removed, rfl⟩ := map_ok ran
    refine cached.remove ?_ careful removed
    intro y empty
    exact .inr (isEmpty_iff.mp (Bool.and_eq_true_iff.mp empty).2)
  | unlink path =>
    obtain ⟨⟨u, done⟩, removed, rfl⟩ := map_ok ran
    refine cached.remove ?_ careful removed
    intro y file
    exact .inl ((Bool.not_eq_true' _).mp file)
  | evict =>
    obtain ⟨u, ran', cached', _⟩ := cached.evict careful
    rw [show v.evict = .ok v' from ran] at ran'
    cases ran'
    exact cached'

end

/-! ## Runs -/

inductive CarefulRun : State → Prop
  | initial : CarefulRun State.initial
  | step {v v' : State} {op : Op} (before : CarefulRun v) (careful : v.Careful op)
      (ran : v.apply op = .ok v') : CarefulRun v'

lemma cached_initial : State.initial.Cached := by
  have noNode : ∀ n, n ≠ 0 → State.initial.fs.nodes n = none :=
    fun n other => by simp [State.initial, other]
  have noDentry : ∀ d, d ≠ 0 → State.initial.dentries d = none :=
    fun d other => by simp [State.initial, other]
  have leafNode : ∀ m x, State.initial.fs.tree m = some x → x.children = [] := by
    intro m x known
    rcases eq_or_ne m 0 with rfl | other
    · cases known
      rfl
    · rw [Ramfs.tree_none (noNode m other)] at known
      cases known
  have leafDentry : ∀ d x, State.initial.cache d = some x → x.children = [] := by
    intro d x known
    rcases eq_or_ne d 0 with rfl | other
    · cases known
      rfl
    · rw [cache_none (noDentry d other)] at known
      cases known
  have noEdge : ∀ d name, State.initial.cache.child d name = none := by
    intro d name
    rcases eq_or_ne d 0 with rfl | other
    · rfl
    · rw [NameTree.child, cache_none (noDentry d other)]
      rfl
  refine ⟨⟨fun _ => 0, NameTree.Ok.of_leaves ⟨_, rfl⟩ leafNode rfl, ?_, ?_⟩,
    ⟨fun _ => 0, NameTree.Ok.of_leaves ⟨_, rfl⟩ leafDentry rfl⟩, rfl, ?_, ?_, ?_, ?_, ?_, ?_, ?_⟩
  · intro m x known _
    exact leafNode m _ (Ramfs.tree_eq known)
  · intro n high
    exact noNode n (Nat.ne_of_gt high)
  · intro d x known notRoot
    rw [noDentry d notRoot] at known
    cases known
  · intro d name c n below
    rw [noEdge] at below
    cases below
  · intro d name _
    exact noEdge d name
  · intro d n held
    rcases eq_or_ne d 0 with rfl | other
    · cases held
      rfl
    · rw [inodeOf_none (noDentry d other)] at held
      cases held
  · intro d high
    exact noDentry d (Nat.ne_of_gt high)
  · exact nodup_singleton 0
  · intro d mem
    rw [mem_singleton.mp mem]
    exact ⟨_, rfl⟩

def after (v : State) (op : Op) : State := (v.apply op).toOption.getD v

lemma CarefulRun.after (before : CarefulRun v) (op : Op) (careful : v.Careful op) :
    CarefulRun (v.after op) := by
  unfold State.after
  cases ran : v.apply op with
  | error _ => exact before
  | ok v' => exact before.step careful ran

lemma CarefulRun.cached (reached : CarefulRun v) : v.Cached := by
  induction reached with
  | initial => exact cached_initial
  | step _ careful ran ih => exact ih.apply careful ran

lemma Cached.lookup_room (cached : v.Cached)
    (room : v.dentryTotal + (tokens path.tail).length ≤ maxDentries) :
    ∃ v', v.lookup path = .ok (v', v.fs.walk path) ∧ v'.fs = v.fs := by
  rcases cached.lookup path with ⟨v', ran, looked⟩ | ⟨_, full⟩
  · exact ⟨v', ran, looked.fs⟩
  · exact absurd room (Nat.not_le.mpr full)

/-- In every state that careful calls reach, a lookup that has room returns what the walk through
ramfs finds. -/
theorem lookup_eq_walk (reached : CarefulRun v) (path : Name)
    (room : v.dentryTotal + (tokens path.tail).length ≤ maxDentries) :
    ∃ v', v.lookup path = .ok (v', v.fs.walk path) := by
  obtain ⟨v', ran, _⟩ := reached.cached.lookup_room room
  exact ⟨v', ran⟩

def madeTwo : State :=
  (State.initial.after (.mkdir [slash, slash, 0x61])).after (.mkdir [slash, 0x61, slash, 0x62])

def madeAndRemoved : State := madeTwo.after (.rmdir [slash, 0x61, slash, 0x62])

lemma carefulRun_madeAndRemoved : CarefulRun madeAndRemoved := by
  have made : CarefulRun madeTwo :=
    (CarefulRun.initial.after (.mkdir _) trivial).after (.mkdir _) trivial
  refine made.after (.rmdir _) ?_
  intro n found
  have inner : madeTwo.target Ramfs.isEmptyDir [slash, 0x61, slash, 0x62] = some 2 := by
    decide +kernel
  cases found
  decide +kernel

/-- The outer directory is found, and the inner one is gone. -/
theorem lookup_eq_walk_madeAndRemoved :
    (∃ v', madeAndRemoved.lookup [slash, 0x61] = .ok (v', some 1)) ∧
      ∃ v', madeAndRemoved.lookup [slash, 0x61, slash, 0x62] = .ok (v', none) := by
  have outer : madeAndRemoved.fs.walk [slash, 0x61] = some 1 := by decide +kernel
  have inner : madeAndRemoved.fs.walk [slash, 0x61, slash, 0x62] = none := by decide +kernel
  exact ⟨lookup_eq_walk carefulRun_madeAndRemoved _ (by decide +kernel),
    lookup_eq_walk carefulRun_madeAndRemoved _ (by decide +kernel)⟩

/-- A file that was opened and then unlinked is still found, under the inode that was freed. -/
theorem unlink_leaves_dentry : ∃ v v',
    State.initial.run [.openFile [slash, 0x61] true, .unlink [slash, slash, 0x61]] = .ok v ∧
      v.lookup [slash, 0x61] = .ok (v', some 1) ∧ v.fs.walk [slash, 0x61] = none ∧
      v.fs.nodes 1 = none := by
  have evaluated : (State.initial.run
      [.openFile [slash, 0x61] true, .unlink [slash, slash, 0x61]]).map (fun v =>
        ((v.lookup [slash, 0x61]).map Prod.snd, v.fs.walk [slash, 0x61], (v.fs.nodes 1).isNone)) =
      .ok (.ok (some 1), none, true) := by
    decide +kernel
  obtain ⟨v, ran, values⟩ := map_ok evaluated
  simp only [Prod.mk.injEq, isNone_iff_eq_none] at values
  obtain ⟨found, walk, freed⟩ := values
  obtain ⟨⟨v', _⟩, looked, rfl⟩ := map_ok found
  exact ⟨v, v', ran, looked, walk, freed⟩

/-- In every state that careful calls reach, evicting negative dentries changes no lookup that has
room and no file. -/
theorem evict_transparent (reached : CarefulRun v)
    (negative : ∀ d ∈ v.victims, v.inodeOf d = none) :
    ∃ u, v.evict = .ok u ∧ ∀ path,
      v.dentryTotal + (tokens path.tail).length ≤ maxDentries →
        ∃ w w' r, v.lookup path = .ok (w, r) ∧ u.lookup path = .ok (w', r) ∧
          r.map w'.bytes = r.map w.bytes := by
  obtain ⟨u, ran, cached', sameFs, total⟩ := reached.cached.evict negative
  refine ⟨u, ran, fun path room => ?_⟩
  obtain ⟨w, before, fsBefore⟩ := reached.cached.lookup_room room
  obtain ⟨w', after, fsAfter⟩ := cached'.lookup_room
    (Nat.le_trans (Nat.add_le_add_right total _) room)
  rw [sameFs] at after fsAfter
  refine ⟨w, w', _, before, after, ?_⟩
  have same : w'.bytes = w.bytes := by
    funext n
    rw [bytes, bytes, fsBefore, fsAfter]
  rw [same]

def missed : State := State.initial.after (.lookup [slash, 0x61])

/-- The negative dentry goes and nothing else changes. -/
theorem evict_transparent_missed : missed.victims = [1] ∧ ∃ u, missed.evict = .ok u ∧
    ∃ w w' r, missed.lookup [slash, 0x61] = .ok (w, r) ∧ u.lookup [slash, 0x61] = .ok (w', r) ∧
      r.map w'.bytes = r.map w.bytes := by
  have negative : ∀ d ∈ missed.victims, missed.inodeOf d = none := by decide +kernel
  obtain ⟨u, ran, same⟩ := evict_transparent (CarefulRun.initial.after (.lookup _) trivial) negative
  exact ⟨by decide +kernel, u, ran, same [slash, 0x61] (by decide +kernel)⟩

/-- A file that was opened and closed is found before an eviction; after it the lookup runs into
the freed inode, which its directory still links. -/
theorem evict_frees_linked_node : ∃ v v' u,
    State.initial.run [.openFile [slash, 0x61] true, .close 1] = .ok v ∧
      v.lookup [slash, 0x61] = .ok (v', some 1) ∧ v.evict = .ok u ∧
      (u.lookup [slash, 0x61]).map Prod.snd = .error .useAfterFree := by
  have evaluated : (State.initial.run [.openFile [slash, 0x61] true, .close 1]).map (fun v =>
        ((v.lookup [slash, 0x61]).map Prod.snd,
          v.evict.map fun u => (u.lookup [slash, 0x61]).map Prod.snd)) =
      .ok (.ok (some 1), .ok (.error .useAfterFree)) := by
    decide +kernel
  obtain ⟨v, ran, values⟩ := map_ok evaluated
  obtain ⟨found, rest⟩ := Prod.mk.inj values
  obtain ⟨⟨v', _⟩, looked, rfl⟩ := map_ok found
  obtain ⟨u, gone, lost⟩ := map_ok rest
  exact ⟨v, v', u, ran, looked, gone, lost⟩

end State

end AuroraOS.Vfs
