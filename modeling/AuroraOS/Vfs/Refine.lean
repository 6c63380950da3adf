import AuroraOS.Vfs.Evict
import AuroraOS.Vfs.LockOnce

/-!
# The two models of the dentry cache

The model with the lock does what the model over ramfs does: a lookup or an eviction that returns
there leaves the same dentries here, with the lock free.
-/

namespace AuroraOS.Vfs.State

open Lib Function Option
open Lock (Cache Fs dentry_of_some dentryAlloc_of_room)

/-- The dentry cache of a state. -/
def withLock (v : State) (locked : Bool) : Cache where
  locked := locked
  root := some v.rootDentry
  dentries := v.dentries
  inodeDentry := v.inodeDentry
  lru := v.lru
  total := v.dentryTotal
  next := v.nextDentry

/-- What ramfs answers. -/
def answers (fs : Ramfs) : Fs where
  memory _ := true
  lookup m name := fs.child m name
  isDir m := (fs.nodes m).any Node.isDir
  has _ := true
  opens _ := true

variable {v v' : State} {d c cur : DentryId} {m : NodeId} {name : Name} {x y : Dentry}

lemma modify_known {w : Cache} (known : w.dentries d = some x) (f : Dentry → Dentry) :
    w.modify d f = .ok { w with dentries := update w.dentries d (some (f x)) } := by
  rw [Cache.modify, Cache.dentry, known]
  rfl

lemma withLock_findChild (locked : Bool) (cs : List DentryId) :
    (v.withLock locked).findChild name cs = v.findChild name cs := by
  induction cs with
  | nil => rfl
  | cons c cs ih =>
    rw [Cache.findChild, findChild]
    simp only [ih]
    rfl

lemma Cached.askFs_eq (cached : v.Cached) (above : v.inodeOf cur = some m)
    (below : v.dentries c = some y) : v.askFs (some m) c =
      .ok ((v.fs.child m y.name).elim (v, none) fun n => (v.bindInode c y n, some c)) := by
  obtain ⟨depth, ok⟩ := cached.fs
  obtain ⟨z, node⟩ := cached.inode_live above
  unfold State.askFs
  rw [dentry_eq below]
  simp only [Except.bind, Ramfs.node_eq node, ok.lookup_eq node]
  cases isDir : z.isDir with
  | false =>
    rw [ok.child_file node isDir, if_neg Bool.false_ne_true]
    rfl
  | true =>
    rw [if_pos rfl]
    cases v.fs.child m y.name <;> rfl

lemma Cached.resolve (cached : v.Cached) (above : v.inodeOf cur = some m)
    (below : v.cache.child cur name = some c) (negative : v.inodeOf c = none) :
    (v.withLock true).resolve (answers v.fs) cur c name =
      (v.askFs (some m) c).map fun r => (r.1.withLock false, r.2) := by
  obtain ⟨x, known, inode⟩ := dentries_of_inodeOf above
  obtain ⟨y, here, rfl⟩ := cached.child_live below
  have other : cur ≠ c := by
    rintro rfl
    rw [above] at negative
    cases negative
  have noInode : y.inode = none := (inodeOf_eq here).symm.trans negative
  -- the reference on the parent is taken and dropped, so its dentry is as before
  have back : (⟨x.name, some m, x.parent, x.children, x.refcount⟩ : Dentry) = x := by rw [← inode]
  rw [Cache.resolve, modify_known (w := v.withLock true) known, cached.askFs_eq above here]
  simp only [bind, Except.bind, Cache.vfsUnlock, Cache.dentry, update_self, inode, Option.bind,
    answers, withLock]
  cases v.fs.child m y.name with
  | none =>
    simp only [Cache.setAnswer, Cache.vfsLock, Bool.false_eq_true, if_false]
    rw [modify_known (update_self ..)]
    simp only [update_idem, update_of_ne other.symm, here, noInode, Nat.add_sub_cancel, back,
      ← known, update_eq_self]
    rfl
  | some n =>
    simp only [Cache.setAnswer]
    rw [modify_known ((update_of_ne other.symm ..).trans here)]
    simp only [Cache.vfsLock, Bool.false_eq_true, if_false]
    rw [modify_known ((update_of_ne other ..).trans (update_self ..))]
    simp only [update_of_ne other.symm, update_self, Nat.add_sub_cancel, back,
      update_comm other.symm, update_idem, ← known, update_eq_self]
    rfl

lemma Cached.ensureChild (cached : v.Cached) (known : v.dentries cur = some x)
    (ran : v.addDentry cur x name = .ok (v', c)) : v.dentryTotal < maxDentries ∧
      (v.withLock true).ensureChild (answers v.fs) cur name none =
        .ok (v'.withLock true, some c) := by
  unfold State.addDentry at ran
  split at ran
  · cases ran
  next room =>
    cases ran
    refine ⟨by omega, ?_⟩
    have other := (cached.ne_fresh known (Nat.le_refl _)).symm
    have few : (v.withLock true).total < maxDentries := Nat.le_of_not_lt room
    rw [Cache.ensureChild, dentryAlloc_of_room _ few]
    simp only [bind, Except.bind, answers, if_true, Cache.dentryAddChild]
    rw [modify_known ((update_of_ne other ..).trans known)]
    rfl

/-- One component of `vfs_lookup`. -/
lemma Cached.lookupStep_withLock (cached : v.Cached) (above : v.inodeOf cur = some m)
    {r : Option DentryId} (ran : v.lookupStep cur name = .ok (v', r)) :
    (v.withLock false).lookupStep (answers v.fs) cur name = .ok (v'.withLock false, r) := by
  obtain ⟨x, known, inode⟩ := dentries_of_inodeOf above
  have children : (v.withLock true).dentryLookupChild cur name = .ok (v.cache.child cur name) := by
    rw [← cached.findChild known, ← withLock_findChild true, Cache.dentryLookupChild,
      dentry_of_some (v := v.withLock true) known]
    rfl
  have locks : (v.withLock false).vfsLock = .ok (v.withLock true) := rfl
  unfold State.lookupStep at ran
  rw [dentry_eq known] at ran
  simp only [Except.bind, cached.findChild known, inode] at ran
  simp only [Cache.lookupStep, locks, bind, Except.bind, children]
  cases below : v.cache.child cur name with
  | none =>
    rw [below] at ran
    obtain ⟨⟨u, c⟩, added, asks⟩ := bind_ok (x := v.addDentry cur x name) ran
    obtain ⟨room, ensured⟩ := cached.ensureChild known added
    obtain ⟨_, _, ran', cached', sameFs, -, sameInode, negative, edge⟩ :=
      cached.addDentry known above below room
    cases added.symm.trans ran'
    have asked := cached'.resolve ((congrFun sameInode cur).trans above) edge negative
    rw [sameFs, asks] at asked
    simp only [Cache.childInode, ensured]
    exact asked
  | some c =>
    obtain ⟨y, here, named⟩ := cached.child_live below
    have inodeHere := inodeOf_eq here
    rw [below] at ran
    simp only [Option.elim, dentry_eq here, Except.map] at ran
    simp only [Cache.childInode, dentry_of_some (v := v.withLock true) here, Except.map]
    cases inode' : y.inode with
    | none =>
      rw [inode'] at ran
      have asked := cached.resolve above below (inodeHere.trans inode')
      simp only [State.ensureChild] at ran
      rw [ran] at asked
      exact asked
    | some n =>
      rw [inode'] at ran
      cases ran
      rfl

lemma Cached.lookupFrom_withLock (cached : v.Cached) (above : v.inodeOf cur = some m)
    {ts : List Name} {r : Option NodeId} (ran : v.lookupFrom cur ts = .ok (v', r)) :
    (v.withLock false).lookupFrom (answers v.fs) cur ts = .ok (v'.withLock false, r) := by
  induction ts generalizing v cur m with
  | nil =>
    obtain ⟨x, known, -⟩ := dentries_of_inodeOf above
    rw [State.lookupFrom, dentry_eq known] at ran
    rw [Cache.lookupFrom, dentry_of_some (v := v.withLock false) known]
    cases ran
    rfl
  | cons t ts ih =>
    unfold State.lookupFrom at ran
    unfold Cache.lookupFrom
    split_ifs at ran ⊢
    · cases ran
      rfl
    · cases ran
      rfl
    · exact ih cached above ran
    · rcases @Cached.lookupStep v cur m t cached above with ⟨u, c, step, reached⟩ | ⟨stuck, -⟩
      · have locked := cached.lookupStep_withLock above step
        rw [step] at ran
        simp only [locked, bind, Except.bind] at ran ⊢
        cases c with
        | none =>
          cases ran
          rfl
        | some c =>
          cases held : u.inodeOf c with
          | none => cases reached.result.2 (reached.result.1.symm.trans held)
          | some n =>
            rw [← reached.fs]
            exact ih reached.cached held ran
      · rw [stuck] at ran
        cases ran

/-- A lookup that returns finds the same with the lock, and leaves it free. -/
lemma Cached.vfsLookup_withLock (cached : v.Cached) {path : Name} {r : Option NodeId}
    (ran : v.lookup path = .ok (v', r)) :
    (v.withLock false).vfsLookup (answers v.fs) path = .ok (v'.withLock false, r) := by
  unfold State.lookup at ran
  unfold Cache.vfsLookup
  simp only [withLock]
  split_ifs at ran ⊢
  · exact cached.lookupFrom_withLock cached.root ran
  · cases ran
    rfl

/-! ## Eviction -/

lemma removeChild_withLock (ran : v.removeChild d x = .ok v') :
    (v.withLock true).dentryRemoveChild d x = .ok (v'.withLock true) := by
  unfold State.removeChild at ran
  unfold Cache.dentryRemoveChild
  cases parent : x.parent with
  | none =>
    rw [parent] at ran
    cases ran
    rfl
  | some p =>
    rw [parent] at ran
    obtain ⟨y, read, rfl⟩ := map_ok ran
    exact modify_known (dentry_ok read) _

/-- The memory of the inode is not part of the cache. -/
lemma freeInode_withLock (ran : v.freeInode d x = .ok v') : v'.withLock true = v.withLock true := by
  unfold State.freeInode at ran
  split at ran
  · cases ran
    rfl
  · obtain ⟨z, -, rfl⟩ := map_ok ran
    split <;> rfl

lemma evictOne_withLock (ran : v.evictOne d x = .ok v') :
    (v.withLock true).evictOne d x = .ok (v'.withLock true) := by
  obtain ⟨u, removed, rest⟩ := bind_ok ran
  obtain ⟨w, freed, rfl⟩ := map_ok rest
  have unlinked : { v.withLock true with lru := v.lru.erase d }.dentryRemoveChild d x = _ :=
    removeChild_withLock removed
  rw [Cache.evictOne, show (v.withLock true).lru = v.lru from rfl, unlinked,
    ← freeInode_withLock freed]
  rfl

lemma evictLoop_withLock {ds : List DentryId} {k : Nat} (ran : evictLoop ds k v = .ok v') :
    Cache.evictLoop ds k (v.withLock true) = .ok (v'.withLock true) := by
  induction ds generalizing v k with
  | nil =>
    cases k <;> cases ran <;> rfl
  | cons d ds ih =>
    cases k with
    | zero =>
      cases ran
      rfl
    | succ k =>
      obtain ⟨x, read, rest⟩ := bind_ok ran
      have root : some d = (v.withLock true).root ↔ d = v.rootDentry := some_inj
      have known := dentry_of_some (v := v.withLock true) (dentry_ok read)
      simp only [Cache.evictLoop, known, bind, Except.bind, root]
      split_ifs at rest ⊢
      · exact ih rest
      · obtain ⟨u, evicted, rest⟩ := bind_ok rest
        rw [evictOne_withLock evicted]
        exact ih rest

/-- So does an eviction. -/
lemma vfsDentryEvict_withLock (ran : v.evict = .ok v') :
    (v.withLock false).vfsDentryEvict = .ok (v'.withLock false) := by
  have loop := evictLoop_withLock ran
  rw [Cache.vfsDentryEvict, Cache.vfsLock]
  exact congrArg (Except.map Cache.vfsUnlock) loop

end AuroraOS.Vfs.State
