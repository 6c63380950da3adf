import AuroraOS.Vfs.Cache

/-!
# Eviction of negative dentries

`vfs_dentry_evict` frees the inode of a dentry together with the dentry, although ramfs still
links it.  A round that takes only negative dentries keeps the image of ramfs and leaves ramfs
alone (`Cached.evict`).
-/

namespace AuroraOS.Vfs

open Lib Function List

namespace State

def evictable (v : State) (d : DentryId) : Bool :=
  d ≠ v.rootDentry && (v.dentries d).any fun x => x.refcount ≤ 1

def victims (v : State) : List DentryId := (v.lru.reverse.filter v.evictable).take 16

variable {v : State} {d : DentryId} {x : Dentry}

structure Evicted (v u : State) (d : DentryId) : Prop where
  cached : u.Cached
  fs : u.fs = v.fs
  total : u.dentryTotal ≤ v.dentryTotal
  inodes : u.inodeOf = v.inodeOf
  root : u.rootDentry = v.rootDentry
  counts : ∀ d', d' ≠ d → (u.dentries d').map Dentry.refcount = (v.dentries d').map Dentry.refcount

lemma Evicted.evictable {u : State} {d' : DentryId} (evicted : Evicted v u d) (other : d' ≠ d) :
    u.evictable d' = v.evictable d' := by
  have same : ∀ o : Option Dentry, o.any (fun x => decide (x.refcount ≤ 1)) =
      (o.map Dentry.refcount).any fun k => decide (k ≤ 1) := fun o => by cases o <;> rfl
  rw [State.evictable, State.evictable, same, same, evicted.root, evicted.counts d' other]

lemma Evicted.live {u : State} {d' : DentryId} (evicted : Evicted v u d) (other : d' ≠ d)
    (live : ∃ x, v.dentries d' = some x) : ∃ x, u.dentries d' = some x := by
  obtain ⟨x, known⟩ := live
  have counts := evicted.counts d' other
  rw [known, Option.map_some] at counts
  obtain ⟨y, here, _⟩ := Option.map_eq_some_iff.mp counts
  exact ⟨y, here⟩

lemma Cached.children_nil (cached : v.Cached) (known : v.dentries d = some x)
    (negative : v.inodeOf d = none) : x.children = [] := by
  obtain ⟨depth, tree⟩ := cached.tree
  apply eq_nil_iff_forall_not_mem.mpr
  intro c mem
  obtain ⟨e, here⟩ := tree.live d _ (cache_eq known) c mem
  have edge : v.cache.child d e.name = some c :=
    tree.child_iff.mpr ⟨_, cache_eq known, mem, by rw [here]; rfl⟩
  rw [cached.leaf d e.name negative] at edge
  cases edge

lemma Cached.evictOne (cached : v.Cached) (known : v.dentries d = some x)
    (notRoot : d ≠ v.rootDentry) (negative : v.inodeOf d = none) :
    ∃ u, v.evictOne d x = .ok u ∧ Evicted v u d := by
  obtain ⟨depth, tree⟩ := cached.tree
  obtain ⟨p, parent, below⟩ := cached.parent d x known notRoot
  have noInode : x.inode = none := (inodeOf_eq known).symm.trans negative
  have ⟨e, up, _⟩ := tree.child_iff.mp below
  obtain ⟨y, atParent, sameName, sameChildren⟩ := dentries_of_cache up
  have upEq : v.cache p = some { name := y.name, children := y.children } := cache_eq atParent
  have different : p ≠ d := (tree.child_member upEq below).2
  set u : State := { v with
    lru := v.lru.erase d
    dentries := update (update v.dentries p (some { y with children := y.children.erase d })) d none
    dentryTotal := v.dentryTotal - 1 } with new
  have ran : v.evictOne d x = .ok u := by
    have read : (v.lruDel d).dentry p = .ok y := dentry_eq atParent
    simp only [State.evictOne, removeChild, parent, read, freeInode,
      noInode]
    rfl
  have gone : u.dentries d = none := update_self ..
  have atUp : u.dentries p = some { y with children := y.children.erase d } :=
    (update_of_ne different ..).trans (update_self ..)
  have there : ∀ d', d' ≠ d → d' ≠ p → u.dentries d' = v.dentries d' := fun d' other notUp =>
    (update_of_ne other ..).trans (update_of_ne notUp ..)
  have unlinked : u.cache = v.cache.unlink p { name := y.name, children := y.children } d := by
    refine (comp_update (Option.map _) (update v.dentries p _) d none).trans ?_
    rw [comp_update]
    rfl
  have sameInode : u.inodeOf = v.inodeOf := by
    funext d'
    rcases eq_or_ne d' d with rfl | other
    · rw [inodeOf_none gone, negative]
    · rcases eq_or_ne d' p with rfl | notUp
      · rw [inodeOf_eq atUp, inodeOf_eq atParent]
      · rw [inodeOf, inodeOf, there d' other notUp]
  have edges : ∀ {d' name c}, u.cache.child d' name = some c ↔
      v.cache.child d' name = some c ∧ c ≠ d := by
    intro d' name c
    rw [unlinked]
    exact tree.child_unlink upEq below (cache_eq known) (cached.children_nil known negative)
  refine ⟨u, ran, ⟨cached.fs, ?_, ?_, ?_, ?_, ?_, ?_, ?_, cached.nodup.erase d, ?_⟩, rfl,
    Nat.sub_le _ _, sameInode, rfl, ?_⟩
  · rw [unlinked]
    exact ⟨_, tree.unlink upEq below⟩
  · rw [sameInode]
    exact cached.root
  · intro d' z at' notRoot'
    have other : d' ≠ d := by
      rintro rfl
      rw [gone] at at'
      cases at'
    rcases eq_or_ne d' p with rfl | notUp
    · rw [atUp] at at'
      cases at'
      obtain ⟨q, parent', below'⟩ := cached.parent d' y atParent notRoot'
      exact ⟨q, parent', edges.mpr ⟨below', other⟩⟩
    · obtain ⟨q, parent', below'⟩ :=
        cached.parent d' z ((there d' other notUp).symm.trans at') notRoot'
      exact ⟨q, parent', edges.mpr ⟨below', other⟩⟩
  · intro d' name c n below' held
    rw [sameInode] at held ⊢
    exact cached.image d' name c n (edges.mp below').1 held
  · intro d' name negative'
    rw [sameInode] at negative'
    cases below' : u.cache.child d' name with
    | none => rfl
    | some c =>
      have old := (edges.mp below').1
      rw [cached.leaf d' name negative'] at old
      cases old
  · rw [sameInode]
    exact cached.back
  · intro d' high
    rcases eq_or_ne d' d with rfl | other
    · exact gone
    · exact (there d' other (cached.ne_fresh atParent high)).trans (cached.fresh d' high)
  · intro d' mem
    obtain ⟨other, old⟩ := cached.nodup.mem_erase_iff.mp mem
    obtain ⟨z, was⟩ := cached.live d' old
    rcases eq_or_ne d' p with rfl | notUp
    · exact ⟨_, atUp⟩
    · exact ⟨z, (there d' other notUp).trans was⟩
  · intro d' other
    rcases eq_or_ne d' p with rfl | notUp
    · rw [atUp, atParent]
      rfl
    · rw [there d' other notUp]

lemma Cached.evictLoop (cached : v.Cached) {ds : List DentryId} (k : Nat) (nodup : ds.Nodup)
    (live : ∀ d ∈ ds, ∃ x, v.dentries d = some x)
    (negative : ∀ d ∈ (ds.filter v.evictable).take k, v.inodeOf d = none) :
    ∃ u, State.evictLoop ds k v = .ok u ∧ u.Cached ∧ u.fs = v.fs ∧
      u.dentryTotal ≤ v.dentryTotal := by
  induction ds generalizing k v with
  | nil => exact ⟨v, rfl, cached, rfl, Nat.le_refl _⟩
  | cons d ds ih =>
    cases k with
    | zero => exact ⟨v, rfl, cached, rfl, Nat.le_refl _⟩
    | succ k =>
      obtain ⟨fresh, rest⟩ := nodup_cons.mp nodup
      obtain ⟨x, known⟩ := live d mem_cons_self
      have liveRest : ∀ d' ∈ ds, ∃ x, v.dentries d' = some x :=
        fun d' mem => live d' (mem_cons_of_mem _ mem)
      rw [State.evictLoop, dentry_eq known]
      simp only [Except.bind]
      by_cases skip : d = v.rootDentry ∨ 1 < x.refcount
      · have kept : v.evictable d = false := by
          rcases skip with isRoot | busy
          · simp [evictable, isRoot]
          · simp [evictable, known, busy]
        rw [if_pos skip]
        rw [filter_cons_of_neg (by rw [kept]; exact Bool.false_ne_true)] at negative
        exact ih cached (k + 1) rest liveRest negative
      · obtain ⟨notRoot, idle⟩ := not_or.mp skip
        have taken : v.evictable d = true := by
          simp [evictable, known, notRoot, Nat.le_of_not_lt idle]
        rw [filter_cons_of_pos taken, take_succ_cons] at negative
        obtain ⟨u, ran, evicted⟩ :=
          cached.evictOne known notRoot (negative d mem_cons_self)
        have others : ∀ d' ∈ ds, d' ≠ d := fun d' mem same => fresh (same ▸ mem)
        have sameFilter : ds.filter u.evictable = ds.filter v.evictable :=
          filter_congr fun d' mem => evicted.evictable (others d' mem)
        obtain ⟨w, ran', cached', sameFs, total⟩ := ih evicted.cached k rest
          (fun d' mem => evicted.live (others d' mem) (liveRest d' mem))
          (by
            rw [sameFilter, evicted.inodes]
            exact fun d' mem => negative d' (mem_cons_of_mem _ mem))
        refine ⟨w, ?_, cached', sameFs.trans evicted.fs, Nat.le_trans total evicted.total⟩
        rw [if_neg skip, ran]
        exact ran'

lemma Cached.evict (cached : v.Cached) (negative : ∀ d ∈ v.victims, v.inodeOf d = none) :
    ∃ u, v.evict = .ok u ∧ u.Cached ∧ u.fs = v.fs ∧ u.dentryTotal ≤ v.dentryTotal :=
  cached.evictLoop 16 (nodup_reverse.mpr cached.nodup)
    (fun d mem => cached.live d (mem_reverse.mp mem)) negative

end State

end AuroraOS.Vfs
