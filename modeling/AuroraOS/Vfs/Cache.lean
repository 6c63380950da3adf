import AuroraOS.Vfs.Ramfs

/-!
# The dentry cache as a partial image of the tree

`State.Cached` says that the dentries form a tree, that a dentry with an inode sits where the inode
sits in ramfs, and that no two dentries share an inode.
-/

namespace AuroraOS.Vfs

open Lib Function List Option

namespace State

def cache (v : State) : NameTree DentryId Name :=
  fun d => (v.dentries d).map fun x => { name := x.name, children := x.children }

def inodeOf (v : State) (d : DentryId) : Option NodeId := (v.dentries d).bind Dentry.inode

def Holds (v : State) (n : NodeId) : Prop := ∃ d, v.inodeOf d = some n

structure Cached (v : State) : Prop where
  fs : ∃ depth, v.fs.Ok depth
  tree : ∃ depth, v.cache.Ok v.rootDentry depth
  root : v.inodeOf v.rootDentry = some v.fs.root
  parent : ∀ d x, v.dentries d = some x → d ≠ v.rootDentry →
    ∃ p, x.parent = some p ∧ v.cache.child p x.name = some d
  image : ∀ d name c n, v.cache.child d name = some c → v.inodeOf c = some n →
    ∃ m, v.inodeOf d = some m ∧ v.fs.child m name = some n
  leaf : ∀ d name, v.inodeOf d = none → v.cache.child d name = none
  back : ∀ d n, v.inodeOf d = some n → v.inodeDentry n = some d
  fresh : ∀ d, v.nextDentry ≤ d → v.dentries d = none
  nodup : v.lru.Nodup
  live : ∀ d ∈ v.lru, ∃ x, v.dentries d = some x

variable {v v' : State} {d c cur : DentryId} {m n : NodeId} {name : Name} {x y : Dentry}

lemma dentry_eq (known : v.dentries d = some x) : v.dentry d = .ok x := by
  rw [dentry, known]

lemma dentry_ok (read : v.dentry d = .ok x) : v.dentries d = some x := by
  unfold dentry at read
  split at read
  · cases read
    assumption
  · cases read

lemma cache_eq (known : v.dentries d = some x) :
    v.cache d = some { name := x.name, children := x.children } := by
  rw [cache, known]
  rfl

lemma cache_none (free : v.dentries d = none) : v.cache d = none := by
  rw [cache, free]
  rfl

lemma dentries_of_cache {e : TreeNode DentryId Name} (known : v.cache d = some e) :
    ∃ x, v.dentries d = some x ∧ x.name = e.name ∧ x.children = e.children := by
  obtain ⟨x, here, rfl⟩ := map_eq_some_iff.mp known
  exact ⟨x, here, rfl, rfl⟩

lemma inodeOf_eq (known : v.dentries d = some x) : v.inodeOf d = x.inode := by
  rw [inodeOf, known]
  rfl

lemma inodeOf_none (free : v.dentries d = none) : v.inodeOf d = none := by
  rw [inodeOf, free]
  rfl

lemma dentries_of_inodeOf (held : v.inodeOf d = some n) :
    ∃ x, v.dentries d = some x ∧ x.inode = some n := bind_eq_some_iff.mp held

lemma findChild_eq {cs : List DentryId} (live : ∀ c ∈ cs, ∃ y, v.dentries c = some y) :
    v.findChild name cs = .ok (cs.find? fun c => (v.cache c).map TreeNode.name = some name) := by
  induction cs with
  | nil => rfl
  | cons c cs ih =>
    obtain ⟨y, known⟩ := live c mem_cons_self
    have rest := ih fun c' mem => live c' (mem_cons_of_mem _ mem)
    rw [findChild, dentry_eq known, find?_cons, cache_eq known]
    by_cases same : y.name = name
    · simp [Except.bind, same]
    · simp [Except.bind, same, rest]

namespace Cached

variable (cached : v.Cached)
include cached

lemma findChild (known : v.dentries cur = some x) :
    v.findChild name x.children = .ok (v.cache.child cur name) := by
  obtain ⟨depth, tree⟩ := cached.tree
  rw [findChild_eq, NameTree.child, cache_eq known]
  · rfl
  · intro c mem
    obtain ⟨e, here⟩ := tree.live cur _ (cache_eq known) c mem
    obtain ⟨y, here, _⟩ := dentries_of_cache here
    exact ⟨y, here⟩

lemma child_live (edge : v.cache.child cur name = some c) :
    ∃ y, v.dentries c = some y ∧ y.name = name := by
  obtain ⟨depth, tree⟩ := cached.tree
  obtain ⟨e, known, rfl⟩ := tree.child_live edge
  obtain ⟨y, here, named, _⟩ := dentries_of_cache known
  exact ⟨y, here, named⟩

lemma child_of_held (held : v.inodeOf d = some n) (above : v.inodeOf cur = some m)
    (edge : v.fs.child m name = some n) : v.cache.child cur name = some d := by
  obtain ⟨depth, ok⟩ := cached.fs
  have notRoot : d ≠ v.rootDentry := by
    intro isRoot
    rw [isRoot, cached.root] at held
    cases held
    exact ok.tree.child_ne_root edge rfl
  obtain ⟨x, known, _⟩ := dentries_of_inodeOf held
  obtain ⟨p, _, below⟩ := cached.parent d x known notRoot
  obtain ⟨m', above', edge'⟩ := cached.image p x.name d n below held
  obtain ⟨rfl, sameName⟩ := ok.tree.child_unique edge edge'
  -- the parents have the same inode, whose back-pointer names one dentry
  have sameParent : p = cur := by
    have here := cached.back p _ above'
    rw [cached.back cur _ above] at here
    exact (some.inj here).symm
  rw [← sameParent, ← sameName]
  exact below

lemma ne_fresh (known : v.dentries c = some x) (high : v.nextDentry ≤ d) : d ≠ c := by
  rintro rfl
  rw [cached.fresh d high] at known
  cases known

lemma inode_live (held : v.inodeOf d = some n) : ∃ z, v.fs.nodes n = some z := by
  obtain ⟨depth, ok⟩ := cached.fs
  obtain ⟨x, known, _⟩ := dentries_of_inodeOf held
  by_cases isRoot : d = v.rootDentry
  · rw [isRoot, cached.root] at held
    cases held
    exact ok.root_live
  · obtain ⟨p, _, below⟩ := cached.parent d x known isRoot
    obtain ⟨m, _, edge⟩ := cached.image p x.name d n below held
    obtain ⟨z, here, _⟩ := ok.child_live edge
    exact ⟨z, here⟩

end Cached

/-! ## Changes that keep the image -/

section Changes

variable (cached : v.Cached)
include cached

lemma Cached.reorder {lru : List DentryId} (nodup : lru.Nodup)
    (live : ∀ d ∈ lru, ∃ x, v.dentries d = some x) : Cached { v with lru := lru } :=
  { cached with nodup := nodup, live := live }

lemma Cached.lruTouch (known : v.dentries c = some y) : (v.lruTouch c).Cached := by
  refine cached.reorder ?_ ?_
  · exact nodup_cons.mpr ⟨cached.nodup.not_mem_erase, cached.nodup.erase c⟩
  · intro d mem
    rcases mem_cons.mp mem with rfl | old
    · exact ⟨y, known⟩
    · exact cached.live d (mem_of_mem_erase old)

lemma Cached.setFs {fs : Ramfs} (ok : ∃ depth, fs.Ok depth) (root : fs.root = v.fs.root)
    (edges : ∀ m name n, v.fs.child m name = some n → v.Holds n → fs.child m name = some n) :
    Cached { v with fs := fs } := by
  refine { cached with fs := ok, root := ?_, image := ?_ }
  · exact cached.root.trans (congrArg some root.symm)
  · intro d name c n below held
    obtain ⟨m, above, edge⟩ := cached.image d name c n below held
    exact ⟨m, above, edges m name n edge ⟨c, held⟩⟩

lemma Cached.replace {u : State} (known : v.dentries d = some x)
    (dentries : u.dentries = update v.dentries d (some y))
    (like : y.name = x.name ∧ y.parent = x.parent ∧ y.children = x.children) :
    u.cache = v.cache ∧
      (∀ d' z, u.dentries d' = some z → d' ≠ v.rootDentry →
        ∃ p, z.parent = some p ∧ v.cache.child p z.name = some d') ∧
      (∀ d', v.nextDentry ≤ d' → u.dentries d' = none) ∧
      ∀ d' ∈ v.lru, ∃ z, u.dentries d' = some z := by
  obtain ⟨name, parent, children⟩ := like
  have here : u.dentries d = some y := by rw [dentries, update_self]
  have there : ∀ d', d' ≠ d → u.dentries d' = v.dentries d' := by
    intro d' other
    rw [dentries, update_of_ne other]
  refine ⟨?_, fun d' z at' notRoot => ?_, fun d' high => ?_, fun d' mem => ?_⟩
  · funext d'
    rcases eq_or_ne d' d with rfl | other
    · rw [cache_eq here, cache_eq known, name, children]
    · rw [cache, cache, there d' other]
  · rcases eq_or_ne d' d with rfl | other
    · cases here.symm.trans at'
      rw [parent, name]
      exact cached.parent d' x known notRoot
    · exact cached.parent d' z ((there d' other).symm.trans at') notRoot
  · exact (there d' (cached.ne_fresh known high)).trans (cached.fresh d' high)
  · obtain ⟨z, was⟩ := cached.live d' mem
    rcases eq_or_ne d' d with rfl | other
    · exact ⟨_, here⟩
    · exact ⟨z, (there d' other).trans was⟩

lemma Cached.recount (known : v.dentries d = some x) (k : Nat) : Cached { v with
      dentries := update v.dentries d (some { x with refcount := k }) } := by
  set u : State := { v with
    dentries := update v.dentries d (some { x with refcount := k }) } with new
  have sameInode : u.inodeOf = v.inodeOf :=
    (comp_update (bind · Dentry.inode) v.dentries d _).trans
      (update_eq_self_iff.mpr (inodeOf_eq known).symm)
  have ⟨sameCache, parent, fresh, live⟩ :=
    cached.replace (u := u) known rfl ⟨rfl, rfl, rfl⟩
  refine ⟨cached.fs, ?_, ?_, ?_, ?_, ?_, ?_, fresh, cached.nodup, live⟩
  · rw [sameCache]
    exact cached.tree
  · rw [sameInode]
    exact cached.root
  · rw [sameCache]
    exact parent
  · rw [sameCache, sameInode]
    exact cached.image
  · rw [sameCache, sameInode]
    exact cached.leaf
  · rw [sameInode]
    exact cached.back

lemma Cached.bindInode (above : v.inodeOf cur = some m) (below : v.cache.child cur name = some c)
    (negative : v.inodeOf c = none) (known : v.dentries c = some y)
    (edge : v.fs.child m name = some n) :
    (v.bindInode c y n).Cached ∧ (v.bindInode c y n).inodeOf c = some n ∧
      ∀ d, d ≠ c → (v.bindInode c y n).inodeOf d = v.inodeOf d := by
  obtain ⟨depth, tree⟩ := cached.tree
  have ⟨sameCache, parent, fresh, live⟩ :=
    cached.replace (u := v.bindInode c y n) known rfl ⟨rfl, rfl, rfl⟩
  have hereInode : (v.bindInode c y n).inodeOf c = some n :=
    congrArg (bind · Dentry.inode) (update_self c _ v.dentries)
  have thereInode : ∀ d, d ≠ c → (v.bindInode c y n).inodeOf d = v.inodeOf d :=
    fun d other => congrArg (bind · Dentry.inode) (update_of_ne other ..)
  have positive : ∀ d k, v.inodeOf d = some k → d ≠ c := by
    rintro d k held rfl
    rw [negative] at held
    cases held
  refine ⟨⟨cached.fs, ?_, ?_, ?_, ?_, ?_, ?_, fresh, cached.nodup, live⟩, hereInode, thereInode⟩
  · rw [sameCache]
    exact cached.tree
  · exact (thereInode _ (positive _ _ cached.root)).trans cached.root
  · rw [sameCache]
    exact parent
  · intro d name' c' n' below' held
    rw [sameCache] at below'
    rcases eq_or_ne c' c with rfl | other
    · rw [hereInode] at held
      cases held
      obtain ⟨rfl, rfl⟩ := tree.child_unique below below'
      exact ⟨m, (thereInode _ (positive _ _ above)).trans above, edge⟩
    · rw [thereInode c' other] at held
      obtain ⟨m', above', edge'⟩ := cached.image d name' c' n' below' held
      exact ⟨m', (thereInode _ (positive _ _ above')).trans above', edge'⟩
  · intro d name' none'
    rw [sameCache]
    rcases eq_or_ne d c with rfl | other
    · exact cached.leaf d name' negative
    · exact cached.leaf d name' ((thereInode d other).symm.trans none')
  · intro d k held
    rcases eq_or_ne d c with rfl | other
    · rw [hereInode] at held
      cases held
      exact update_self ..
    rw [thereInode d other] at held
    have different : k ≠ n := by
      rintro rfl
      have := cached.child_of_held held above edge
      rw [below] at this
      exact other (some.inj this).symm
    exact (update_of_ne different ..).trans (cached.back d k held)

lemma Cached.addDentry (known : v.dentries cur = some x) (above : v.inodeOf cur = some m)
    (absent : v.cache.child cur name = none) (room : v.dentryTotal < maxDentries) :
    ∃ v' c, v.addDentry cur x name = .ok (v', c) ∧ v'.Cached ∧ v'.fs = v.fs ∧
      v'.dentryTotal = v.dentryTotal + 1 ∧ v'.inodeOf = v.inodeOf ∧ v'.inodeOf c = none ∧
      v'.cache.child cur name = some c := by
  have free := cached.fresh _ (Nat.le_refl v.nextDentry)
  obtain ⟨depth, tree⟩ := cached.tree
  have notNew : cur ≠ v.nextDentry := (cached.ne_fresh known (Nat.le_refl _)).symm
  let u : State := { v with
    dentries := update
      (update v.dentries v.nextDentry (some { name := name, inode := none, parent := some cur }))
      cur (some { x with children := v.nextDentry :: x.children })
    lru := v.nextDentry :: v.lru
    dentryTotal := v.dentryTotal + 1
    nextDentry := v.nextDentry + 1 }
  have atCur : u.dentries cur = some { x with children := v.nextDentry :: x.children } :=
    update_self ..
  have atNew : u.dentries v.nextDentry = some { name := name, inode := none, parent := some cur } :=
    (update_of_ne notNew.symm ..).trans (update_self ..)
  have there (d) (notCur : d ≠ cur) (notNext : d ≠ v.nextDentry) : u.dentries d = v.dentries d :=
    (update_of_ne notCur ..).trans (update_of_ne notNext ..)
  have linked : u.cache = v.cache.link cur { name := x.name, children := x.children }
      v.nextDentry name := by
    refine (comp_update (Option.map _) (update v.dentries v.nextDentry _) cur _).trans ?_
    rw [comp_update]
    rfl
  have sameInode : u.inodeOf = v.inodeOf := by
    funext d
    rcases eq_or_ne d cur with rfl | notCur
    · exact (inodeOf_eq atCur).trans (inodeOf_eq known).symm
    · rcases eq_or_ne d v.nextDentry with rfl | notNext
      · exact (inodeOf_eq atNew).trans (inodeOf_none free).symm
      · exact congrArg (bind · Dentry.inode) (there d notCur notNext)
  have edges : ∀ {d name' c}, u.cache.child d name' = some c ↔
      v.cache.child d name' = some c ∨ d = cur ∧ name' = name ∧ c = v.nextDentry := by
    intro d name' c
    rw [linked]
    exact tree.child_link (cache_none free) (cache_eq known) absent
  have newNegative : u.inodeOf v.nextDentry = none := inodeOf_eq atNew
  refine ⟨u, _, if_neg (Nat.not_lt.mpr room), ⟨cached.fs, ?_, ?_, ?_, ?_, ?_, ?_, ?_, ?_, ?_⟩, rfl,
    rfl, sameInode, newNegative, edges.mpr (.inr ⟨rfl, rfl, rfl⟩)⟩
  · rw [linked]
    exact ⟨_, tree.link (cache_none free) (cache_eq known) absent (Nat.lt_succ_self _)⟩
  · rw [sameInode]
    exact cached.root
  · intro d z at' notRoot
    rcases eq_or_ne d cur with rfl | notCur
    · cases atCur.symm.trans at'
      obtain ⟨p, parent, below⟩ := cached.parent d x known notRoot
      exact ⟨p, parent, edges.mpr (.inl below)⟩
    rcases eq_or_ne d v.nextDentry with rfl | notNext
    · cases atNew.symm.trans at'
      exact ⟨cur, rfl, edges.mpr (.inr ⟨rfl, rfl, rfl⟩)⟩
    · obtain ⟨p, parent, below⟩ :=
        cached.parent d z ((there d notCur notNext).symm.trans at') notRoot
      exact ⟨p, parent, edges.mpr (.inl below)⟩
  · intro d name' c n below held
    rw [sameInode] at held ⊢
    rcases edges.mp below with old | ⟨rfl, rfl, rfl⟩
    · exact cached.image d name' c n old held
    · rw [inodeOf_none free] at held
      cases held
  · intro d name' negative
    rw [sameInode] at negative
    cases below : u.cache.child d name' with
    | none => rfl
    | some c =>
      rcases edges.mp below with old | ⟨rfl, _⟩
      · rw [cached.leaf d name' negative] at old
        cases old
      · rw [above] at negative
        cases negative
  · rw [sameInode]
    exact cached.back
  · intro d high
    have above : v.nextDentry < d := high
    have unused := Nat.le_of_lt above
    exact (there d (cached.ne_fresh known unused) (Nat.ne_of_gt above)).trans
      (cached.fresh d unused)
  · refine nodup_cons.mpr ⟨fun mem => ?_, cached.nodup⟩
    obtain ⟨z, was⟩ := cached.live _ mem
    cases free.symm.trans was
  · intro d mem
    rcases eq_or_ne d cur with rfl | notCur
    · exact ⟨_, atCur⟩
    · rcases eq_or_ne d v.nextDentry with rfl | notNext
      · exact ⟨_, atNew⟩
      · obtain ⟨z, was⟩ := cached.live d ((mem_cons.mp mem).resolve_left notNext)
        exact ⟨z, (there d notCur notNext).trans was⟩

end Changes

/-! ## The lookup -/

/-- What a component of a lookup does: it reaches the node found, and no other node gets a
dentry. -/
structure Reached (v v' : State) (found : Option NodeId) (r : Option DentryId) : Prop where
  cached : v'.Cached
  fs : v'.fs = v.fs
  total : v'.dentryTotal ≤ v.dentryTotal + 1
  result : r.bind v'.inodeOf = found ∧ (found = none → r = none)
  holds : ∀ n, v'.Holds n → v.Holds n ∨ found = some n

lemma Cached.askFs (cached : v.Cached) (above : v.inodeOf cur = some m)
    (below : v.cache.child cur name = some c) (negative : v.inodeOf c = none) :
    ∃ v' r, v.askFs (some m) c = .ok (v', r) ∧ Reached v v' (v.fs.child m name) r ∧
      v'.dentryTotal = v.dentryTotal := by
  obtain ⟨depth, ok⟩ := cached.fs
  obtain ⟨y, known, rfl⟩ := cached.child_live below
  obtain ⟨z, node⟩ := cached.inode_live above
  unfold State.askFs
  rw [dentry_eq known]
  simp only [Except.bind, Ramfs.node_eq node]
  have unchanged : v.fs.child m y.name = none → Reached v v (v.fs.child m y.name) none :=
    fun absent => ⟨cached, rfl, Nat.le_succ _, ⟨absent.symm, fun _ => rfl⟩, fun _ held => .inl held⟩
  cases isDir : z.isDir with
  | false =>
    exact ⟨v, none, rfl, unchanged (ok.child_file node isDir), rfl⟩
  | true =>
    rw [if_pos rfl, ok.lookup_eq node]
    cases found : v.fs.child m y.name with
    | none => exact ⟨v, none, rfl, found ▸ unchanged found, rfl⟩
    | some n =>
      obtain ⟨bound, here, there⟩ := cached.bindInode above below negative known found
      refine ⟨_, _, rfl, ⟨bound, rfl, Nat.le_succ _, ⟨here, nofun⟩, ?_⟩, rfl⟩
      intro k ⟨d, held⟩
      rcases eq_or_ne d c with rfl | other
      · exact .inr (here.symm.trans held)
      · exact .inl ⟨d, (there d other).symm.trans held⟩

/-- One component: the dentry reached has the inode that ramfs has there, unless the cache is
full. -/
lemma Cached.lookupStep (cached : v.Cached) (above : v.inodeOf cur = some m) :
    (∃ v' r, v.lookupStep cur name = .ok (v', r) ∧ Reached v v' (v.fs.child m name) r) ∨
      v.lookupStep cur name = .error .deadlock ∧ maxDentries ≤ v.dentryTotal := by
  obtain ⟨x, known, inode⟩ := dentries_of_inodeOf above
  unfold State.lookupStep
  rw [dentry_eq known]
  simp only [Except.bind, cached.findChild known, inode]
  cases below : v.cache.child cur name with
  | none =>
    by_cases room : v.dentryTotal < maxDentries
    · obtain ⟨u, c, ran, added, sameFs, total, sameInode, negative, edge⟩ :=
        cached.addDentry known above below room
      obtain ⟨v', r, asked, reached, total'⟩ :=
        added.askFs ((congrFun sameInode cur).trans above) edge negative
      refine .inl ⟨v', r, ?_, reached.cached, reached.fs.trans sameFs, ?_, ?_, ?_⟩
      · simp only [ensureChild, ran]
        exact asked
      · exact Nat.le_of_eq (total'.trans total)
      · exact sameFs ▸ reached.result
      · intro n held
        rcases reached.holds n held with ⟨d, old⟩ | found
        · exact .inl ⟨d, (congrFun sameInode d).symm.trans old⟩
        · exact .inr (sameFs ▸ found)
    · refine .inr ⟨?_, Nat.le_of_not_lt room⟩
      simp only [Option.elim, ensureChild, State.addDentry]
      rw [if_pos (by omega)]
  | some c =>
    obtain ⟨y, here, named⟩ := cached.child_live below
    have inodeHere := inodeOf_eq here
    simp only [Option.elim, dentry_eq here, Except.map]
    cases inode' : y.inode with
    | none =>
      obtain ⟨v', r, asked, reached, _⟩ :=
        cached.askFs above below (inodeHere.trans inode')
      exact .inl ⟨v', r, asked, reached⟩
    | some n =>
      have held := inodeHere.trans inode'
      obtain ⟨m', above', edge⟩ := cached.image cur name c n below held
      rw [above] at above'
      cases above'
      exact .inl ⟨_, _, rfl, cached.lruTouch here, rfl, Nat.le_succ _,
        ⟨held.trans edge.symm, fun none' => by cases edge.symm.trans none'⟩,
        fun n' held' => .inl held'⟩

end State

namespace Ramfs

variable {fs : Ramfs} {depth : NodeId → Nat} {m n : NodeId}

lemma Ok.walkFrom_depth (ok : fs.Ok depth) {ts : List Name} (walk : fs.walkFrom m ts = some n) :
    depth m ≤ depth n := by
  induction ts generalizing m with
  | nil => cases walk; exact Nat.le_refl _
  | cons t ts ih =>
    unfold walkFrom at walk
    split at walk
    · cases walk
    split at walk
    · cases walk
    · split at walk
      · exact ih walk
      · obtain ⟨c, edge, rest⟩ := bind_eq_some_iff.mp walk
        exact Nat.le_trans (Nat.le_of_lt (ok.tree.child_depth edge)) (ih rest)

end Ramfs

namespace State

variable {v : State} {cur : DentryId} {m n : NodeId}

/-- What a lookup does: it finds what the walk finds, and only nodes on the way get a dentry. -/
structure LookedUp (v v' : State) (found : Option NodeId) : Prop where
  cached : v'.Cached
  fs : v'.fs = v.fs
  holds : ∀ depth, v.fs.Ok depth → ∀ n, v'.Holds n →
    v.Holds n ∨ ∀ m, found = some m → depth n ≤ depth m

lemma LookedUp.refl (cached : v.Cached) (found : Option NodeId) : LookedUp v v found :=
  ⟨cached, rfl, fun _ _ _ held => .inl held⟩

lemma Cached.lookupFrom (cached : v.Cached) (above : v.inodeOf cur = some m) (ts : List Name) :
    (∃ v', v.lookupFrom cur ts = .ok (v', v.fs.walkFrom m ts) ∧
        LookedUp v v' (v.fs.walkFrom m ts)) ∨
      v.lookupFrom cur ts = .error .deadlock ∧ maxDentries < v.dentryTotal + ts.length := by
  induction ts generalizing v cur m with
  | nil =>
    obtain ⟨x, known, inode⟩ := dentries_of_inodeOf above
    refine .inl ⟨v, ?_, .refl cached _⟩
    rw [State.lookupFrom, dentry_eq known, Ramfs.walkFrom, ← inode]
    rfl
  | cons t ts ih =>
    unfold State.lookupFrom Ramfs.walkFrom
    split
    · exact .inl ⟨v, rfl, .refl cached _⟩
    split
    · exact .inl ⟨v, rfl, .refl cached _⟩
    split
    · rcases ih cached above with found | ⟨stuck, full⟩
      · exact .inl found
      · exact .inr ⟨stuck, Nat.lt_trans full (Nat.lt_succ_self _)⟩
    rcases @Cached.lookupStep v cur m t cached above with
      ⟨u, r, ran, reached⟩ | ⟨stuck, full⟩
    · rw [ran]
      obtain ⟨result, missing⟩ := reached.result
      cases edge : v.fs.child m t with
      | none =>
        rw [missing edge]
        refine .inl ⟨u, rfl, reached.cached, reached.fs, ?_⟩
        intro depth ok n held
        exact .inr nofun
      | some c =>
        rw [edge] at result
        obtain ⟨d, rfl, inode⟩ := bind_eq_some_iff.mp result
        rw [bind_some, ← reached.fs]
        rcases ih reached.cached inode with ⟨v', rest, looked⟩ | ⟨stuck, full⟩
        · refine .inl ⟨v', rest, looked.cached, looked.fs.trans reached.fs, ?_⟩
          intro depth ok n held
          rcases looked.holds depth (reached.fs ▸ ok) n held with old | deep
          · rcases reached.holds n old with old | new
            · exact .inl old
            · rw [edge] at new
              cases new
              rw [reached.fs]
              exact .inr fun m' walk => ok.walkFrom_depth walk
          · exact .inr deep
        · refine .inr ⟨stuck, ?_⟩
          have := reached.total
          rw [length_cons]
          omega
    · refine .inr ⟨by rw [stuck]; rfl, ?_⟩
      rw [length_cons]
      omega

lemma Cached.lookup (cached : v.Cached) (path : Name) :
    (∃ v', v.lookup path = .ok (v', v.fs.walk path) ∧ LookedUp v v' (v.fs.walk path)) ∨
      v.lookup path = .error .deadlock ∧
        maxDentries < v.dentryTotal + (tokens path.tail).length := by
  unfold State.lookup Ramfs.walk
  split
  · exact cached.lookupFrom cached.root _
  · exact .inl ⟨v, rfl, .refl cached _⟩

lemma Cached.lookup_ok (cached : v.Cached) {path : Name} {v' : State} {r : Option NodeId}
    (ran : v.lookup path = .ok (v', r)) :
    r = v.fs.walk path ∧ LookedUp v v' (v.fs.walk path) := by
  rcases cached.lookup path with ⟨u, ran', looked⟩ | ⟨stuck, _⟩
  · rw [ran] at ran'
    cases ran'
    exact ⟨rfl, looked⟩
  · rw [ran] at stuck
    cases stuck

end State

end AuroraOS.Vfs
