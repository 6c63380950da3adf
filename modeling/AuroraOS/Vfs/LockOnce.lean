import AuroraOS.Lib.Outcome
import AuroraOS.Vfs.Lock

/-!
# The lock of the dentry cache is taken once

As long as there is room for the dentries of the components that are not cached, `dentry_alloc` does
not evict, and no call takes the lock while it holds it.
-/

namespace AuroraOS.Vfs.Lock

open Lib Function List Option Cache
open Vfs (Name NodeId DentryId Dentry Trouble slash dot maxDentries)
open Vfs.State (tokens lastSlash splitLast)

/-! ## The dentries a path needs -/

namespace Cache

variable (v : Cache)

def child (d : DentryId) (name : Name) : Option DentryId :=
  match v.dentryLookupChild d name with
  | .ok c => c
  | .error _ => none

def components (ts : List Name) : Nat := ts.countP (· ≠ [dot])

/-- How many components, from the first one that is not cached on, are below `d`. -/
def missingFrom (d : DentryId) : List Name → Nat
  | [] => 0
  | t :: ts =>
    if t = [dot] then missingFrom d ts
    else
      match v.child d t with
      | some c => missingFrom c ts
      | none => components (t :: ts)

def missing (path : Name) : Nat :=
  match v.root with
  | none => 0
  | some root =>
    if path.head? = some slash ∧ path.length ≤ 4096 then v.missingFrom root (tokens path.tail)
    else 0

def missingParent (path : Name) : Nat := ((parentPath path).map v.missing).getD 0

end Cache

/-- There is room for the dentries of the components that are not cached. -/
def Call.Roomy (v : Cache) : Call → Prop
  | .mount _ _ => v.total + 1 ≤ maxDentries
  | .lookup path | .openFile path | .chmod path => v.total + v.missing path ≤ maxDentries
  | .mkdir path | .rmdir path | .unlink path => v.total + v.missingParent path ≤ maxDentries
  | .rename oldPath newPath =>
    v.total + v.missingParent oldPath + v.missingParent newPath ≤ maxDentries
  | .mountRoot _ | .evict | .close _ | .transfer => True

instance (v : Cache) : (call : Call) → Decidable (call.Roomy v)
  | .mount _ _ | .lookup _ | .openFile _ | .chmod _ | .mkdir _ | .rmdir _ | .unlink _
  | .rename _ _ => inferInstanceAs (Decidable (_ ≤ _))
  | .mountRoot _ | .evict | .close _ | .transfer => inferInstanceAs (Decidable True)

/-! ## What is cached stays cached -/

/-- No dentry has an address that is not handed out yet. -/
def Cache.Fresh (v : Cache) : Prop := ∀ d, v.next ≤ d → v.dentries d = none

def Extends (v v' : Cache) : Prop := ∀ d t c, v.child d t = some c → v'.child d t = some c

structure Grown (v v' : Cache) (k : Nat) : Prop where
  fresh : v'.Fresh
  cached : Extends v v'
  total : v'.total ≤ v.total + k
  root : v'.root = v.root

section

variable {v v' v'' : Cache} {d : DentryId} {x : Dentry}

lemma dentry_of_ok (read : v.dentry d = .ok x) : v.dentries d = some x := by
  unfold dentry at read
  split at read
  · cases read
    assumption
  · cases read

lemma dentry_of_some (known : v.dentries d = some x) : v.dentry d = .ok x := by
  rw [dentry, known]

lemma dentry_avoids (v : Cache) (d : DentryId) :
    Avoids .deadlock (v.dentry d) fun x => v.dentries d = some x := by
  unfold dentry
  split
  · exact .ok ‹_›
  · exact .error nofun

lemma Extends.refl (v : Cache) : Extends v v := fun _ _ _ => id

lemma Extends.trans (first : Extends v v') (second : Extends v' v'') : Extends v v'' :=
  fun d t c is => second d t c (first d t c is)

lemma Grown.refl (fresh : v.Fresh) : Grown v v 0 := ⟨fresh, .refl v, Nat.le_refl _, rfl⟩

lemma Grown.trans {k l : Nat} (first : Grown v v' k) (second : Grown v' v'' l) :
    Grown v v'' (k + l) where
  fresh := second.fresh
  cached := first.cached.trans second.cached
  total := by
    have one := first.total
    have two := second.total
    omega
  root := second.root.trans first.root

lemma Grown.mono {k l : Nat} (grown : Grown v v' k) (le : k ≤ l) : Grown v v' l :=
  ⟨grown.fresh, grown.cached, Nat.le_trans grown.total (Nat.add_le_add_left le _), grown.root⟩

lemma findChild_keep
    (names : ∀ d x, v.dentries d = some x → ∃ x', v'.dentries d = some x' ∧ x'.name = x.name)
    {t : Name} {cs : List DentryId} {r : Option DentryId} (found : v.findChild t cs = .ok r) :
    v'.findChild t cs = .ok r := by
  induction cs with
  | nil => exact found
  | cons c rest ih =>
    obtain ⟨x, read, found⟩ := bind_ok found
    obtain ⟨x', known, same⟩ := names c x (dentry_of_ok read)
    rw [findChild, dentry_of_some known]
    simp only [bind, Except.bind, same]
    split at found
    · rw [if_pos ‹_›, found]
    · rw [if_neg ‹_›, ih found]

lemma findChild_avoids (v : Cache) (t : Name) (cs : List DentryId) :
    Avoids .deadlock (v.findChild t cs) fun _ => True := by
  induction cs with
  | nil => exact .ok trivial
  | cons c rest ih =>
    exact (dentry_avoids v c).bind fun x _ => .ite (fun _ => .ok trivial) fun _ => ih

lemma dentryLookupChild_locked (v : Cache) (locked : Bool) (d : DentryId) (t : Name) :
    { v with locked := locked }.dentryLookupChild d t = v.dentryLookupChild d t := by
  have search (cs : List DentryId) :
      { v with locked := locked }.findChild t cs = v.findChild t cs := by
    induction cs with
    | nil => rfl
    | cons c rest ih =>
      rw [findChild, findChild, ih]
      rfl
  unfold dentryLookupChild
  simp only [search]
  rfl

lemma dentryLookupChild_avoids (v : Cache) (d : DentryId) (t : Name) :
    Avoids .deadlock (v.dentryLookupChild d t) fun r => v.child d t = r := by
  have avoids : Avoids .deadlock (v.dentryLookupChild d t) fun _ => True :=
    (dentry_avoids v d).bind fun x _ => findChild_avoids v t x.children
  exact avoids.and_eq.mono fun r ⟨found, _⟩ => by rw [child, found]

/-- Every live dentry keeps its name, and its children except for a new one in front, whose name
was not there. -/
lemma Extends.of_dentries
    (kept : ∀ d x, v.dentries d = some x → ∃ x', v'.dentries d = some x' ∧ x'.name = x.name ∧
      (x'.children = x.children ∨
        ∃ new y, x'.children = new :: x.children ∧ v'.dentries new = some y ∧
          v.child d y.name = none)) : Extends v v' := by
  intro d t c is
  have names : ∀ d x, v.dentries d = some x → ∃ x', v'.dentries d = some x' ∧ x'.name = x.name := by
    intro d x known
    obtain ⟨x', known', same, _⟩ := kept d x known
    exact ⟨x', known', same⟩
  have found : v.dentryLookupChild d t = .ok (some c) := by
    rw [child] at is
    split at is
    · rw [← is]
      assumption
    · cases is
  obtain ⟨x, read, search⟩ := bind_ok found
  obtain ⟨x', known', _, children⟩ := kept d x (dentry_of_ok read)
  have search' : v'.findChild t x'.children = .ok (some c) := by
    rcases children with same | ⟨new, y, front, live, absent⟩
    · rw [same]
      exact findChild_keep names search
    have other : y.name ≠ t := by
      rintro rfl
      rw [is] at absent
      cases absent
    rw [front, findChild, dentry_of_some live]
    simp only [bind, Except.bind, if_neg other]
    exact findChild_keep names search
  rw [child, dentryLookupChild, dentry_of_some known']
  simp only [bind, Except.bind, search']

variable (fresh : v.Fresh)
include fresh

lemma Grown.of_dentries_eq (dentries : v'.dentries = v.dentries)
    (next : v'.next = v.next) (total : v'.total = v.total) (root : v'.root = v.root) :
    Grown v v' 0 where
  fresh := by
    intro d high
    rw [dentries]
    exact fresh d (next ▸ high)
  cached := .of_dentries fun d x known => ⟨x, by rw [dentries, known], rfl, .inl rfl⟩
  total := Nat.le_of_eq total
  root := root

lemma live_of_fresh (known : v.dentries d = some x) : d < v.next := by
  by_contra high
  rw [fresh d (Nat.le_of_not_lt high)] at known
  cases known

lemma fresh_update (known : v.dentries d = some x) (y : Option Dentry) :
    ∀ e, v.next ≤ e → update v.dentries d y e = none := by
  intro e high
  have other : e ≠ d := by
    rintro rfl
    exact absurd (live_of_fresh fresh known) (Nat.not_lt.mpr high)
  exact (update_of_ne other _ _).trans (fresh e high)

lemma modify_avoids (d : DentryId) {f : Dentry → Dentry}
    (name : ∀ x, (f x).name = x.name) (children : ∀ x, (f x).children = x.children) :
    Avoids .deadlock (v.modify d f) fun v' => v'.locked = v.locked ∧ Grown v v' 0 := by
  refine (dentry_avoids v d).bind fun x known =>
    .ok ⟨rfl, fresh_update fresh known _, .of_dentries ?_, Nat.le_refl _, rfl⟩
  intro e y knownToo
  rcases eq_or_ne e d with rfl | other
  · rw [known] at knownToo
    cases knownToo
    exact ⟨f x, update_self .., name x, .inl (children x)⟩
  · exact ⟨y, (update_of_ne other _ _).trans knownToo, rfl, .inl rfl⟩

omit fresh in
lemma lock_bind {α : Type} {f : Cache → Except Trouble α} {P : α → Prop}
    (unlocked : v.locked = false) (rest : Avoids .deadlock (f { v with locked := true }) P) :
    Avoids .deadlock (v.vfsLock >>= f) P := by
  rw [vfsLock, unlocked, if_neg Bool.false_ne_true]
  exact rest

lemma grown_lock (locked : Bool) : Grown v { v with locked := locked } 0 :=
  .of_dentries_eq fresh rfl rfl rfl rfl

lemma grown_newDentry (name : Name) (parent : Option DentryId) :
    Grown v (v.newDentry name parent) 1 where
  fresh := by
    intro d high
    have other : d ≠ v.next := Nat.ne_of_gt high
    exact (update_of_ne other _ _).trans (fresh d (Nat.le_of_lt high))
  cached := .of_dentries fun d x known => by
    have other : d ≠ v.next := Nat.ne_of_lt (live_of_fresh fresh known)
    exact ⟨x, (update_of_ne other _ _).trans known, rfl, .inl rfl⟩
  total := Nat.le_refl _
  root := rfl

omit fresh

lemma dentryAlloc_of_room (fs : Fs) (room : v.total < maxDentries) (name : Name)
    (parent : Option DentryId) :
    v.dentryAlloc fs name parent =
      .ok (if fs.memory v.next then (v.newDentry name parent, some v.next) else (v, none)) := by
  have few : ¬maxDentries < (v.newDentry name parent).total := Nat.not_lt.mpr room
  unfold dentryAlloc evictIfLarge
  cases fs.memory v.next with
  | false => rfl
  | true =>
    simp only [if_neg few]
    rfl

variable {cur : DentryId} {name : Name}

lemma newChild_avoids (fresh : v.Fresh) (absent : v.dentryLookupChild cur name = .ok none) :
    Avoids .deadlock ((v.newDentry name (some cur)).dentryAddChild cur v.next) fun v' =>
      v'.locked = v.locked ∧ Grown v v' 1 := by
  have grown := grown_newDentry fresh name (some cur)
  have unknown : v.child cur name = none := by
    rw [child, absent]
  obtain ⟨x, read, _⟩ := bind_ok absent
  have known := dentry_of_ok read
  have apart : cur ≠ v.next := Nat.ne_of_lt (live_of_fresh fresh known)
  refine (dentry_avoids _ cur).bind fun x' known' => ?_
  refine .ok ⟨rfl, fresh_update grown.fresh known' _, .of_dentries ?_, grown.total, rfl⟩
  have same : x' = x := by
    have kept := (update_of_ne apart _ _).symm.trans known'
    rw [known] at kept
    exact (some.inj kept).symm
  intro d y knownToo
  rcases eq_or_ne d cur with rfl | other
  · rw [known] at knownToo
    cases knownToo
    refine ⟨_, update_self .., by rw [same], .inr
      ⟨v.next, { name := name, inode := none, parent := some d }, by rw [same], ?_, unknown⟩⟩
    exact (update_of_ne apart.symm _ _).trans (update_self ..)
  · have old : d ≠ v.next := Nat.ne_of_lt (live_of_fresh fresh knownToo)
    refine ⟨y, ?_, rfl, .inl rfl⟩
    exact (update_of_ne other _ _).trans ((update_of_ne old _ _).trans knownToo)

/-! ## Lookup -/

lemma ensureChild_avoids (fs : Fs) (fresh : v.Fresh)
    {child : Option DentryId} (found : v.dentryLookupChild cur name = .ok child)
    (room : child = none → v.total < maxDentries) :
    Avoids .deadlock (v.ensureChild fs cur name child) fun r =>
      r.1.locked = v.locked ∧ Grown v r.1 (if child = none then 1 else 0) ∧
      ∀ c, child = some c → r.2 = some c := by
  cases child with
  | some c => exact .ok ⟨rfl, .refl fresh, fun _ is => is⟩
  | none =>
    unfold ensureChild
    rw [dentryAlloc_of_room fs (room rfl)]
    cases fs.memory v.next with
    | false => exact .ok ⟨rfl, (Grown.refl fresh).mono (Nat.zero_le _), nofun⟩
    | true =>
      refine (newChild_avoids fresh found).bind fun v' grown => ?_
      exact .ok ⟨grown.1, grown.2, nofun⟩

lemma resolve_avoids (fs : Fs) (fresh : v.Fresh) (cur child : DentryId) (name : Name) :
    Avoids .deadlock (v.resolve fs cur child name) fun r =>
      r.1.locked = false ∧ Grown v r.1 0 ∧ ∀ c, r.2 = some c → c = child := by
  unfold resolve
  refine .bind (modify_avoids fresh cur (fun _ => rfl) fun _ => rfl) fun v₁ ⟨_, held⟩ => ?_
  have free := grown_lock held.fresh false
  refine (dentry_avoids v₁.vfsUnlock cur).bind fun x _ => ?_
  have answered (answer : Option NodeId) : Avoids .deadlock (v₁.vfsUnlock.setAnswer child answer)
      fun v₂ => v₂.locked = false ∧ Grown v₁.vfsUnlock v₂ 0 := by
    cases answer with
    | some n => exact modify_avoids free.fresh child (fun _ => rfl) fun _ => rfl
    | none => exact .ok ⟨rfl, .refl free.fresh⟩
  refine (answered _).bind fun v₂ ⟨unlocked, asked⟩ => ?_
  refine lock_bind unlocked ?_
  have again := grown_lock asked.fresh true
  refine .bind (modify_avoids again.fresh cur (fun _ => rfl) fun _ => rfl) fun v₄ ⟨_, back⟩ => ?_
  have grown := (((held.trans free).trans asked).trans again).trans back
  refine (dentry_avoids v₄ child).bind fun y _ => ?_
  split
  · exact .ok ⟨rfl, grown.trans (grown_lock back.fresh false), nofun⟩
  · rename_i n _
    have bound : Grown v₄ { v₄ with
        inodeDentry := update v₄.inodeDentry n (some child), locked := false } 0 :=
      .of_dentries_eq back.fresh rfl rfl rfl rfl
    exact .ok ⟨rfl, grown.trans bound, fun c is => (some.inj is).symm⟩

lemma lookupStep_avoids (fs : Fs) (unlocked : v.locked = false) (fresh : v.Fresh)
    (room : v.child cur name = none → v.total < maxDentries) :
    Avoids .deadlock (v.lookupStep fs cur name) fun r =>
      r.1.locked = false ∧ Grown v r.1 (if v.child cur name = none then 1 else 0) ∧
      ∀ c c', r.2 = some c → v.child cur name = some c' → c = c' := by
  unfold lookupStep
  refine lock_bind unlocked ?_
  have held := grown_lock fresh true
  rw [dentryLookupChild_locked]
  refine (dentryLookupChild_avoids v cur name).and_eq.bind fun child ⟨found, cached⟩ => ?_
  rw [cached] at room ⊢
  rw [← dentryLookupChild_locked v true] at found
  have inode : Avoids .deadlock ({ v with locked := true }.childInode child) fun _ => True := by
    cases child with
    | some c => exact .map ((dentry_avoids _ c).mono fun _ _ => trivial)
    | none => exact .ok trivial
  refine inode.bind fun n _ => ?_
  split
  · refine .ok ⟨rfl, .of_dentries_eq fresh rfl rfl rfl rfl, fun a b one two => ?_⟩
    rw [some.inj one.symm, some.inj two]
  refine (ensureChild_avoids fs held.fresh found room).bind fun ⟨w, d⟩ ⟨_, grown, same⟩ => ?_
  have sofar := held.trans grown
  cases d with
  | none => exact .ok ⟨rfl, (sofar.trans (grown_lock grown.fresh false)).mono (by omega), nofun⟩
  | some new =>
    refine (resolve_avoids fs grown.fresh cur new name).mono fun r ⟨free, last, reached⟩ => ?_
    refine ⟨free, (sofar.trans last).mono (by omega), fun a b one two => ?_⟩
    rw [reached a one]
    exact some.inj (same b two)

lemma missingFrom_le (ts : List Name) (d : DentryId) :
    v.missingFrom d ts ≤ components ts := by
  induction ts generalizing d with
  | nil => exact Nat.le_refl _
  | cons t ts ih =>
    have longer : components ts ≤ components (t :: ts) := by
      unfold components
      rw [countP_cons]
      exact Nat.le_add_right _ _
    unfold missingFrom
    split
    · exact Nat.le_trans (ih d) longer
    · split
      · exact Nat.le_trans (ih _) longer
      · exact Nat.le_refl _

lemma missingFrom_mono (cached : Extends v v') (ts : List Name) (d : DentryId) :
    v'.missingFrom d ts ≤ v.missingFrom d ts := by
  induction ts generalizing d with
  | nil => exact Nat.le_refl _
  | cons t ts ih =>
    unfold missingFrom
    split
    · exact ih d
    cases below : v.child d t with
    | some c =>
      rw [cached d t c below]
      exact ih c
    | none =>
      have all : v'.missingFrom d (t :: ts) ≤ components (t :: ts) :=
        missingFrom_le (t :: ts) d
      rw [missingFrom, if_neg ‹_›] at all
      exact all

lemma lookupFrom_avoids (fs : Fs) (ts : List Name) (unlocked : v.locked = false)
    (fresh : v.Fresh) (room : v.total + v.missingFrom cur ts ≤ maxDentries) :
    Avoids .deadlock (v.lookupFrom fs cur ts) fun r =>
      r.1.locked = false ∧ Grown v r.1 (v.missingFrom cur ts) := by
  induction ts generalizing v cur with
  | nil =>
    exact .map ((dentry_avoids v cur).mono fun _ _ => ⟨unlocked, .refl fresh⟩)
  | cons t ts ih =>
    have stops : Avoids Trouble.deadlock (.ok (v, none)) fun r : Cache × Option NodeId =>
        r.1.locked = false ∧ Grown v r.1 (v.missingFrom cur (t :: ts)) :=
      .ok ⟨unlocked, (Grown.refl fresh).mono (Nat.zero_le _)⟩
    unfold lookupFrom
    refine .ite (fun _ => stops) fun _ => .ite (fun _ => stops) fun _ => .ite (fun here => ?_) fun
      down => ?_
    · rw [missingFrom, if_pos here] at room ⊢
      exact ih unlocked fresh room
    have one : components (t :: ts) = components ts + 1 := by
      unfold components
      rw [countP_cons_of_pos (by simpa using down)]
    rw [missingFrom, if_neg down] at room ⊢
    have needs : v.child cur t = none → v.total < maxDentries := by
      intro absent
      rw [absent] at room
      dsimp only at room
      omega
    refine (lookupStep_avoids fs unlocked fresh needs).bind fun ⟨w, d⟩ ⟨free, grown, same⟩ => ?_
    -- What the step has added and what is missing behind it was missing before.
    have left : ∀ c, d = some c →
        (if v.child cur t = none then 1 else 0) + w.missingFrom c ts ≤ match v.child cur t with
          | some c => v.missingFrom c ts
          | none => components (t :: ts) := by
      intro c is
      cases below : v.child cur t with
      | some c' =>
        rw [same c c' is below, if_neg nofun, Nat.zero_add]
        exact missingFrom_mono grown.cached ts c'
      | none =>
        have rest : w.missingFrom c ts ≤ components ts := missingFrom_le ts c
        rw [if_pos rfl]
        dsimp only
        omega
    cases d with
    | none =>
      refine .ok ⟨free, grown.mono ?_⟩
      split
      · rename_i absent
        rw [absent]
        dsimp only
        omega
      · exact Nat.zero_le _
    | some c =>
      have total : w.total ≤ v.total + _ := grown.total
      have behind := left c rfl
      have enough : w.total + w.missingFrom c ts ≤ maxDentries := by omega
      refine (ih free grown.fresh enough).mono fun r ⟨freeToo, more⟩ => ?_
      exact ⟨freeToo, (grown.trans more).mono behind⟩

/-! ## Eviction -/

lemma modify_keeps (fresh : v.Fresh) (d : DentryId) (f : Dentry → Dentry) :
    Avoids .deadlock (v.modify d f) fun v' => v'.locked = v.locked ∧ v'.Fresh :=
  (dentry_avoids v d).bind fun _ known => .ok ⟨rfl, fresh_update fresh known _⟩

lemma evictOne_keeps (fresh : v.Fresh) (d : DentryId) (x : Dentry) :
    Avoids .deadlock (v.evictOne d x) fun v' => v'.locked = v.locked ∧ v'.Fresh := by
  have unlinked : { v with lru := v.lru.erase d }.Fresh := fresh
  have removed : Avoids .deadlock ({ v with lru := v.lru.erase d }.dentryRemoveChild d x)
      fun v' => v'.locked = v.locked ∧ v'.Fresh := by
    unfold dentryRemoveChild
    split
    · exact .ok ⟨rfl, unlinked⟩
    · exact modify_keeps unlinked _ _
  refine removed.bind fun v' ⟨same, freshToo⟩ => .ok ⟨same, fun e high => ?_⟩
  rcases eq_or_ne e d with rfl | other
  · exact update_self ..
  · exact (update_of_ne other _ _).trans (freshToo e high)

lemma evictLoop_keeps (ds : List DentryId) (k : Nat) (fresh : v.Fresh) :
    Avoids .deadlock (evictLoop ds k v) fun v' => v'.locked = v.locked ∧ v'.Fresh := by
  induction ds generalizing k v with
  | nil => exact .ok ⟨rfl, fresh⟩
  | cons d rest ih =>
    cases k with
    | zero => exact .ok ⟨rfl, fresh⟩
    | succ k =>
      refine (dentry_avoids v d).bind fun x _ => .ite (fun _ => ih (k + 1) fresh) fun _ => ?_
      refine (evictOne_keeps fresh d x).bind fun v' ⟨same, freshToo⟩ => ?_
      exact (ih k freshToo).mono fun w ⟨sameToo, last⟩ => ⟨sameToo.trans same, last⟩

end

/-! ## Runs -/

structure Idle (v : Cache) : Prop where
  unlocked : v.locked = false
  fresh : v.Fresh

section

variable {v : Cache} {fs : Fs}

variable (idle : Idle v)
include idle

lemma Idle.lookup {path : Name} (room : v.total + v.missing path ≤ maxDentries) :
    Avoids .deadlock (v.vfsLookup fs path) fun r => Idle r.1 ∧ Grown v r.1 (v.missing path) := by
  have stops : Avoids Trouble.deadlock (.ok (v, none)) fun r : Cache × Option NodeId =>
      Idle r.1 ∧ Grown v r.1 (v.missing path) :=
    .ok ⟨idle, (Grown.refl idle.fresh).mono (Nat.zero_le _)⟩
  unfold vfsLookup
  cases root : v.root with
  | none => exact stops
  | some r =>
    refine .ite (fun valid => ?_) fun _ => stops
    have is : v.missing path = v.missingFrom r (tokens path.tail) := by
      rw [missing, root]
      exact if_pos valid
    rw [is] at room ⊢
    exact (lookupFrom_avoids fs _ idle.unlocked idle.fresh room).mono fun _ ⟨free, grown⟩ =>
      ⟨⟨free, grown.fresh⟩, grown⟩

lemma Idle.evict : Avoids .deadlock v.vfsDentryEvict Idle := by
  refine lock_bind idle.unlocked ?_
  have held : { v with locked := true }.Fresh := idle.fresh
  exact (evictLoop_keeps _ _ held).bind fun w ⟨_, freshToo⟩ => .ok ⟨rfl, freshToo⟩

lemma Idle.lockedOp : Avoids .deadlock v.lockedOp Idle := by
  refine lock_bind idle.unlocked ?_
  exact .ok ⟨rfl, idle.fresh⟩

lemma Idle.countRef (n : NodeId) (change : Nat → Nat) :
    Avoids .deadlock (v.countRef n change) Idle := by
  refine lock_bind idle.unlocked ?_
  have held : { v with locked := true }.Fresh := idle.fresh
  have counted (d : Option DentryId) :
      Avoids .deadlock ({ v with locked := true }.recount d change) fun v' => v'.Fresh := by
    cases d with
    | none => exact .ok held
    | some d => exact (modify_keeps held d _).mono fun v' => And.right
  exact (counted _).bind fun v' freshToo => .ok ⟨rfl, freshToo⟩

lemma Idle.bindInode (d : DentryId) (n : NodeId) : Avoids .deadlock (v.bindInode d n) Idle :=
  (modify_keeps idle.fresh d _).bind fun _ ⟨same, freshToo⟩ =>
    .ok ⟨same.trans idle.unlocked, freshToo⟩

lemma Idle.mountRoot (rootInode : NodeId) :
    Avoids .deadlock (v.vfsMountRoot fs rootInode) Idle := by
  have alloc : Avoids .deadlock (v.dentryAlloc fs [slash] none) fun r => Idle r.1 := by
    have new : Idle (v.newDentry [slash] none) :=
      ⟨idle.unlocked, (grown_newDentry idle.fresh [slash] none).fresh⟩
    have trimmed : Avoids .deadlock (v.newDentry [slash] none).evictIfLarge Idle :=
      .ite (fun _ => new.evict) fun _ => .ok new
    exact .ite (fun _ => .ok idle) fun _ => trimmed.bind fun w idleToo => .ok idleToo
  refine alloc.bind fun ⟨w, d⟩ idleToo => ?_
  have rooted : Idle { w with root := d } := ⟨idleToo.unlocked, idleToo.fresh⟩
  cases d with
  | none => exact .ok rooted
  | some d => exact rooted.bindInode d rootInode

lemma Idle.mount (path : Name) (rootInode : NodeId)
    (room : v.total + 1 ≤ maxDentries) : Avoids .deadlock (v.vfsMount fs path rootInode) Idle := by
  unfold vfsMount
  split
  · exact .ok idle
  rename_i root _
  refine .ite (fun _ => ?_) fun _ => .ok idle
  refine lock_bind idle.unlocked ?_
  have held : { v with locked := true }.Fresh := idle.fresh
  have few : { v with locked := true }.total < maxDentries := room
  refine (dentryLookupChild_avoids _ root _).bind fun existing _ => ?_
  refine .ite (fun _ => .ok ⟨rfl, held⟩) fun _ => ?_
  have allocated : Avoids .deadlock
      ({ v with locked := true }.dentryAlloc fs path.tail (some root)) fun r => r.1.Fresh := by
    rw [dentryAlloc_of_room fs few]
    split
    · exact .ok (grown_newDentry held path.tail (some root)).fresh
    · exact .ok held
  refine allocated.bind fun ⟨w, d⟩ fresh₀ => ?_
  cases d with
  | none => exact .ok ⟨rfl, fresh₀⟩
  | some d =>
    have bound : Avoids .deadlock (w.bindInode d rootInode) Fresh :=
      (modify_keeps fresh₀ d _).bind fun v' ⟨_, freshToo⟩ => .ok freshToo
    refine bound.bind fun v₁ fresh₁ => ?_
    exact (modify_keeps fresh₁ root _).bind fun v' ⟨_, freshToo⟩ => .ok ⟨rfl, freshToo⟩

lemma Idle.openFile {path : Name} (room : v.total + v.missing path ≤ maxDentries) :
    Avoids .deadlock (v.vfsOpen fs path) Idle := by
  refine (idle.lookup room).bind fun ⟨w, inode⟩ ⟨idleToo, _⟩ => ?_
  cases inode with
  | none => exact .ok idleToo
  | some n => exact .ite (fun _ => idleToo.countRef n _) fun _ => .ok idleToo

lemma Idle.onParent {path : Name} (room : v.total + v.missingParent path ≤ maxDentries) :
    Avoids .deadlock (v.onParent fs path) Idle := by
  unfold Cache.onParent
  split
  · exact .ok idle
  rename_i parent is
  rw [missingParent, is] at room
  refine .ite (fun _ => .ok idle) fun _ => ?_
  refine (idle.lookup room).bind fun ⟨w, dir⟩ ⟨idleToo, _⟩ => ?_
  cases dir with
  | none => exact .ok idleToo
  | some m => exact .ite (fun _ => idleToo.lockedOp) fun _ => .ok idleToo

omit idle in
lemma missing_mono {v' : Cache} {k : Nat} (grown : Grown v v' k) (path : Name) :
    v'.missing path ≤ v.missing path := by
  unfold missing
  rw [grown.root]
  split
  · exact Nat.le_refl _
  · split
    · exact missingFrom_mono grown.cached _ _
    · exact Nat.le_refl _

lemma Idle.rename {oldPath newPath : Name}
    (room : v.total + v.missingParent oldPath + v.missingParent newPath ≤ maxDentries) :
    Avoids .deadlock (v.vfsRename fs oldPath newPath) Idle := by
  unfold vfsRename
  split
  · rename_i oldParent newParent old new
    rw [missingParent, missingParent, old, new] at room
    simp only [map_some, getD_some] at room
    have first : v.total + v.missing oldParent ≤ maxDentries := by omega
    refine (idle.lookup first).bind fun ⟨w, oldDir⟩ ⟨idle₁, grown⟩ => ?_
    have total : w.total ≤ v.total + v.missing oldParent := grown.total
    have less : w.missing newParent ≤ v.missing newParent := missing_mono grown newParent
    have second : w.total + w.missing newParent ≤ maxDentries := by omega
    refine (idle₁.lookup second).bind fun ⟨u, newDir⟩ ⟨idle₂, _⟩ => ?_
    cases oldDir with
    | none => exact .ok idle₂
    | some m =>
      cases newDir with
      | none => exact .ok idle₂
      | some n => exact .ite (fun _ => idle₂.lockedOp) fun _ => .ok idle₂
  · exact .ok idle

/-- With room for the dentries it makes, a call takes the lock only when it is free. -/
lemma Call.avoids {call : Call} (roomy : call.Roomy v) :
    Avoids .deadlock (v.call fs call) Idle := by
  have lookedUp {path : Name} (room : v.total + v.missing path ≤ maxDentries) :
      Avoids .deadlock ((v.vfsLookup fs path).map Prod.fst) Idle :=
    .map ((idle.lookup room).mono fun _ => And.left)
  cases call with
  | mountRoot rootInode => exact idle.mountRoot rootInode
  | mount path rootInode => exact idle.mount path rootInode roomy
  | evict => exact idle.evict
  | lookup path => exact lookedUp roomy
  | openFile path => exact idle.openFile roomy
  | close n => exact idle.countRef n _
  | mkdir path => exact idle.onParent roomy
  | rmdir path => exact idle.onParent roomy
  | unlink path => exact idle.onParent roomy
  | rename oldPath newPath => exact idle.rename roomy
  | chmod path => exact lookedUp roomy
  | transfer => exact .ok idle

omit idle

def RoomyRun : Cache → List (Fs × Call) → Prop
  | _, [] => True
  | v, (fs, call) :: rest => call.Roomy v ∧ ∀ v', v.call fs call = .ok v' → RoomyRun v' rest

lemma run_avoids (calls : List (Fs × Call)) (idle : Idle v) (roomy : RoomyRun v calls) :
    Avoids .deadlock (v.run calls) Idle := by
  induction calls generalizing v with
  | nil => exact .ok idle
  | cons head rest ih =>
    exact (Call.avoids idle roomy.1).and_eq.bind fun v' ⟨done, idleToo⟩ =>
      ih idleToo (roomy.2 v' done)

/-- After `vfs_init`, no call of a run with room takes the lock while it holds it, and the lock is
free after each of them. -/
theorem lock_once_of_roomy_run (calls : List (Fs × Call)) (roomy : RoomyRun {} calls) :
    Cache.run {} calls ≠ .error .deadlock ∧ ∀ v, Cache.run {} calls = .ok v → v.locked = false := by
  have start : Idle {} := ⟨rfl, fun _ _ => rfl⟩
  have avoids := run_avoids calls start roomy
  exact ⟨avoids.ne, fun v done => (avoids.of_ok done).unlocked⟩

end

/-! ## A full cache -/

def endless : Fs where
  memory := fun _ => true
  lookup := fun m _ => some (m + 1)
  isDir := fun _ => true
  has := fun _ => true
  opens := fun _ => true

def deepPath (n : Nat) : Name := (replicate n [slash, 97]).flatten

def descent (n : Nat) : List (Fs × Call) :=
  [(endless, .mountRoot 0), (endless, .lookup (deepPath n))]

def deadlocks : Except Trouble Cache → Bool
  | .error .deadlock => true
  | _ => false

lemma eq_of_deadlocks {x : Except Trouble Cache} (stuck : deadlocks x = true) :
    x = .error .deadlock := by
  unfold deadlocks at stuck
  split at stuck
  · rfl
  · cases stuck

/-- With the root and 511 components the cache is full, and the next component takes the lock in
`vfs_dentry_evict` while `vfs_lookup` holds it. -/
theorem lookup_locks_twice : (Cache.run {} (descent 511)).toOption.any (·.total == 512) ∧
      Cache.run {} (descent 512) = .error .deadlock :=
  ⟨by decide +kernel, eq_of_deadlocks (by decide +kernel)⟩

/-- The root is mounted, and one component is looked up. -/
theorem lock_once_of_roomy_run_descent :
    RoomyRun {} (descent 1) ∧ Cache.run {} (descent 1) ≠ .error .deadlock ∧
      ∃ v, Cache.run {} (descent 1) = .ok v ∧ v.locked = false := by
  have roomy : RoomyRun {} (descent 1) := by
    refine ⟨trivial, fun v is => ⟨?_, fun _ _ => trivial⟩⟩
    obtain rfl := Except.ok.inj (show Except.ok _ = Except.ok v from is)
    decide
  have holds := lock_once_of_roomy_run (descent 1) roomy
  exact ⟨roomy, holds.1, _, rfl, holds.2 _ rfl⟩

end AuroraOS.Vfs.Lock
