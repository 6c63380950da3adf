import AuroraOS.Vfs.Model

/-!
# The lock of the dentry cache

Model of the dentry cache of `kernel/vfs.c` with `vfs_lock` and `vfs_unlock` where the source has
them, over any file systems: what they answer during a call is its `Fs`, and they do not call the
VFS.  A call that takes the lock while it holds it spins for ever, `Trouble.deadlock`.

`dentry_alloc` calls `vfs_dentry_evict`, which takes the lock, when there are more than
`MAX_DENTRIES` dentries; `vfs_lookup` and `vfs_mount` hold it there.

Left out are the memory of the inodes and `DENTRY_FLAG_MOUNT`, which decides about freeing it.
-/

namespace AuroraOS.Vfs.Lock

open Function

open Vfs (Name NodeId DentryId Dentry Trouble slash dot maxDentries)
open Vfs.State (tokens lastSlash splitLast)

/-- What is outside the VFS during one call: memory for a dentry, the answers of the `lookup`
operations, which inodes are directories and which have the operation that is called, and whether a
file can be opened. -/
structure Fs where
  memory : DentryId → Bool
  lookup : NodeId → Name → Option NodeId
  isDir : NodeId → Bool
  has : NodeId → Bool
  opens : NodeId → Bool

/-- The dentry cache; the LRU list has the most recently used dentry first. -/
structure Cache where
  locked : Bool := false
  root : Option DentryId := none
  dentries : DentryId → Option Dentry := fun _ => none
  inodeDentry : NodeId → Option DentryId := fun _ => none
  lru : List DentryId := []
  total : Nat := 0
  next : DentryId := 0

namespace Cache

variable (v : Cache)

def vfsLock : Except Trouble Cache :=
  if v.locked then .error .deadlock else .ok { v with locked := true }

def vfsUnlock : Cache := { v with locked := false }

def dentry (d : DentryId) : Except Trouble Dentry :=
  match v.dentries d with
  | some x => .ok x
  | none => .error .useAfterFree

def modify (d : DentryId) (f : Dentry → Dentry) : Except Trouble Cache := do
  let x ← v.dentry d
  return { v with dentries := update v.dentries d (some (f x)) }

def findChild (name : Name) : List DentryId → Except Trouble (Option DentryId)
  | [] => .ok none
  | d :: rest => do
    let x ← v.dentry d
    if x.name = name then return some d else findChild name rest

def dentryLookupChild (parent : DentryId) (name : Name) : Except Trouble (Option DentryId) := do
  let x ← v.dentry parent
  v.findChild name x.children

def dentryAddChild (parent child : DentryId) : Except Trouble Cache :=
  v.modify parent fun x => { x with children := child :: x.children }

def lruTouch (d : DentryId) : Cache := { v with lru := d :: v.lru.erase d }

/-! ## Eviction -/

def dentryRemoveChild (d : DentryId) (x : Dentry) : Except Trouble Cache :=
  match x.parent with
  | none => .ok v
  | some p => v.modify p fun y => { y with children := y.children.erase d }

def evictOne (d : DentryId) (x : Dentry) : Except Trouble Cache := do
  let v ← { v with lru := v.lru.erase d }.dentryRemoveChild d x
  return { v with dentries := update v.dentries d none, total := v.total - 1 }

/-- The loop of `vfs_dentry_evict` over the dentries not visited yet, the oldest first, with the
number of evictions left. -/
def evictLoop : List DentryId → Nat → Cache → Except Trouble Cache
  | [], _, v => .ok v
  | _ :: _, 0, v => .ok v
  | d :: rest, k + 1, v => do
    let x ← v.dentry d
    if some d = v.root ∨ 1 < x.refcount then evictLoop rest (k + 1) v
    else
      let v ← v.evictOne d x
      evictLoop rest k v

def vfsDentryEvict : Except Trouble Cache := do
  let v ← v.vfsLock
  let v ← evictLoop v.lru.reverse 16 v
  return v.vfsUnlock

/-! ## New dentries -/

def newDentry (name : Name) (parent : Option DentryId) : Cache :=
  { v with
    dentries := update v.dentries v.next
      (some { name := name, inode := none, parent := parent })
    lru := v.next :: v.lru
    total := v.total + 1
    next := v.next + 1 }

/-- The end of `dentry_alloc`. -/
def evictIfLarge : Except Trouble Cache :=
  if maxDentries < v.total then v.vfsDentryEvict else .ok v

def dentryAlloc (fs : Fs) (name : Name) (parent : Option DentryId) :
    Except Trouble (Cache × Option DentryId) :=
  if !fs.memory v.next then .ok (v, none)
  else do
    let d := v.next
    let v ← (v.newDentry name parent).evictIfLarge
    return (v, some d)

def bindInode (d : DentryId) (n : NodeId) : Except Trouble Cache := do
  let v ← v.modify d fun x => { x with inode := some n }
  return { v with inodeDentry := update v.inodeDentry n (some d) }

def vfsMountRoot (fs : Fs) (rootInode : NodeId) : Except Trouble Cache := do
  let (v, d) ← v.dentryAlloc fs [slash] none
  let v := { v with root := d }
  match d with
  | none => return v
  | some d => v.bindInode d rootInode

def mountAt (fs : Fs) (root : DentryId) (name : Name) (rootInode : NodeId) :
    Except Trouble Cache := do
  let v ← v.vfsLock
  let existing ← v.dentryLookupChild root name
  if existing.isSome then return v.vfsUnlock
  let (v, d) ← v.dentryAlloc fs name (some root)
  match d with
  | none => return v.vfsUnlock
  | some d => do
    let v ← v.bindInode d rootInode
    let v ← v.dentryAddChild root d
    return v.vfsUnlock

def vfsMount (fs : Fs) (path : Name) (rootInode : NodeId) : Except Trouble Cache :=
  match v.root with
  | none => .ok v
  | some root =>
    if path.head? = some slash ∧ lastSlash path = 0 ∧ path.tail ≠ [] then
      v.mountAt fs root path.tail rootInode
    else .ok v

/-! ## Lookup -/

/-- The dentry for a name below `cur`: the one there is, or a new one. -/
def ensureChild (fs : Fs) (cur : DentryId) (name : Name) (child : Option DentryId) :
    Except Trouble (Cache × Option DentryId) :=
  match child with
  | some c => .ok (v, some c)
  | none => do
    let (v, d) ← v.dentryAlloc fs name (some cur)
    match d with
    | none => return (v, none)
    | some d => do
      let v ← v.dentryAddChild cur d
      return (v, some d)

def setAnswer (child : DentryId) (answer : Option NodeId) : Except Trouble Cache :=
  match answer with
  | some n => v.modify child fun y => { y with inode := some n }
  | none => .ok v

/-- The part of `vfs_lookup` for a dentry without inode, which calls the file system without the
lock. -/
def resolve (fs : Fs) (cur child : DentryId) (name : Name) :
    Except Trouble (Cache × Option DentryId) := do
  let v ← v.modify cur fun x => { x with refcount := x.refcount + 1 }
  let v := v.vfsUnlock
  let x ← v.dentry cur
  let v ← v.setAnswer child (x.inode.bind fun m => fs.lookup m name)
  let v ← v.vfsLock
  let v ← v.modify cur fun x => { x with refcount := x.refcount - 1 }
  let y ← v.dentry child
  match y.inode with
  | none => return (v.vfsUnlock, none)
  | some n =>
    return ({ v with inodeDentry := update v.inodeDentry n (some child) }.vfsUnlock,
      some child)

def childInode (child : Option DentryId) : Except Trouble (Option NodeId) :=
  match child with
  | some c => (v.dentry c).map Dentry.inode
  | none => .ok none

/-- One component of `vfs_lookup`: the dentry reached, `none` when there is none. -/
def lookupStep (fs : Fs) (cur : DentryId) (name : Name) :
    Except Trouble (Cache × Option DentryId) := do
  let v ← v.vfsLock
  let child ← v.dentryLookupChild cur name
  let inode ← v.childInode child
  match child, inode with
  | some c, some _ => return ((v.lruTouch c).vfsUnlock, some c)
  | child, _ => do
    let (v, child) ← v.ensureChild fs cur name child
    match child with
    | none => return (v.vfsUnlock, none)
    | some child => v.resolve fs cur child name

def lookupFrom (fs : Fs) : Cache → DentryId → List Name → Except Trouble (Cache × Option NodeId)
  | v, cur, [] => (v.dentry cur).map fun x => (v, x.inode)
  | v, cur, t :: ts =>
    if 255 < t.length then .ok (v, none)
    else if t = [dot, dot] then .ok (v, none)
    else if t = [dot] then lookupFrom fs v cur ts
    else do
      let (v, child) ← v.lookupStep fs cur t
      match child with
      | some child => lookupFrom fs v child ts
      | none => return (v, none)

def vfsLookup (fs : Fs) (path : Name) : Except Trouble (Cache × Option NodeId) :=
  match v.root with
  | none => .ok (v, none)
  | some root =>
    if path.head? = some slash ∧ path.length ≤ 4096 then
      v.lookupFrom fs root (tokens path.tail)
    else .ok (v, none)

/-! ## The calls on files and directories -/

/-- The change of the reference count of a dentry, if there is one. -/
def recount (d : Option DentryId) (change : Nat → Nat) : Except Trouble Cache :=
  match d with
  | none => .ok v
  | some d => v.modify d fun x => { x with refcount := change x.refcount }

/-- The common part of `vfs_open` and `vfs_close`. -/
def countRef (n : NodeId) (change : Nat → Nat) : Except Trouble Cache := do
  let v ← v.vfsLock
  let v ← v.recount (v.inodeDentry n) change
  return v.vfsUnlock

def vfsOpen (fs : Fs) (path : Name) : Except Trouble Cache := do
  let (v, inode) ← v.vfsLookup fs path
  match inode with
  | none => return v
  | some n => if fs.opens n then v.countRef n (· + 1) else return v

def vfsClose (n : NodeId) : Except Trouble Cache := v.countRef n (· - 1)

/-- The parent directory of a path that `vfs_mkdir` and the calls like it accept. -/
def parentPath (path : Name) : Option Name :=
  if path.head? = some slash ∧ lastSlash path ≠ 0 ∧ (splitLast path).1.length < 256 then
    some (splitLast path).1
  else none

def lockedOp : Except Trouble Cache := do
  let v ← v.vfsLock
  return v.vfsUnlock

def onParent (fs : Fs) (path : Name) : Except Trouble Cache :=
  match parentPath path with
  | none => .ok v
  | some parent =>
    if (splitLast path).2 = [] then .ok v
    else do
      let (v, dir) ← v.vfsLookup fs parent
      match dir with
      | none => return v
      | some m => if fs.isDir m && fs.has m then v.lockedOp else return v

def vfsRename (fs : Fs) (oldPath newPath : Name) : Except Trouble Cache :=
  match parentPath oldPath, parentPath newPath with
  | some oldParent, some newParent => do
    let (v, oldDir) ← v.vfsLookup fs oldParent
    let (v, newDir) ← v.vfsLookup fs newParent
    match oldDir, newDir with
    | some m, some n => if fs.isDir m && fs.isDir n && fs.has m then v.lockedOp else return v
    | _, _ => return v
  | _, _ => .ok v

end Cache

/-- The calls of the VFS; `vfs_read`, `vfs_write`, `vfs_ioctl` and `vfs_file_dup`, which do not
take the lock, are `transfer`. -/
inductive Call
  | mountRoot (rootInode : NodeId)
  | mount (path : Name) (rootInode : NodeId)
  | evict
  | lookup (path : Name)
  | openFile (path : Name)
  | close (n : NodeId)
  | mkdir (path : Name)
  | rmdir (path : Name)
  | unlink (path : Name)
  | rename (oldPath newPath : Name)
  | chmod (path : Name)
  | transfer

def Cache.call (v : Cache) (fs : Fs) : Call → Except Trouble Cache
  | .mountRoot rootInode => v.vfsMountRoot fs rootInode
  | .mount path rootInode => v.vfsMount fs path rootInode
  | .evict => v.vfsDentryEvict
  | .lookup path => (v.vfsLookup fs path).map Prod.fst
  | .openFile path => v.vfsOpen fs path
  | .close n => v.vfsClose n
  | .mkdir path => v.onParent fs path
  | .rmdir path => v.onParent fs path
  | .unlink path => v.onParent fs path
  | .rename oldPath newPath => v.vfsRename fs oldPath newPath
  | .chmod path => (v.vfsLookup fs path).map Prod.fst
  | .transfer => .ok v

def Cache.run : Cache → List (Fs × Call) → Except Trouble Cache
  | v, [] => .ok v
  | v, (fs, call) :: rest => do
    let v ← v.call fs call
    v.run rest

end AuroraOS.Vfs.Lock
