import Mathlib.Logic.Function.Basic

/-!
# The VFS over a ramfs root

Model of `kernel/vfs.c` and `kernel/ramfs.c`, and of the creation of a file in `sys_open`, for one
task and a mounted ramfs root.  A linked list (the children of a node or of a dentry, the LRU list)
is the list of its members.  Every `kmalloc` is taken to succeed, with an address that was not
handed out before; `Vfs.Lock` has the dentries that get no memory.  A call that touches freed
memory, or that spins on a lock its own task holds, has no result: `Trouble` says which.

Left out are the counters that nothing reads, `vfs_mount`, and the reference that `vfs_lookup` holds
on the parent while it calls the file system, since nothing else runs in between.
-/

namespace AuroraOS.Vfs

open Function

abbrev Name := List UInt8

abbrev NodeId := Nat

abbrev DentryId := Nat

inductive Trouble
  | deadlock
  | useAfterFree
  deriving DecidableEq, Repr

def slash : UInt8 := 0x2F
def dot : UInt8 := 0x2E

def maxDentries : Nat := 512

/-! ## ramfs -/

/-- `struct ramfs_node`, with the list its `children` and their `next` make and without the
back-pointer to the dentry. -/
structure Node where
  name : Name
  isDir : Bool
  data : List UInt8 := []
  children : List NodeId := []
  deriving DecidableEq, Repr

/-- The nodes that are allocated, and the first address not handed out yet. -/
structure Ramfs where
  nodes : NodeId → Option Node
  root : NodeId
  next : NodeId

namespace Ramfs

variable (fs : Ramfs)

def node (n : NodeId) : Except Trouble Node :=
  match fs.nodes n with
  | some x => .ok x
  | none => .error .useAfterFree

def find (name : Name) : List NodeId → Except Trouble (Option NodeId)
  | [] => .ok none
  | n :: rest => (fs.node n).bind fun x => if x.name = name then .ok (some n) else find name rest

/-- `ramfs_lookup`; the caller sets the inode of the dentry. -/
def lookup (dir : NodeId) (name : Name) : Except Trouble (Option NodeId) :=
  (fs.node dir).bind fun x => fs.find name x.children

def link (dir : NodeId) (x : Node) (new : Node) : Ramfs where
  nodes := update (update fs.nodes fs.next (some new)) dir
    (some { x with children := fs.next :: x.children })
  root := fs.root
  next := fs.next + 1

/-- The common body of `ramfs_create_file` and `ramfs_mkdir`; `true` stands for 0. -/
def make (isDir : Bool) (dir : NodeId) (name : Name) : Except Trouble (Ramfs × Bool) :=
  (fs.node dir).bind fun x =>
    if x.isDir then
      (fs.find name x.children).bind fun existing =>
        match existing with
        | some _ => .ok (fs, false)
        | none => .ok (fs.link dir x { name := name, isDir := isDir }, true)
    else .ok (fs, false)

def createFile : NodeId → Name → Except Trouble (Ramfs × Bool) := fs.make false

def mkdir : NodeId → Name → Except Trouble (Ramfs × Bool) := fs.make true

def unlinkNode (dir : NodeId) (x : Node) (n : NodeId) : Ramfs where
  nodes := update
    (update fs.nodes dir (some { x with children := x.children.erase n })) n none
  root := fs.root
  next := fs.next

/-- The common body of `ramfs_unlink` and `ramfs_rmdir`; `true` stands for 0. -/
def remove (removable : Node → Bool) (dir : NodeId) (name : Name) : Except Trouble (Ramfs × Bool) :=
  (fs.node dir).bind fun x =>
    if x.isDir then
      (fs.find name x.children).bind fun existing =>
        match existing with
        | none => .ok (fs, false)
        | some n => (fs.node n).bind fun y =>
          if removable y then .ok (fs.unlinkNode dir x n, true) else .ok (fs, false)
    else .ok (fs, false)

def isFile (x : Node) : Bool := !x.isDir

def isEmptyDir (x : Node) : Bool := x.isDir && x.children.isEmpty

def unlink : NodeId → Name → Except Trouble (Ramfs × Bool) := fs.remove isFile

def rmdir : NodeId → Name → Except Trouble (Ramfs × Bool) := fs.remove isEmptyDir

/-- The bytes of a file after `ramfs_write`; memory from `kmalloc` is zero. -/
def written (data : List UInt8) (offset : Nat) (buf : List UInt8) : List UInt8 :=
  if buf.length = 0 then data
  else
    (data ++ List.replicate (offset - data.length) 0).take offset ++ buf ++
      data.drop (offset + buf.length)

def write (n : NodeId) (offset : Nat) (buf : List UInt8) : Except Trouble Ramfs :=
  (fs.node n).bind fun x =>
    .ok { fs with
      nodes := update fs.nodes n (some { x with data := written x.data offset buf }) }

end Ramfs

/-! ## The dentry cache -/

structure Dentry where
  name : Name
  inode : Option NodeId
  parent : Option DentryId
  children : List DentryId := []
  refcount : Nat := 1
  deriving DecidableEq, Repr

/-- The file system, the dentries that are allocated, the back-pointers `inode->dentry`, the LRU
list with the most recently used dentry first, and the inodes of the open files. -/
structure State where
  fs : Ramfs
  dentries : DentryId → Option Dentry
  inodeDentry : NodeId → Option DentryId
  rootDentry : DentryId
  lru : List DentryId
  dentryTotal : Nat
  nextDentry : DentryId
  files : List NodeId := []

namespace State

variable (v : State)

def dentry (d : DentryId) : Except Trouble Dentry :=
  match v.dentries d with
  | some x => .ok x
  | none => .error .useAfterFree

def findChild (name : Name) : List DentryId → Except Trouble (Option DentryId)
  | [] => .ok none
  | d :: rest => (v.dentry d).bind fun x =>
    if x.name = name then .ok (some d) else findChild name rest

def lruDel (d : DentryId) : State := { v with lru := v.lru.erase d }

def lruTouch (d : DentryId) : State := { v with lru := d :: v.lru.erase d }

/-- `dentry_alloc` below `cur` and `dentry_add_child`.  `vfs_lookup` holds the lock, which
`vfs_dentry_evict` takes again. -/
def addDentry (cur : DentryId) (x : Dentry) (name : Name) : Except Trouble (State × DentryId) :=
  if maxDentries < v.dentryTotal + 1 then .error .deadlock
  else .ok ({ v with
    dentries := update
      (update v.dentries v.nextDentry
        (some { name := name, inode := none, parent := some cur }))
      cur (some { x with children := v.nextDentry :: x.children })
    lru := v.nextDentry :: v.lru
    dentryTotal := v.dentryTotal + 1
    nextDentry := v.nextDentry + 1 }, v.nextDentry)

def bindInode (child : DentryId) (y : Dentry) (n : NodeId) : State :=
  { v with
    dentries := update v.dentries child (some { y with inode := some n })
    inodeDentry := update v.inodeDentry n (some child) }

/-- The call of the `lookup` operation for a dentry without inode; only directories have one. -/
def askFs (inode : Option NodeId) (child : DentryId) : Except Trouble (State × Option DentryId) :=
  (v.dentry child).bind fun y =>
    match inode with
    | none => .ok (v, none)
    | some m => (v.fs.node m).bind fun z =>
      if z.isDir then
        (v.fs.lookup m y.name).bind fun found =>
          match found with
          | some n => .ok (v.bindInode child y n, some child)
          | none => .ok (v, none)
      else .ok (v, none)

/-- A dentry for the name below `cur`: the one there is, or a new one. -/
def ensureChild (cur : DentryId) (x : Dentry) (name : Name) (child : Option DentryId) :
    Except Trouble (State × DentryId) :=
  match child with
  | some c => .ok (v, c)
  | none => v.addDentry cur x name

/-- One component of `vfs_lookup`: the dentry reached, `none` when there is none. -/
def lookupStep (cur : DentryId) (name : Name) : Except Trouble (State × Option DentryId) :=
  (v.dentry cur).bind fun x =>
    (v.findChild name x.children).bind fun child =>
      (child.elim (.ok none) fun c => (v.dentry c).map Dentry.inode).bind fun inode =>
        match child, inode with
        | some c, some _ => .ok (v.lruTouch c, some c)
        | child, _ => (v.ensureChild cur x name child).bind fun r => r.1.askFs x.inode r.2

def tokens (path : Name) : List Name := (path.splitOn slash).filter (· ≠ [])

def lookupFrom : State → DentryId → List Name → Except Trouble (State × Option NodeId)
  | v, cur, [] => (v.dentry cur).map fun x => (v, x.inode)
  | v, cur, t :: ts =>
    if 255 < t.length then .ok (v, none)
    else if t = [dot, dot] then .ok (v, none)
    else if t = [dot] then lookupFrom v cur ts
    else (v.lookupStep cur t).bind fun r =>
      match r.2 with
      | some child => lookupFrom r.1 child ts
      | none => .ok (r.1, none)

def lookup (path : Name) : Except Trouble (State × Option NodeId) :=
  if path.head? = some slash ∧ path.length ≤ 4096 then
    v.lookupFrom v.rootDentry (tokens path.tail)
  else .ok (v, none)

/-! ## The calls -/

def lastSlash (path : Name) : Nat := path.length - 1 - path.reverse.idxOf slash

/-- The parent path and the last name of a path with a slash; the parent of a name below the
first slash is `/`. -/
def splitLast (path : Name) : Name × Name :=
  (path.take (max 1 (lastSlash path)), path.drop (lastSlash path + 1))

/-- The common start of `vfs_mkdir`, `vfs_rmdir` and `vfs_unlink`: the parent directory and the
name. -/
def parentOf (path : Name) : Except Trouble (State × Option (NodeId × Name)) :=
  if path.head? = some slash ∧ lastSlash path ≠ 0 ∧ (splitLast path).1.length < 256 ∧
      (splitLast path).2 ≠ [] then
    (v.lookup (splitLast path).1).bind fun r =>
      match r.2 with
      | none => .ok (r.1, none)
      | some m => (r.1.fs.node m).map fun x =>
        (r.1, if x.isDir then some (m, (splitLast path).2) else none)
  else .ok (v, none)

/-- A ramfs operation on the parent directory; `true` stands for 0. -/
def onParent (op : Ramfs → NodeId → Name → Except Trouble (Ramfs × Bool)) (path : Name) :
    Except Trouble (State × Bool) :=
  (v.parentOf path).bind fun r =>
    match r.2 with
    | none => .ok (r.1, false)
    | some (m, name) => (op r.1.fs m name).map fun q => ({ r.1 with fs := q.1 }, q.2)

def mkdir (path : Name) : Except Trouble (State × Bool) := v.onParent Ramfs.mkdir path

def rmdir (path : Name) : Except Trouble (State × Bool) := v.onParent Ramfs.rmdir path

def unlink (path : Name) : Except Trouble (State × Bool) := v.onParent Ramfs.unlink path

/-- The change of a dentry's reference count by `vfs_open` and `vfs_close`. -/
def countRef (n : NodeId) (change : Nat → Nat) : Except Trouble State :=
  (v.fs.node n).bind fun _ =>
    match v.inodeDentry n with
    | none => .ok v
    | some d => (v.dentry d).map fun x =>
      { v with
        dentries := update v.dentries d
          (some { x with refcount := change x.refcount }) }

/-- `vfs_open`: the inode of the file, `none` for NULL. -/
def openPath (path : Name) : Except Trouble (State × Option NodeId) :=
  (v.lookup path).bind fun r =>
    match r.2 with
    | none => .ok (r.1, none)
    | some n => (r.1.countRef n (· + 1)).map fun u => ({ u with files := n :: u.files }, some n)

def createPath (path : Name) : Except Trouble (State × Bool) :=
  if slash ∈ path ∧ (splitLast path).1.length < 256 ∧ (splitLast path).2 ≠ [] then
    (v.lookup (splitLast path).1).bind fun r =>
      match r.2 with
      | none => .ok (r.1, false)
      | some m => (r.1.fs.node m).bind fun x =>
        if x.isDir then
          (r.1.fs.createFile m (splitLast path).2).map fun q => ({ r.1 with fs := q.1 }, q.2)
        else .ok (r.1, false)
  else .ok (v, false)

def openFile (path : Name) (create : Bool) : Except Trouble (State × Option NodeId) :=
  (v.openPath path).bind fun r =>
    if r.2 = none ∧ create then
      (r.1.createPath path).bind fun q =>
        if q.2 then q.1.openPath path else .ok (q.1, none)
    else .ok r

def close (n : NodeId) : Except Trouble State :=
  (v.countRef n (· - 1)).map fun u => { u with files := u.files.erase n }

/-- `vfs_write`; a directory has no `write` operation. -/
def write (n : NodeId) (offset : Nat) (buf : List UInt8) : Except Trouble State :=
  (v.fs.node n).bind fun x =>
    if x.isDir then .ok v
    else (v.fs.write n offset buf).map fun fs => { v with fs := fs }

/-! ## Eviction -/

def removeChild (d : DentryId) (x : Dentry) : Except Trouble State :=
  match x.parent with
  | none => .ok v
  | some p => (v.dentry p).map fun y =>
    { v with
      dentries := update v.dentries p (some { y with children := y.children.erase d }) }

/-- The inode goes with its dentry, unless its back-pointer names another one. -/
def freeInode (d : DentryId) (x : Dentry) : Except Trouble State :=
  match x.inode with
  | none => .ok v
  | some n => (v.fs.node n).map fun _ =>
    if v.inodeDentry n = some d then
      { v with fs := { v.fs with nodes := update v.fs.nodes n none } }
    else v

def evictOne (d : DentryId) (x : Dentry) : Except Trouble State :=
  ((v.lruDel d).removeChild d x).bind fun u =>
    (u.freeInode d x).map fun u =>
      { u with
        dentries := update u.dentries d none
        dentryTotal := u.dentryTotal - 1 }

/-- The loop of `vfs_dentry_evict` over the dentries not visited yet, the oldest first, with the
number of evictions left. -/
def evictLoop : List DentryId → Nat → State → Except Trouble State
  | [], _, v => .ok v
  | _ :: _, 0, v => .ok v
  | d :: rest, k + 1, v => (v.dentry d).bind fun x =>
    if d = v.rootDentry ∨ 1 < x.refcount then evictLoop rest (k + 1) v
    else (v.evictOne d x).bind fun u => evictLoop rest k u

def evict : Except Trouble State := evictLoop v.lru.reverse 16 v

end State

/-- After `vfs_init`, `ramfs_create` and `vfs_mount_root`. -/
def State.initial : State where
  fs := {
    nodes := update (fun _ => none) 0 (some { name := [], isDir := true })
    root := 0
    next := 1 }
  dentries := update (fun _ => none) 0
    (some { name := [slash], inode := some 0, parent := none })
  inodeDentry := update (fun _ => none) 0 (some 0)
  rootDentry := 0
  lru := [0]
  dentryTotal := 1
  nextDentry := 1

inductive Op
  | lookup (path : Name)
  | openFile (path : Name) (create : Bool)
  | close (n : NodeId)
  | write (n : NodeId) (offset : Nat) (buf : List UInt8)
  | mkdir (path : Name)
  | rmdir (path : Name)
  | unlink (path : Name)
  | evict

def State.apply (v : State) : Op → Except Trouble State
  | .lookup path => (v.lookup path).map Prod.fst
  | .openFile path create => (v.openFile path create).map Prod.fst
  | .close n => v.close n
  | .write n offset buf => v.write n offset buf
  | .mkdir path => (v.mkdir path).map Prod.fst
  | .rmdir path => (v.rmdir path).map Prod.fst
  | .unlink path => (v.unlink path).map Prod.fst
  | .evict => v.evict

end AuroraOS.Vfs
