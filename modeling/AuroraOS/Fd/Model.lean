import AuroraOS.Lib.Holders
import Mathlib.Data.Finset.Prod
import Mathlib.Data.Fintype.Basic

/-!
# File descriptors

Model of `kernel/file.c`, of `vfs_open`, `vfs_close` and `vfs_file_dup` of `kernel/vfs.c`, of
`sys_pipe` of `kernel/pipe.c`, and of the use of descriptors in `sys_open`, `sys_fork` and
`do_exit_current`.  Open files are objects with the count that `struct file` keeps; an object
stays in the model after `kfree`, marked as freed, and records how often its close operation
ran.

Whether a path can be opened, memory is found or a copy to user space succeeds is an input.
-/

namespace AuroraOS.Fd

open Lib List Function

def maxFds : Nat := 16

abbrev Tid := Nat
abbrev FileId := Nat
abbrev Slot := Tid × Fin maxFds

structure File where
  refcount : Nat
  /-- How often the close operation of the inode was due. -/
  closes : Nat := 0
  freed : Bool := false
deriving DecidableEq

structure System where
  files : FileId → Option File
  tasks : Finset Tid
  /-- `fd_table`; `none` is `(uintptr_t)-1`. -/
  slot : Slot → Option FileId

namespace System

variable (s : System) (t : Tid)

def setFile (f : FileId) (file : File) : System :=
  { s with files := update s.files f (some file) }

def setSlot (p : Slot) (f : Option FileId) : System :=
  { s with slot := update s.slot p f }

def vfsClose (f : FileId) : System :=
  match s.files f with
  | none => s
  | some file =>
    if file.refcount = 0 then s
    else if 0 < file.refcount - 1 then s.setFile f { file with refcount := file.refcount - 1 }
    else s.setFile f { refcount := 0, closes := file.closes + 1, freed := true }

def vfsFileDup (f : FileId) : System :=
  match s.files f with
  | none => s
  | some file =>
    if file.refcount = 0 then s else s.setFile f { file with refcount := file.refcount + 1 }

def freeFd : Option (Fin maxFds) :=
  (finRange maxFds).find? fun i => s.slot (t, i) = none

def fdIndex (fd : Int) : Option (Fin maxFds) :=
  if inside : 0 ≤ fd ∧ fd.toNat < maxFds then some ⟨fd.toNat, inside.2⟩ else none

def release (p : Slot) : System :=
  match s.slot p with
  | none => s
  | some f => (s.vfsClose f).setSlot p none

def fdClose (fd : Int) : System :=
  match fdIndex fd with
  | none => s
  | some i => s.release (t, i)

def fdCloseAll : System := (finRange maxFds).foldl (fun s i => s.release (t, i)) s

def fdDup (oldfd : Int) : System :=
  match fdIndex oldfd with
  | none => s
  | some old =>
    match s.slot (t, old) with
    | none => s
    | some f =>
      let s := s.vfsFileDup f
      match s.freeFd t with
      | some i => s.setSlot (t, i) (some f)
      | none => s.vfsClose f

def fdDup2 (oldfd newfd : Int) : System :=
  match fdIndex oldfd, fdIndex newfd with
  | some old, some new =>
    if old = new then s
    else
      match s.slot (t, old) with
      | none => s
      | some f => ((s.release (t, new)).vfsFileDup f).setSlot (t, new) (some f)
  | _, _ => s

def sysOpen (f : FileId) : System :=
  let s := s.setFile f { refcount := 1 }
  match s.freeFd t with
  | some i => s.setSlot (t, i) (some f)
  | none => s.vfsClose f

/-- `sys_pipe` once its memory is allocated, with `r` and `w` for the two files; their counts are
0.  Files that get no descriptor are freed again. -/
def sysPipe (r w : FileId) (copied : Bool) : System :=
  match s.freeFd t with
  | none => s
  | some rfd =>
    let s := (s.setFile r { refcount := 0 }).setSlot (t, rfd) (some r)
    match s.freeFd t with
    | none => s.release (t, rfd)
    | some wfd =>
      let s := (s.setFile w { refcount := 0 }).setSlot (t, wfd) (some w)
      if copied then s else (s.release (t, rfd)).release (t, wfd)

/-- One turn of the loop of `sys_fork` that copies the descriptors. -/
def inherit (child : Tid) (i : Fin maxFds) : System :=
  match s.slot (t, i) with
  | none => s
  | some f => (s.setSlot (child, i) (some f)).vfsFileDup f

def createTask (child : Tid) : System :=
  { s with
    tasks := insert child s.tasks
    slot := fun p => if p.1 = child then none else s.slot p }

def sysFork (child : Tid) : System :=
  (finRange maxFds).foldl (fun s i => s.inherit t child i) (s.createTask child)

def exit : System := s.fdCloseAll t

end System

inductive Op where
  | openFile (t : Tid) (f : FileId)
  | pipe (t : Tid) (r w : FileId) (copied : Bool)
  | dup (t : Tid) (oldfd : Int)
  | dup2 (t : Tid) (oldfd newfd : Int)
  | fork (t child : Tid)
  | close (t : Tid) (fd : Int)
  | exit (t : Tid)

def System.apply (s : System) : Op → System
  | .openFile t f => s.sysOpen t f
  | .pipe t r w copied => s.sysPipe t r w copied
  | .dup t oldfd => s.fdDup t oldfd
  | .dup2 t oldfd newfd => s.fdDup2 t oldfd newfd
  | .fork t child => s.sysFork t child
  | .close t fd => s.fdClose t fd
  | .exit t => s.exit t

/-- What the allocators give: new objects and new task ids. -/
def System.Enabled (s : System) : Op → Prop
  | .openFile t f => t ∈ s.tasks ∧ s.files f = none
  | .pipe t r w _ => t ∈ s.tasks ∧ s.files r = none ∧ s.files w = none ∧ r ≠ w
  | .fork t child => t ∈ s.tasks ∧ child ∉ s.tasks
  | .dup t _ | .dup2 t _ _ | .close t _ | .exit t => t ∈ s.tasks

instance (s : System) : DecidablePred s.Enabled
  | .openFile t f => inferInstanceAs (Decidable (t ∈ s.tasks ∧ s.files f = none))
  | .pipe t r w _ =>
    inferInstanceAs (Decidable (t ∈ s.tasks ∧ s.files r = none ∧ s.files w = none ∧ r ≠ w))
  | .fork t child => inferInstanceAs (Decidable (t ∈ s.tasks ∧ child ∉ s.tasks))
  | .dup t _ | .dup2 t _ _ | .close t _ | .exit t => inferInstanceAs (Decidable (t ∈ s.tasks))

def initial (init : Tid) : System where
  files _ := none
  tasks := {init}
  slot _ := none

def System.holders (s : System) (f : FileId) : Finset Slot :=
  Lib.holders (s.tasks ×ˢ Finset.univ) s.slot f

end AuroraOS.Fd
