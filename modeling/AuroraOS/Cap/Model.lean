import AuroraOS.Fd.Model

/-!
# Descriptors with capabilities

Model of `kernel/capability.c`.  The entries are blocks of kernel memory: a freed block keeps
its contents until `kmalloc` hands it out again.  The block that `kmalloc` returns, and the
task that `find_task_by_pid` finds, are arguments.

The counts of the files are left out; no function here reads them.
-/

namespace AuroraOS.Cap

open Function

open Fd (maxFds)
open Fd.System (fdIndex)

def capEntryMagic : BitVec 32 := 0xCAFEFD00
def capSend : BitVec 32 := 1 <<< 3

structure CapEntry where
  magic : BitVec 32 := 0
  file : Nat := 0
  caps : BitVec 32 := 0
deriving DecidableEq, Repr

/-- Kernel memory, the blocks in use, and the table of every task; `none` is
`(uintptr_t)-1`. -/
structure System where
  mem : Nat → CapEntry
  live : Nat → Bool
  fdTable : Nat → Fin maxFds → Option Nat

namespace System

variable (s : System)

def setSlot (t : Nat) (i : Fin maxFds) (slot : Option Nat) : System :=
  { s with fdTable := update s.fdTable t (update (s.fdTable t) i slot) }

def store (a : Nat) (entry : CapEntry) : System :=
  { s with
    live := update s.live a true
    mem := update s.mem a entry }

def kfree (a : Nat) : System :=
  { s with live := update s.live a false }

def freeSlot (t : Nat) : Option (Fin maxFds) :=
  (List.finRange maxFds).find? fun i => s.fdTable t i = none

def capFdAlloc (t : Option Nat) (filp : Option Nat) (caps : BitVec 32)
    (memory : Option Nat) : Int × System :=
  match t, filp with
  | some t, some filp =>
    match memory with
    | none => (-1, s)
    | some entry =>
      let s := s.store entry ⟨capEntryMagic, filp, caps⟩
      match s.freeSlot t with
      | some i => (i, s.setSlot t i (some entry))
      | none => (-1, s.kfree entry)
  | _, _ => (-1, s)

def capGet (t : Option Nat) (fd : Int) : Option (Nat × Fin maxFds × Nat) := do
  let t ← t
  let i ← fdIndex fd
  let entry ← s.fdTable t i
  if (s.mem entry).magic ≠ capEntryMagic then none
  else some (t, i, entry)

def capFdClose (t : Option Nat) (fd : Int) : Int × System :=
  match s.capGet t fd with
  | none => (-1, s)
  | some (t, i, entry) => (0, (s.kfree entry).setSlot t i none)

def closeSlot (t : Nat) (i : Fin maxFds) : System :=
  match s.fdTable t i with
  | none => s
  | some entry =>
    if (s.mem entry).magic ≠ capEntryMagic then s
    else (s.setSlot t i none).kfree entry

def capFdCloseAll (t : Option Nat) : System :=
  match t with
  | none => s
  | some t => (List.finRange maxFds).foldl (fun s i => s.closeSlot t i) s

def fdDerive (current : Option Nat) (oldFd : Int) (newCaps : BitVec 32)
    (memory : Option Nat) : Int × System :=
  match s.capGet current oldFd with
  | none => (-1, s)
  | some (_, _, entry) =>
    if newCaps &&& ~~~(s.mem entry).caps ≠ 0 then (-1, s)
    else s.capFdAlloc current (some (s.mem entry).file) newCaps memory

/-- `fd_send`; `target` is the task that `find_task_by_pid` finds. -/
def fdSend (current : Option Nat) (fd : Int) (target : Option Nat)
    (memory : Option Nat) : Int × System :=
  match s.capGet current fd with
  | none => (-1, s)
  | some (t, i, entry) =>
    if (s.mem entry).caps &&& capSend = 0 then (-1, s)
    else
      match target with
      | none => (-1, s)
      | some target =>
        let (newFd, s) := s.capFdAlloc (some target) (some (s.mem entry).file)
          (s.mem entry).caps memory
        if newFd < 0 then (-1, s)
        else (0, (s.kfree entry).setSlot t i none)

end System

inductive Op
  | alloc (t filp : Option Nat) (caps : BitVec 32) (memory : Option Nat)
  | close (t : Option Nat) (fd : Int)
  | closeAll (t : Option Nat)
  | derive (current : Option Nat) (oldFd : Int) (newCaps : BitVec 32) (memory : Option Nat)
  | send (current : Option Nat) (fd : Int) (target memory : Option Nat)

def Op.memory : Op → Option Nat
  | alloc _ _ _ memory => memory
  | derive _ _ _ memory => memory
  | send _ _ _ memory => memory
  | close _ _ => none
  | closeAll _ => none

def System.exec (s : System) : Op → Int × System
  | .alloc t filp caps memory => s.capFdAlloc t filp caps memory
  | .close t fd => s.capFdClose t fd
  | .closeAll t => (0, s.capFdCloseAll t)
  | .derive current oldFd newCaps memory => s.fdDerive current oldFd newCaps memory
  | .send current fd target memory => s.fdSend current fd target memory

end AuroraOS.Cap
