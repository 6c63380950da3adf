import AuroraOS.PageTable.Model

/-!
# Memory of a process

Model of `sys_mmap` of `kernel/syscall.c` and of the randomised base of `kernel/aslr.c`.  What the
random generator returns is an argument; `none` is a panic of the kernel.
-/

namespace AuroraOS.Proc

open Lib Mem PageTable

abbrev Word := BitVec 64

inductive Errno
  | enosys
  | einval
  | enomem
deriving DecidableEq, Repr

structure Process where
  cr3 : Nat
  mmapBase : Word
deriving DecidableEq, Repr

def pageWord : Word := 4096#64

def userEnd : Word := 0x00007FFFFFFFFFFF#64

def numPages (length : Word) : Word := (length + pageWord - 1) / pageWord

/-! ## The randomised base -/

def aslrMmapBase : Word := 0x70000000000#64
def aslrMaxShift : Word := 0x40000000#64

def aslrRandomizeBase (base maxShift random : Word) : Word :=
  if maxShift = 0 then base
  else
    let pages := maxShift / pageWord
    if pages = 0 then base else base + random % pages * pageWord

def aslrRandomizeMmap (random : Word) : Word := aslrRandomizeBase aslrMmapBase aslrMaxShift random

/-! ## `sys_mmap` -/

def mmapStart (p : Process) (random : Word) : Word :=
  if p.mmapBase = 0 then
    if aslrRandomizeMmap random = 0 then aslrMmapBase else aslrRandomizeMmap random
  else p.mmapBase

def pageAt (base : Word) (i : Nat) : Nat := (base + BitVec.ofNat 64 i * pageWord).toNat

/-- The cleanup of `sys_mmap`: the pages mapped so far are unmapped and freed. -/
def mmapUndo (cr3 : Nat) (mapVa : Word) : Nat → List Nat → Kmem → Option Kmem
  | _, [], s => some s
  | j, page :: rest, s => do
    let s ← unmapPage s cr3 (pageAt mapVa j)
    let s ← freePage s page
    mmapUndo cr3 mapVa (j + 1) rest s

def mmapLoop (cr3 : Nat) (mapVa : Word) (flags : Entry) :
    Nat → List Nat → Kmem → Option (Bool × Kmem)
  | 0, _, s => some (true, s)
  | left + 1, pages, s => do
    match ← allocPage s with
    | (none, s) => do
      let s ← mmapUndo cr3 mapVa 0 pages s
      some (false, s)
    | (some phys, s) => do
      let s := { s with ram := fill s.ram phys pageSize 0 }
      let (ret, s) ← mapPage s cr3 (pageAt mapVa pages.length) phys flags
      if ret ≠ 0 then do
        let s ← freePage s phys
        let s ← mmapUndo cr3 mapVa 0 pages s
        some (false, s)
      else mmapLoop cr3 mapVa flags left (pages ++ [phys]) s

def mmapFlags (prot : BitVec 32) : Entry :=
  let flags := pteUser
  let flags := if prot &&& 2#32 ≠ 0 then flags ||| pteRw else flags
  if prot &&& 4#32 = 0 then flags ||| pteNx else flags

def sysMmap (s : Kmem) (p : Process) (random length : Word) (prot flags : BitVec 32) :
    Option (Except Errno Word × Process × Kmem) :=
  if flags &&& 0x20#32 = 0 then some (.error .enosys, p, s)
  else if length = 0 then some (.error .einval, p, s)
  else if length > BitVec.allOnes 64 - pageWord + 1 then some (.error .enomem, p, s)
  else
    let mapVa := mmapStart p random
    let p := { p with mmapBase := mapVa + numPages length * pageWord }
    if mapVa + length < mapVa ∨ mapVa + length > userEnd then some (.error .enomem, p, s)
    else if numPages length > 64 then some (.error .enomem, p, s)
    else do
      let (done, s) ← mmapLoop p.cr3 mapVa (mmapFlags prot) (numPages length).toNat [] s
      if done then some (.ok mapVa, p, s) else some (.error .enomem, p, s)

end AuroraOS.Proc
