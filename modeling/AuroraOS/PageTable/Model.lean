import AuroraOS.PageTable.Entry

/-!
# Four-level page tables

Model of `kernel/pagetable.c`.  Tables are pages of the physical memory, reached
through the kernel's identity mapping; a table is named by its physical address.
`none` is a panic of the kernel, or a fault that comes back for ever.  Levels are numbered from
the bottom: 0 is the PT, 1 the PD, 2 the PDPT and 3 the PML4.

The TLB is not modelled, so its invalidation leaves no trace, and neither are the log
and the performance counters.
-/

namespace AuroraOS.PageTable

open Lib Mem List

/-! ## Helpers -/

def tableIdx (level vaddr : Nat) : Nat := vaddr / 2 ^ (12 + 9 * level) % 512

variable (s : Kmem)

def entry (table idx : Nat) : Entry := readEntry s.ram table idx

def setEntry (table idx : Nat) (e : Entry) : Kmem :=
  { s with ram := writeEntry s.ram table idx e }

/-- `phys_to_virt`: panics behind the identity-mapped range. -/
def physToVirt (pa : Nat) : Option Nat := if pa ≥ kernelPhysMax then none else some pa

def allocPage : Option (Option Nat × Kmem) := allocPages s 0

def freePage (ptr : Nat) : Option Kmem := freePages s ptr 0

/-- `alloc_table_page`; `none` inside is the address 0. -/
def allocTablePage : Option (Option Nat × Kmem) := do
  match ← allocPage s with
  | (none, s) => some (none, s)
  | (some p, s) => some (some p, { s with ram := fill s.ram p pageSize 0 })

def setRef (pfn count : Nat) : Kmem :=
  s.setPage pfn fun p => { p with refCount := count }

def pageRefInc (pa : Nat) : Kmem :=
  match getPageStruct s pa with
  | none => s
  | some pfn => setRef s pfn (((s.pages pfn).refCount + 1) % 2 ^ 32)

def pageRefGet (pa : Nat) : Nat :=
  match getPageStruct s pa with
  | none => 0
  | some pfn => (s.pages pfn).refCount

/-- Give one reference back, and the page with the last one: the sequence that
`pf_handler_c` and `free_pagetable` share. -/
def dropRef (pa : Nat) : Option Kmem :=
  match getPageStruct s pa with
  | none => some s
  | some pfn =>
    let newRef := ((s.pages pfn).refCount + 2 ^ 32 - 1) % 2 ^ 32
    let s := setRef s pfn newRef
    if newRef = 0 then freePage s pa else some s

def splitHugePage (pd pdIdx : Nat) : Option (Option Nat × Kmem) := do
  let huge := entry s pd pdIdx
  if !has huge ptePs then some (none, s)
  else
    match ← allocTablePage s with
    | (none, s) => some (none, s)
    | (some pt, s) => do
      let newPt ← physToVirt pt
      let flags := (huge &&& 0xFFF#64 &&& ~~~ptePs) ||| ptePresent ||| pteAccessed ||| pteDirty
      let s := (range 512).foldl (fun s i =>
        setEntry s newPt i (((huge &&& pteAddrMask) + BitVec.ofNat 64 (i * 4096)) ||| flags)) s
      some (some pt, setEntry s pd pdIdx (BitVec.ofNat 64 pt ||| pteStructFlags))

/-! ## Walks -/

inductive Found
  | missing
  /-- a 2 MiB page in this page directory -/
  | huge (pd : Nat)
  | table (pt : Nat)
deriving DecidableEq, Repr

def walk (s : Kmem) : Nat → Nat → Nat → Option Found
  | 0, pt, _ => some (.table pt)
  | level + 1, table, vaddr =>
    let e := entry s table (tableIdx (level + 1) vaddr)
    if !has e ptePresent then some .missing
    else if level = 0 ∧ has e ptePs then some (.huge table)
    else do
      let next ← physToVirt (pteAddr e)
      walk s level next vaddr

/-! ## Mapping -/

/-- The step of `map_page` from a table to the one below: the table is made if it is
missing, and a 2 MiB page is split. -/
def descend (level table vaddr : Nat) (structFlags : Entry) : Option (Option Nat × Kmem) :=
  let idx := tableIdx (level + 1) vaddr
  let e := entry s table idx
  if !has e ptePresent then do
    match ← allocTablePage s with
    | (none, s) => some (none, s)
    | (some next, s) =>
      some (some next, setEntry s table idx (BitVec.ofNat 64 next ||| structFlags))
  else if level = 0 ∧ has e ptePs then splitHugePage s table idx
  else some (some (pteAddr e), s)

def descendTo (structFlags : Entry) : Nat → Nat → Nat → Kmem → Option (Option Nat × Kmem)
  | 0, pt, _, s => some (some pt, s)
  | level + 1, table, vaddr, s => do
    match ← descend s level table vaddr structFlags with
    | (none, s) => some (none, s)
    | (some next, s) => do
      let next ← physToVirt next
      descendTo structFlags level next vaddr s

/-- The reference that a replaced mapping of `map_page` gives back. -/
def replaceRef (pa : Nat) : Option Kmem :=
  match getPageStruct s pa with
  | none => some s
  | some pfn =>
    let oldRef := (s.pages pfn).refCount
    if oldRef = 0 then some (setRef s pfn 0)
    else
      let s := setRef s pfn (oldRef - 1)
      if oldRef = 1 then freePage s pa else some s

/-- `map_page`: 0 or -1. -/
def mapPage (pml4Phys vaddr paddr : Nat) (flags : Entry) : Option (Int × Kmem) := do
  let structFlags := if has flags pteUser then pteStructFlags ||| pteUser else pteStructFlags
  let pml4 ← physToVirt pml4Phys
  match ← descendTo structFlags 3 pml4 vaddr s with
  | (none, s) => some (-1, s)
  | (some pt, s) => do
    let idx := tableIdx 0 vaddr
    let old := entry s pt idx
    let s ← if has old ptePresent then replaceRef s (pteAddr old) else some s
    let pa := BitVec.ofNat 64 paddr
    let pte := (pa &&& ~~~0xFFF#64) ||| (flags &&& 0xFFF#64) ||| ptePresent
    let pte := if has flags pteNx then pte ||| pteNx else pte
    some (0, pageRefInc (setEntry s pt idx pte) (pteAddr pa))

def mapUserPage (pml4Phys vaddr paddr : Nat) (flags : Entry) : Option (Int × Kmem) :=
  mapPage s pml4Phys vaddr paddr (flags ||| pteUser)

def unmapPage (pml4Phys vaddr : Nat) : Option Kmem := do
  let pml4 ← physToVirt pml4Phys
  match ← walk s 3 pml4 vaddr with
  | .missing | .huge _ => some s
  | .table pt =>
    if !has (entry s pt (tableIdx 0 vaddr)) ptePresent then some s
    else some (setEntry s pt (tableIdx 0 vaddr) 0)

/-! ## Release -/

/-- `free_pagetable` below one entry: the leaves give their references back, and the
tables are freed from the bottom up. -/
def freeBelow : Nat → Nat → Kmem → Option Kmem
  | 0, pt, s => do
    let s ← (range 512).foldlM (fun s l =>
      let pte := entry s pt l
      if !has pte ptePresent then some s else dropRef s (pteAddr pte)) s
    freePage s pt
  | level + 1, table, s => do
    let s ← (range 512).foldlM (fun s i =>
      let e := entry s table i
      if !has e ptePresent then some s
      else if level = 0 ∧ has e ptePs then some s
      else do
        let next ← physToVirt (pteAddr e)
        freeBelow level next s) s
    freePage s table

def freePagetable (pml4Phys : Nat) : Option Kmem :=
  if pml4Phys = 0 then some s
  else do
    let pml4 ← physToVirt pml4Phys
    let s ← (range' 1 255).foldlM (fun s i =>
      let e := entry s pml4 i
      if !has e ptePresent then some s
      else do
        let pdpt ← physToVirt (pteAddr e)
        freeBelow 2 pdpt s) s
    freePage s pml4Phys

/-! ## Cloning -/

/-- The entry that both sides get for a shared page: not writable. -/
def cowEntry (src : Entry) : Entry :=
  let physPage := src &&& pteAddrMask
  let oldFlags := src &&& ~~~pteAddrMask
  let cowFlags := (oldFlags &&& ~~~pteRw) ||| ptePresent
  let cowFlags := if has oldFlags pteUser then cowFlags ||| pteUser else cowFlags
  let cowFlags := if has oldFlags pteNx then cowFlags ||| pteNx else cowFlags
  physPage ||| cowFlags

def cloneLeaf (srcPt dstPt : Nat) (s : Kmem) (l : Nat) : Kmem :=
  let src := entry s srcPt l
  if !has src ptePresent then setEntry s dstPt l 0
  else
    let s := pageRefInc s (pteAddr src)
    let s := setEntry s srcPt l (cowEntry src)
    setEntry s dstPt l (cowEntry src)

def loopOrFail (body : Nat → Kmem → Option (Bool × Kmem)) : List Nat → Kmem → Option (Bool × Kmem)
  | [], s => some (true, s)
  | i :: rest, s => do
    match ← body i s with
    | (false, s) => some (false, s)
    | (true, s) => loopOrFail body rest s

/-- One entry of an upper table: a new table for the copy, filled by `below`.  A 2 MiB
page is skipped. -/
def cloneEntry (below : Nat → Nat → Kmem → Option (Bool × Kmem)) (isPd : Bool)
    (src dst i : Nat) (s : Kmem) : Option (Bool × Kmem) :=
  let e := entry s src i
  if !has e ptePresent then some (true, setEntry s dst i 0)
  else if isPd && has e ptePs then some (true, setEntry s dst i 0)
  else do
    match ← allocTablePage s with
    | (none, s) => some (false, s)
    | (some new, s) => do
      let s := setEntry s dst i (BitVec.ofNat 64 new ||| pteStructFlags)
      let srcNext ← physToVirt (pteAddr e)
      let dstNext ← physToVirt new
      below srcNext dstNext s

def cloneBelow : Nat → Nat → Nat → Kmem → Option (Bool × Kmem)
  | 0, src, dst, s => some (true, (range 512).foldl (cloneLeaf src dst) s)
  | level + 1, src, dst, s =>
    loopOrFail (cloneEntry (cloneBelow level) (level == 0) src dst) (range 512) s

/-- `clone_current_pml4`: the address of the new PML4, or `kernel_cr3` on failure. -/
def cloneCurrentPml4 (kernelCr3 currentCr3 : Nat) : Option (Nat × Kmem) := do
  match ← allocPage s with
  | (none, s) => some (kernelCr3, s)
  | (some dst, s) => do
    let src ← physToVirt currentCr3
    let s := (range' 256 256).foldl (fun s i => setEntry s dst i (entry s src i)) s
    let s := setEntry s dst 0 (entry s src 0)
    match ← loopOrFail (cloneEntry (cloneBelow 2) false src dst) (range' 1 255) s with
    | (true, s) => some (dst, s)
    | (false, s) => do
      let s ← freePagetable s dst
      some (kernelCr3, s)

/-! ## Page faults -/

/-- How a fault ends: the instruction runs again, or the process gets `SIGSEGV`. -/
inductive FaultResult
  | resolved
  | sigsegv
deriving DecidableEq, Repr

/-- Whether every entry on the way to an address has a flag, as the processor asks of `PTE_USER` for
an access in user mode and of `PTE_RW` for a store. -/
def granted (flag : Entry) (s : Kmem) : Nat → Nat → Nat → Bool
  | 0, pt, vaddr => has (entry s pt (tableIdx 0 vaddr)) flag
  | level + 1, table, vaddr =>
    let e := entry s table (tableIdx (level + 1) vaddr)
    has e flag && (level == 0 && has e ptePs || granted flag s level (pteAddr e) vaddr)

/-- The end of the write-fault path, at the entry of the faulting address.  With SMAP the copy of a
page that is open to user mode faults for ever: there is no `stac` around it, and the handler of the
second fault returns to the same instruction. -/
def cowResolve (smap : Bool) (cr3 pt cr2 : Nat) : Option (FaultResult × Kmem) :=
  let idx := tableIdx 0 cr2
  let pte := entry s pt idx
  if !has pte ptePresent then none
  else if pageRefGet s (pteAddr pte) ≤ 1 then
    some (.resolved, setEntry s pt idx (pte ||| pteRw))
  else do
    match ← allocPage s with
    | (none, s) => some (.sigsegv, s)
    | (some new, s) =>
      if smap && granted pteUser s 3 cr3 cr2 then none
      else do
        -- the copy reads the page that the faulting address maps
        let s := { s with ram := blit s.ram new pageSize fun o => s.ram (pteAddr pte + o) }
        let s ← dropRef s (pteAddr pte)
        let newFlags := (pte &&& (pteUser ||| pteNx)) ||| ptePresent ||| pteRw
        some (.resolved,
          setEntry s pt idx ((BitVec.ofNat 64 new &&& pteAddrMask) ||| newFlags))

/-- The write-fault path of `pf_handler_c`. -/
def cowFault (smap : Bool) (cr3 cr2 : Nat) : Option (FaultResult × Kmem) := do
  let pml4 ← physToVirt cr3
  match ← walk s 3 pml4 cr2 with
  | .missing => none
  | .huge pd => do
    match ← splitHugePage s pd (tableIdx 1 cr2) with
    | (none, _) => none
    | (some _, s) => do
      let pt ← physToVirt (pteAddr (entry s pd (tableIdx 1 cr2)))
      cowResolve s smap cr3 pt cr2
  | .table pt => cowResolve s smap cr3 pt cr2

def lazyFault (cr3 cr2 : Nat) : Option (FaultResult × Kmem) :=
  if cr2 > 0x00007FFFFFFFFFFF then some (.sigsegv, s)
  else do
    match ← allocPage s with
    | (none, s) => some (.sigsegv, s)
    | (some new, s) => do
      let (ret, s) ← mapUserPage s cr3 (cr2 / pageSize * pageSize) new
        (ptePresent ||| pteRw ||| pteUser)
      if ret < 0 then do
        let s ← freePage s new
        some (.sigsegv, s)
      else some (.resolved, s)

/-- Whether the walk finds a user page: the test for an SMAP violation. -/
def userLeaf (cr3 cr2 : Nat) : Option Bool := do
  let pml4 ← physToVirt cr3
  match ← walk s 3 pml4 cr2 with
  | .missing => some false
  | .huge pd => some (has (entry s pd (tableIdx 1 cr2)) pteUser)
  | .table pt =>
    let pte := entry s pt (tableIdx 0 cr2)
    some (has pte ptePresent && has pte pteUser)

/-- `pf_handler_c`; `cr3` is the table of the faulting process, `hasCurrent` says whether
there is one, and `smap` whether SMAP is in force: it is on, and the flag AC is clear. -/
def pfHandler (smap : Bool) (cr3 cr2 : Nat) (errorCode : Entry) (hasCurrent : Bool) :
    Option (FaultResult × Kmem) :=
  let present := has errorCode 1
  let write := has errorCode 2
  let user := has errorCode 4
  if !present then
    if !user then none else lazyFault s cr3 cr2
  else if write && user then cowFault s smap cr3 cr2
  else if !user then do
    if (← userLeaf s cr3 cr2) && hasCurrent then some (.sigsegv, s) else none
  else none

/-! ## Accesses of a process -/

/-- The physical address that an entry of a PT, or of a 2 MiB page, gives a virtual one. -/
def physOf (pte : Entry) (vaddr : Nat) : Nat := pteAddr pte + vaddr % pageSize

def largePhysOf (pde : Entry) (vaddr : Nat) : Nat :=
  pteAddr pde / 2 ^ 21 * 2 ^ 21 + vaddr % 2 ^ 21

def translate (cr3 vaddr : Nat) : Option (Entry × Nat) :=
  match walk s 3 cr3 vaddr with
  | some (.table pt) =>
    let pte := entry s pt (tableIdx 0 vaddr)
    if has pte ptePresent then some (pte, physOf pte vaddr) else none
  | some (.huge pd) =>
    let pde := entry s pd (tableIdx 1 vaddr)
    some (pde, largePhysOf pde vaddr)
  | _ => none

/-- What the process reads in user mode: nothing where the processor does not let it. -/
def userRead (cr3 vaddr : Nat) : Option UInt8 :=
  if granted pteUser s 3 cr3 vaddr then (translate s cr3 vaddr).map fun leaf => s.ram leaf.2
  else none

def storeByte (pa : Nat) (byte : UInt8) : Kmem :=
  { s with ram := Function.update s.ram pa byte }

/-- A store in user mode through the entry that maps the address.  Where the processor does not let
it, it faults, with the error code of a user write to a present page, and runs again: `none` is also
a store that has not ended after `fuel` faults. -/
def userStore (smap : Bool) (cr3 vaddr : Nat) (byte : UInt8) :
    Nat → Kmem → Option (FaultResult × Kmem)
  | 0, _ => none
  | fuel + 1, s => do
    let leaf ← translate s cr3 vaddr
    if granted pteUser s 3 cr3 vaddr && granted pteRw s 3 cr3 vaddr then
      some (.resolved, storeByte s leaf.2 byte)
    else
      match ← pfHandler s smap cr3 vaddr 7 true with
      | (.sigsegv, s) => some (.sigsegv, s)
      | (.resolved, s) => userStore smap cr3 vaddr byte fuel s

end AuroraOS.PageTable
