import AuroraOS.Lib.Bytes
import AuroraOS.Lib.Chain

/-!
# The buddy page allocator

Model of `kernel/mem.c`: the page descriptors `page_array`, the free lists threaded through their
`next` fields, and the operations that take, split, merge and return blocks.

A descriptor is named by its page frame number; a null pointer is `none`.  `ram` is the physical
memory, in which `alloc_pages` clears the pages it hands out.  Loops over the free lists carry fuel:
an outer `none` is a loop that has not come to its end.
-/

namespace AuroraOS.Mem

open Lib List Function

/-! ## Constants -/

def pageSize : Nat := 4096
def maxOrder : Nat := 10

def buddyMaxPages : Nat := 256 * 1024 * 1024 / 4096

def physMemBase : Nat := 0x100000

def kernelPhysMax : Nat := 0x40000000

/-! ## State -/

structure PageFlags where
  free : Bool := false
  reserved : Bool := false
  slab : Bool := false
deriving DecidableEq, Repr

def pageFlagFree : PageFlags := { free := true }

/-- `struct page`.  The field `buddy` is only ever cleared and is left out. -/
structure Page where
  flags : PageFlags := {}
  order : Nat := 0
  refCount : Nat := 0
  physAddr : Nat := 0
  next : Option Nat := none
  slabCache : Option Nat := none
deriving DecidableEq, Repr

/-- The static data of `mem.c`, with the physical memory beside it.  In the kernel these data are
part of that memory: `page_array` alone takes 3 MiB of the image, which is loaded at 1 MiB, while
only the 2 MiB there are reserved.  What follows is the subject of `Mem.Placement`; everything else
takes the data to be apart from the pages that are handed out. -/
structure Kmem where
  pages : Nat → Page := fun _ => {}
  freeArea : Nat → Option Nat := fun _ => none
  totalPhysPages : Nat := 0
  physMemEnd : Nat := 0
  statTotalPages : Nat := 0
  statUsedPages : Nat := 0
  ram : Store

variable (s : Kmem)

def Kmem.setPage (pfn : Nat) (f : Page → Page) : Kmem :=
  { s with pages := update s.pages pfn (f (s.pages pfn)) }

def Kmem.setFreeArea (order : Nat) (head : Option Nat) : Kmem :=
  { s with freeArea := update s.freeArea order head }

def Kmem.setNext (pfn : Nat) (link : Option Nat) : Kmem :=
  s.setPage pfn fun p => { p with next := link }

def Kmem.nextOf (pfn : Nat) : Option Nat := (s.pages pfn).next

/-! ## Page descriptor helpers -/

/-- `phys_to_pfn`, with the sentinel `(uint64_t)-1` below the managed range. -/
def physToPfn (pa : Nat) : Nat :=
  if pa < physMemBase then 2 ^ 64 - 1 else (pa - physMemBase) / pageSize

def pfnToPhys (pfn : Nat) : Nat := physMemBase + pfn * pageSize

def getBuddy (pfn order : Nat) : Option Nat :=
  let buddyPfn := pfn ^^^ 2 ^ order
  if buddyPfn ≥ buddyMaxPages then none else some buddyPfn

def getPageStruct (physAddr : Nat) : Option Nat :=
  let pfn := physToPfn physAddr
  if pfn = 2 ^ 64 - 1 ∨ pfn ≥ s.totalPhysPages then none else some pfn

/-! ## Free list operations -/

def listAdd (order p : Nat) : Kmem :=
  (s.setNext p (s.freeArea order)).setFreeArea order (some p)

def listDel (order p : Nat) : Option Kmem :=
  if s.freeArea order = some p then
    some ((s.setFreeArea order (s.nextOf p)).setNext p none)
  else
    match findPrev s.nextOf p (buddyMaxPages + 1) (s.freeArea order) with
    | none => none
    | some none => some s
    | some (some prev) => some ((s.setNext prev (s.nextOf p)).setNext p none)

/-! ## Buddy allocator core -/

def markReserved (pfn : Nat) : Kmem :=
  s.setPage pfn fun p => { p with flags := { p.flags with reserved := true } }

def buddyMarkReserved (startPfn endPfn : Nat) : Kmem :=
  if startPfn ≥ buddyMaxPages then s
  else
    let endPfn := if endPfn > buddyMaxPages then buddyMaxPages else endPfn
    (range' startPfn (endPfn - startPfn)).foldl markReserved s

def markAvailable (pfn : Nat) : Kmem :=
  if (s.pages pfn).flags.reserved then s
  else
    let s := s.setPage pfn fun _ =>
      { flags := pageFlagFree, order := 0, refCount := 0, physAddr := pfnToPhys pfn,
        next := none, slabCache := none }
    let s := listAdd s 0 pfn
    { s with statTotalPages := s.statTotalPages + 1 }

def buddyMarkAvailable (startPfn endPfn : Nat) : Kmem :=
  if startPfn ≥ buddyMaxPages then s
  else
    let endPfn := if endPfn > buddyMaxPages then buddyMaxPages else endPfn
    (range' startPfn (endPfn - startPfn)).foldl markAvailable s

/-- The head descriptor of a free block as `buddy_split` and `buddy_merge` write it. -/
def Kmem.setFreeHead (pfn order : Nat) : Kmem :=
  s.setPage pfn fun p =>
    { p with flags := pageFlagFree, order := order, physAddr := pfnToPhys pfn }

def buddySplit (order : Nat) : Option (Option Nat × Kmem) :=
  if order = 0 ∨ order > maxOrder then some (none, s)
  else
    match s.freeArea order with
    | none => some (none, s)
    | some p => do
      let s ← listDel s order p
      let newOrder := order - 1
      let buddyPfn := p + 2 ^ newOrder
      let s := s.setFreeHead p newOrder
      let s := s.setFreeHead buddyPfn newOrder
      let s := listAdd s newOrder p
      let s := listAdd s newOrder buddyPfn
      some (some p, s)

def buddyMergeLoop : Nat → Kmem → Nat → Option (Nat × Kmem)
  | 0, _, _ => none
  | fuel + 1, s, p =>
    let order := (s.pages p).order
    if order ≥ maxOrder then some (p, s)
    else
      match getBuddy p order with
      | none => some (p, s)
      | some buddy =>
        if (s.pages buddy).flags.free = false then some (p, s)
        else if (s.pages buddy).order ≠ order then some (p, s)
        else do
          let s ← listDel s order p
          let s ← listDel s order buddy
          let basePfn := if p < buddy then p else buddy
          let s := s.setFreeHead basePfn (order + 1)
          let s := listAdd s (order + 1) basePfn
          buddyMergeLoop fuel s basePfn

def buddyMerge (p : Nat) : Option (Nat × Kmem) :=
  buddyMergeLoop (maxOrder + 1) s p

/-- The inner `while (p)` of `buddy_coalesce_all`; the result says whether a
merge asked for a restart from the head. -/
def coalesceWalk : Nat → Kmem → Option Nat → Option (Bool × Kmem)
  | 0, _, _ => none
  | _ + 1, s, none => some (false, s)
  | fuel + 1, s, some p =>
    if (s.pages p).flags.free = false then coalesceWalk fuel s (s.nextOf p)
    else do
      let (result, s) ← buddyMerge s p
      if result ≠ p then some (true, s) else coalesceWalk fuel s (s.nextOf p)

/-- Fuel for one walk: every turn merges a block or moves along a free list. -/
def coalesceFuel : Nat := (buddyMaxPages + 1) * (buddyMaxPages + 2)

def coalesceOrder (order : Nat) : Nat → Kmem → Option Kmem
  | 0, _ => none
  | fuel + 1, s => do
    let (merged, s) ← coalesceWalk coalesceFuel s (s.freeArea order)
    if merged then coalesceOrder order fuel s else some s

def buddyCoalesceAll : Option Kmem :=
  (range maxOrder).foldlM (fun s order => coalesceOrder order (buddyMaxPages + 1) s) s

/-! ## Taking and returning blocks -/

/-- The search of `alloc_pages` for the smallest order with a free block. -/
def findOrder (order : Nat) : Option Nat :=
  (range' order (maxOrder + 1 - order)).find? fun k => (s.freeArea k).isSome

def splitDown (order : Nat) : Nat → Kmem → Option Kmem
  | 0, s => some s
  | depth + 1, s => do
    let (_, s) ← buddySplit s (order + (depth + 1))
    splitDown order depth s

def Kmem.releaseUsed (order : Nat) : Kmem :=
  { s with statUsedPages :=
      if s.statUsedPages ≥ 2 ^ order then s.statUsedPages - 2 ^ order else 0 }

def takeBlock (order : Nat) : Option (Option Nat × Kmem) :=
  match s.freeArea order with
  | none => some (none, s)
  | some p => do
    let s ← listDel s order p
    let s := s.setPage p fun q =>
      { q with flags := { q.flags with free := false }, order := order, refCount := 1 }
    let s := { s with statUsedPages := s.statUsedPages + 2 ^ order }
    let pa := (s.pages p).physAddr
    if pa ≥ kernelPhysMax then
      let s := s.setPage p fun q =>
        { q with flags := { q.flags with free := true }, order := order, refCount := 0 }
      let s := listAdd s order p
      some (none, s.releaseUsed order)
    else
      some (some pa, { s with ram := fill s.ram pa (pageSize * 2 ^ order) 0 })

/-- `alloc_pages`: the physical address of `2 ^ order` pages, or `NULL`. -/
def allocPages (order : Nat) : Option (Option Nat × Kmem) :=
  if order > maxOrder then some (none, s)
  else
    match findOrder s order with
    | none => some (none, s)
    | some currentOrder => do
      let s ← splitDown order (currentOrder - order) s
      takeBlock s order

def freePages (ptr order : Nat) : Option Kmem :=
  if ptr = 0 then some s
  else if order > maxOrder then some s
  else if ptr < physMemBase then some s
  else
    let pfn := physToPfn ptr
    if pfn = 2 ^ 64 - 1 ∨ pfn ≥ s.totalPhysPages then some s
    else if (s.pages pfn).flags.reserved then some s
    else if (s.pages pfn).flags.free then some s
    else do
      let s := s.setPage pfn fun p =>
        { p with flags := { p.flags with free := true }, order := order, refCount := 0 }
      let s := listAdd s order pfn
      let s := s.releaseUsed order
      let (_, s) ← buddyMerge s pfn
      some s

/-! ## Initialisation -/

def physMemInitWith (totalRam : Nat) : Option Kmem :=
  let s := { s with pages := fun _ => {}, freeArea := fun _ => none }
  let s := { s with physMemEnd := totalRam, totalPhysPages := totalRam / pageSize }
  let kernelReservedPages := 2 * 1024 * 1024 / pageSize
  let s := buddyMarkReserved s 0 kernelReservedPages
  let heapStartPfn := 8 * 1024 * 1024 / pageSize
  let heapEndPfn := 32 * 1024 * 1024 / pageSize
  let heapEndPfn := if heapEndPfn > s.totalPhysPages then s.totalPhysPages else heapEndPfn
  let s := buddyMarkReserved s heapStartPfn heapEndPfn
  let s := buddyMarkAvailable s kernelReservedPages s.totalPhysPages
  buddyCoalesceAll s

end AuroraOS.Mem
