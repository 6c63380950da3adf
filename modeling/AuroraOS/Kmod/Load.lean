import Mathlib.Data.BitVec

/-!
# Loading a kernel module

Model of `module_load` in `kernel/module.c` from its first pass over the section headers to the
relocations, for a file that has passed the checks of its header.  What it writes to the memory of
the module is the list of its writes, in order.

The first pass rounds `total_size` up to the alignment of every section but never adds the size of
one, so the size asked from `kmalloc` is 0, and `kmalloc(0)` is `NULL`: no module is ever loaded.
-/

namespace AuroraOS.Kmod

abbrev Word := BitVec 64

def shtProgbits : Nat := 1
def shtStrtab : Nat := 3
def shtRela : Nat := 4
def shtNobits : Nat := 8
def shfAlloc : Word := 2
def maxSections : Nat := 64

structure Shdr where
  type : Nat
  flags : Word
  size : Word
  offset : Word
  addralign : Word
  info : Nat

structure Rela where
  offset : Word
  type : Nat
  sym : Nat

structure SectionInfo where
  addr : Word := 0
  size : Word
  fileOffset : Word
  align : Word
  type : Nat

/-- The file: its section headers, how many bytes a read of a range delivers, the entries of a RELA
section (`none` when they cannot be had), and whether the name of a symbol is inside the string
table. -/
structure File where
  shdrs : List Shdr
  shstrndx : Nat
  read : Word → Nat → Nat
  relas : Nat → Option (List Rela)
  named : Nat → Bool

structure Write where
  addr : Word
  len : Nat

def alignUp (val align : Word) : Word :=
  if align = 0 then val else (val + align - 1) &&& ~~~(align - 1)

def kmalloc (heap : Word → Option Word) (size : Word) : Option Word :=
  if size = 0 then none else heap size

/-! ## The first pass -/

def Shdr.isAlloc (h : Shdr) : Bool := h.flags &&& shfAlloc ≠ 0

structure Pass where
  secs : List SectionInfo := []
  totalSize : Word := 0
  strtab : Option Shdr := none

/-- The first string table that is not the one of the section names. -/
def Pass.note (p : Pass) (shstrndx i : Nat) (h : Shdr) : Pass :=
  if h.type = shtStrtab ∧ i ≠ shstrndx ∧ p.strtab.isNone then { p with strtab := some h } else p

/-- The loop of the first pass; `none` is a return with an error. -/
def scan (shstrndx : Nat) : List Shdr → Nat → Pass → Option Pass
  | [], _, p => some p
  | h :: rest, i, p =>
    if maxSections ≤ p.secs.length then some p
    else
      let p := p.note shstrndx i h
      if !h.isAlloc || h.size == 0 then scan shstrndx rest (i + 1) p
      else if h.addralign = 0 ∨ h.addralign &&& (h.addralign - 1) ≠ 0 ∨ 4096 < h.addralign then
        none
      else
        let align := if h.addralign < 16 then 16 else h.addralign
        let totalSize := alignUp p.totalSize align
        if totalSize < p.totalSize then none
        else
          scan shstrndx rest (i + 1)
            { p with
              totalSize := totalSize
              secs := p.secs ++ [⟨0, h.size, h.offset, align, h.type⟩] }

/-! ## The second pass and the relocations -/

/-- The sections with their addresses, and the bytes read into them. -/
def place (f : File) (base : Word) : List SectionInfo → Word → List SectionInfo × List Write
  | [], _ => ([], [])
  | sec :: rest, currentOffset =>
    let currentOffset := alignUp currentOffset sec.align
    let sec := { sec with addr := base + currentOffset }
    let copied :=
      if sec.type = shtNobits then [] else [⟨sec.addr, f.read sec.fileOffset sec.size.toNat⟩]
    let (secs, writes) := place f base rest (currentOffset + sec.size)
    (sec :: secs, copied ++ writes)

/-- The address of the section that a RELA section relocates, 0 when there is none. -/
def targetBase (shdrs : List Shdr) (secs : List SectionInfo) (info : Nat) : Word :=
  match shdrs[info]? with
  | none => 0
  | some h =>
    if h.isAlloc ∧ (h.type = shtProgbits ∨ h.type = shtNobits) then
      match secs.find? fun s => s.size == h.size && s.fileOffset == h.offset with
      | some s => s.addr
      | none => 0
    else 0

/-- The width of the store of a relocation type: `R_X86_64_64`, `R_X86_64_RELATIVE`,
`R_X86_64_PC32`, `R_X86_64_32` and `R_X86_64_32S`. -/
def storeWidth (type : Nat) : Option Nat :=
  if type = 1 ∨ type = 8 then some 8
  else if type = 2 ∨ type = 10 ∨ type = 11 then some 4
  else none

def relocate (f : File) (totalSize target : Word) (r : Rela) : Option Write :=
  if totalSize ≤ r.offset then none
  else if !f.named r.sym then none
  else (storeWidth r.type).map fun width => ⟨target + r.offset, width⟩

def relocateSection (f : File) (secs : List SectionInfo) (totalSize : Word) (i : Nat) (h : Shdr) :
    List Write :=
  let target := targetBase f.shdrs secs h.info
  if h.type ≠ shtRela ∨ h.size = 0 ∨ target = 0 ∨ 2 ^ 20 < h.size then []
  else ((f.relas i).getD []).filterMap (relocate f totalSize target)

/-! ## The whole load -/

/-- What a load has done: the buffer (address and size) if there is one, the sections placed in it
and the writes. -/
structure Loaded where
  buffer : Option (Word × Word) := none
  sections : List SectionInfo := []
  writes : List Write := []

def moduleLoad (heap : Word → Option Word) (f : File) : Loaded :=
  match scan f.shstrndx f.shdrs 0 {} with
  | none => {}
  | some p =>
    if p.secs.isEmpty then {}
    else
      match kmalloc heap p.totalSize with
      | none => {}
      | some base =>
        let (secs, copied) := place f base p.secs 0
        -- A string table over 1 MiB ends the load before the relocations.
        let relocated :=
          if p.strtab.any fun h => (1048576 : Word) < h.size then []
          else f.shdrs.zipIdx.flatMap fun (h, i) => relocateSection f secs p.totalSize i h
        ⟨some (base, p.totalSize), secs, copied ++ relocated⟩

def Loaded.Holds (l : Loaded) (addr : Word) (len : Nat) : Prop :=
  ∃ base size, l.buffer = some (base, size) ∧ base.toNat ≤ addr.toNat ∧
    addr.toNat + len ≤ base.toNat + size.toNat

/-- Every write is inside the buffer, and the sections have disjoint parts of it. -/
structure Loaded.Contained (l : Loaded) : Prop where
  writes : ∀ w ∈ l.writes, l.Holds w.addr w.len
  sections : ∀ s ∈ l.sections, l.Holds s.addr s.size.toNat
  apart : l.sections.Pairwise fun s t =>
    s.addr.toNat + s.size.toNat ≤ t.addr.toNat ∨ t.addr.toNat + t.size.toNat ≤ s.addr.toNat

lemma alignUp_zero (align : Word) : alignUp 0 align = 0 := by
  unfold alignUp
  split
  · rfl
  · simp only [BitVec.ofNat_eq_ofNat, BitVec.zero_add, BitVec.and_not_self]

lemma note_totalSize (p : Pass) (shstrndx i : Nat) (h : Shdr) :
    (p.note shstrndx i h).totalSize = p.totalSize := by
  unfold Pass.note
  split <;> rfl

lemma scan_totalSize {shstrndx : Nat} {shdrs : List Shdr} {i : Nat} {p q : Pass}
    (empty : p.totalSize = 0) (done : scan shstrndx shdrs i p = some q) : q.totalSize = 0 := by
  induction shdrs generalizing i p with
  | nil =>
    cases done
    exact empty
  | cons h rest ih =>
    have noted := (note_totalSize p shstrndx i h).trans empty
    unfold scan at done
    dsimp only at done
    rw [noted, alignUp_zero] at done
    repeat' split at done
    all_goals
      first
      | cases done
        exact empty
      | exact ih noted done
      | exact ih rfl done
      | cases done

/-- The buffer that `module_load` asks for has no byte, and is refused. -/
lemma moduleLoad_fails (heap : Word → Option Word) (f : File) : moduleLoad heap f = {} := by
  unfold moduleLoad
  split
  · rfl
  rename_i p done
  have nothing : kmalloc heap p.totalSize = none := by
    rw [scan_totalSize rfl done]
    exact if_pos rfl
  rw [nothing]
  split <;> rfl

/-- Whatever the file and its sections, every byte that `module_load` writes lies inside the
buffer of `total_size` bytes, and the sections it copies have disjoint parts of it. -/
theorem moduleLoad_contained (heap : Word → Option Word) (f : File) :
    (moduleLoad heap f).Contained := by
  rw [moduleLoad_fails]
  exact ⟨nofun, nofun, .nil⟩

end AuroraOS.Kmod
