import AuroraOS.Mem.Buddy

/-!
# Memory detection

The first half of `phys_mem_init` reads the memory size from the boot information.  The loops follow
sizes found in that data, some of which keep them where they are, so they carry fuel and `none` is a
detection that has not ended.
-/

namespace AuroraOS.Mem

open Lib Option

variable (ram : Store)

def readU32 (addr : Nat) : Nat := leRead ram addr 4
def readU64 (addr : Nat) : Nat := leRead ram addr 8

def ramLimit : Nat := 256 * 1024 * 1024

def capRam (total : Nat) : Nat := if total > ramLimit then ramLimit else total

/-- An available map entry raises the detected size to its end. -/
def raiseTotal (total base length : Nat) : Nat :=
  let endAddr := (base + length) % 2 ^ 64
  if endAddr > total ∧ base < ramLimit then capRam endAddr else total

/-! ## Multiboot 2 -/

/-- The entries of a memory map tag: base at 0, length at 8, type at 16. -/
def mb2Entries (ram : Store) (entrySize tagEnd : Nat) : Nat → Nat → Nat → Option Nat
  | 0, _, _ => none
  | fuel + 1, entries, total =>
    if entries + entrySize ≤ tagEnd then
      let total :=
        if readU32 ram (entries + 16) = 1 then
          raiseTotal total (readU64 ram entries) (readU64 ram (entries + 8))
        else total
      mb2Entries ram entrySize tagEnd fuel (entries + entrySize) total
    else some total

/-- Basic memory information: `mem_upper + 1024` is a 32-bit sum. -/
def mb2Basic (tag total : Nat) : Nat :=
  if readU32 ram tag = 4 then capRam ((readU32 ram (tag + 12) + 1024) % 2 ^ 32 * 1024)
  else total

/-- The memory map; the end of the tag is cut to 32 bits. -/
def mb2Map (fuel tag total : Nat) : Option Nat :=
  if readU32 ram tag = 6 then
    mb2Entries ram (readU32 ram (tag + 8)) ((tag + readU32 ram (tag + 4)) % 2 ^ 32) fuel
      (tag + 16) total
  else some total

/-- The distance to the next tag, rounded up to 8 in 32 bits. -/
def mb2TagSize (tag : Nat) : Nat :=
  let size := readU32 ram (tag + 4)
  let size := if size < 8 then 8 else size
  (size + 7) % 2 ^ 32 / 8 * 8

def mb2Tags (ram : Store) (limit : Nat) : Nat → Nat → Nat → Option Nat
  | 0, _, _ => none
  | fuel + 1, tag, total =>
    if readU32 ram tag ≠ 0 ∧ tag < limit then do
      let total ← mb2Map ram fuel tag (mb2Basic ram tag total)
      mb2Tags ram limit fuel (tag + mb2TagSize ram tag) total
    else some total

/-! ## Multiboot 1 -/

/-- The E820 entries: size at 0, base at 8, length at 16, type at 24. -/
def mb1Entries (ram : Store) (limit : Nat) : Nat → Nat → Nat → Option Nat
  | 0, _, _ => none
  | fuel + 1, entries, total =>
    if entries < limit then
      let size := readU32 ram entries
      if size < 20 then some total
      else
        let total :=
          if readU32 ram (entries + 24) = 1 then
            raiseTotal total (readU64 ram (entries + 8)) (readU64 ram (entries + 16))
          else total
        if size > 2 ^ 32 - 1 - 4 then some total
        else mb1Entries ram limit fuel (entries + (size + 4)) total
    else some total

def mb1Detect (info fuel : Nat) : Option Nat := do
  let flags := readU32 ram info
  let total :=
    if flags.testBit 0 then
      capRam ((readU32 ram (info + 4) + readU32 ram (info + 8)) * 1024)
    else 0
  if flags.testBit 6 then
    let mmapLength := readU32 ram (info + 44)
    let mmapAddr := readU32 ram (info + 48)
    let e820Total ← mb1Entries ram (mmapAddr + mmapLength) fuel mmapAddr 0
    some (if e820Total > 0 then e820Total else total)
  else some total

/-! ## Detection -/

/-- The memory size the boot information gives; `mbInfo` is 0 for `NULL`. -/
def bootTotal (mbInfo fuel : Nat) : Option Nat :=
  if mbInfo = 0 then some 0
  else if readU32 ram (mbInfo + 4) = 0 ∧ readU32 ram mbInfo > 0 ∧
      readU32 ram mbInfo < 0x100000 then
    mb2Tags ram (mbInfo + readU32 ram mbInfo) fuel (mbInfo + 8) 0
  else mb1Detect ram mbInfo fuel

def detectRam (mbInfo fuel : Nat) : Option Nat := do
  let total ← bootTotal ram mbInfo fuel
  some (if total = 0 then 64 * 1024 * 1024 else total)

def physMemInit (s : Kmem) (mbInfo fuel : Nat) : Option Kmem := do
  let totalRam ← detectRam s.ram mbInfo fuel
  physMemInitWith s totalRam

/-! ## The detected size is one the page array can describe -/

lemma capRam_le (total : Nat) : capRam total ≤ ramLimit := by
  unfold capRam
  split
  · exact le_rfl
  · omega

variable {total fuel result : Nat}

lemma raiseTotal_le {base length : Nat} (bound : total ≤ ramLimit) :
    raiseTotal total base length ≤ ramLimit := by
  simp only [raiseTotal]
  split
  · exact capRam_le _
  · exact bound

variable {ram : Store}

variable (bound : total ≤ ramLimit)
include bound

lemma mb2Entries_le {entrySize tagEnd entries : Nat}
    (run : mb2Entries ram entrySize tagEnd fuel entries total = some result) :
    result ≤ ramLimit := by
  induction fuel generalizing entries total with
  | zero => simp [mb2Entries] at run
  | succ fuel ih =>
    unfold mb2Entries at run
    split at run
    · refine ih ?_ run
      split
      · exact raiseTotal_le bound
      · exact bound
    · cases run
      exact bound

lemma mb2Basic_le {tag : Nat} : mb2Basic ram tag total ≤ ramLimit := by
  unfold mb2Basic
  split
  · exact capRam_le _
  · exact bound

lemma mb2Tags_le {limit tag : Nat}
    (run : mb2Tags ram limit fuel tag total = some result) : result ≤ ramLimit := by
  induction fuel generalizing tag total with
  | zero => simp [mb2Tags] at run
  | succ fuel ih =>
    unfold mb2Tags at run
    split at run
    · obtain ⟨total', mapped, rest⟩ := bind_eq_some_iff.mp run
      refine ih ?_ rest
      unfold mb2Map at mapped
      split at mapped
      · exact mb2Entries_le (mb2Basic_le bound) mapped
      · cases mapped
        exact mb2Basic_le bound
    · cases run
      exact bound

lemma mb1Entries_le {limit entries : Nat}
    (run : mb1Entries ram limit fuel entries total = some result) :
    result ≤ ramLimit := by
  induction fuel generalizing entries total with
  | zero => simp [mb1Entries] at run
  | succ fuel ih =>
    have raised : (if readU32 ram (entries + 24) = 1 then
        raiseTotal total (readU64 ram (entries + 8)) (readU64 ram (entries + 16))
        else total) ≤ ramLimit := by
      split
      · exact raiseTotal_le bound
      · exact bound
    unfold mb1Entries at run
    simp only at run
    split at run
    · split at run
      · cases run
        exact bound
      · split at run
        · cases run
          exact raised
        · exact ih raised run
    · cases run
      exact bound

omit bound

lemma mb1Detect_le {info : Nat}
    (run : mb1Detect ram info fuel = some result) : result ≤ ramLimit := by
  have basic : (if (readU32 ram info).testBit 0 then
      capRam ((readU32 ram (info + 4) + readU32 ram (info + 8)) * 1024) else 0) ≤ ramLimit := by
    split
    · exact capRam_le _
    · exact Nat.zero_le _
  unfold mb1Detect at run
  simp only at run
  split at run
  · obtain ⟨e820Total, entries, done⟩ := bind_eq_some_iff.mp run
    have mapped := mb1Entries_le (Nat.zero_le _) entries
    cases done
    split
    · exact mapped
    · exact basic
  · cases run
    exact basic

lemma detectRam_le {mbInfo totalRam : Nat}
    (run : detectRam ram mbInfo fuel = some totalRam) : totalRam ≤ 256 * 1024 * 1024 := by
  unfold detectRam at run
  obtain ⟨total, detected, done⟩ := bind_eq_some_iff.mp run
  have bound : total ≤ ramLimit := by
    unfold bootTotal at detected
    split at detected
    · cases detected
      exact Nat.zero_le _
    · split at detected
      · exact mb2Tags_le (Nat.zero_le _) detected
      · exact mb1Detect_le detected
  cases done
  split
  · omega
  · exact bound

end AuroraOS.Mem
