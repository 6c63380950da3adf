import AuroraOS.Lib.Bytes
import AuroraOS.Lib.Ring

/-!
# Files of ramfs

Model of `ramfs_read` and `ramfs_write` of `kernel/ramfs.c`, over kernel memory that other
code uses too, and its refinement of a byte vector.

The block that `kmalloc` returns is an argument of `ramfsWrite`; `kmalloc` is assumed to
return zeroed memory apart from the blocks in use.  Every buffer of the caller is outside
the file.
-/

namespace AuroraOS.Ramfs

open Lib List

def sizeMax : Nat := 2 ^ 64 - 1

def kmallocMax : Nat := 4096 * 2 ^ 10

def toOff (n : Nat) : Int := if n < 2 ^ 63 then n else (n : Int) - 2 ^ 64

def toSize (offset : Int) : Nat := (offset % 2 ^ 64).toNat

/-- Kernel memory, and the fields of the `ramfs_node` of one file; `data` is 0 for `NULL`. -/
structure State where
  mem : Store
  data : Nat
  size : Nat

/-- The result, the bytes copied to the buffer and the new offset. -/
def ramfsRead (s : State) (hasBuf : Bool) (count : Nat) (offset : Int) : Int × List UInt8 × Int :=
  if !hasBuf then (-1, [], offset)
  else if offset ≥ toOff s.size then (0, [], offset)
  else
    let toread :=
      if (toSize offset + count) % 2 ^ 64 > s.size then
        (s.size + 2 ^ 64 - toSize offset) % 2 ^ 64
      else count
    (toOff toread, slice s.mem (s.data + toSize offset) toread,
      toOff ((toSize offset + toread) % 2 ^ 64))

def State.put (s : State) (buf : Store) (count : Nat) (offset : Int) : State :=
  { s with mem := blit s.mem (s.data + toSize offset) count buf }

def State.expand (s : State) (newData newSize : Nat) : State where
  mem :=
    if s.data ≠ 0 ∧ s.size > 0 then blit s.mem newData s.size fun i => s.mem (s.data + i)
    else s.mem
  data := newData
  size := newSize

/-- The result, the file and the new offset; `memory` is what `kmalloc` returns. -/
def ramfsWrite (s : State) (buf : Option Store) (count : Nat) (offset : Int)
    (memory : Option Nat) : Int × State × Int :=
  match buf with
  | none => (-1, s, offset)
  | some buf =>
    if offset < 0 then (-1, s, offset)
    else if count = 0 then (0, s, offset)
    else if toSize offset > sizeMax - count then (-1, s, offset)
    else
      let newSize := toSize offset + count
      let newOffset := toOff ((toSize offset + count) % 2 ^ 64)
      if newSize > s.size then
        match memory with
        | none => (-1, s, offset)
        | some newData =>
          (toOff count, (s.expand newData newSize).put buf count offset, newOffset)
      else (toOff count, s.put buf count offset, newOffset)

/-! ## The byte vector -/

inductive Event
  | write (offset : Nat) (bytes : List UInt8) (result : Int)
  | read (offset count : Nat) (result : Int) (bytes : List UInt8)

def overlaid (contents : List UInt8) (offset : Nat) (bytes : List UInt8) : List UInt8 :=
  (contents ++ replicate (offset - contents.length) 0).take offset ++ bytes ++
    contents.drop (offset + bytes.length)

/-- What the calls of a byte vector do. -/
inductive VecStep : List UInt8 → Event → List UInt8 → Prop
  | wrote (contents : List UInt8) (offset : Nat) {bytes : List UInt8} : bytes ≠ [] →
      VecStep contents (.write offset bytes bytes.length) (overlaid contents offset bytes)
  | wroteNothing (contents : List UInt8) (offset : Nat) :
      VecStep contents (.write offset [] 0) contents
  | failed (contents : List UInt8) (offset : Nat) (bytes : List UInt8) :
      VecStep contents (.write offset bytes (-1)) contents
  | read (contents : List UInt8) (offset count : Nat) {bytes : List UInt8} :
      bytes = (contents.drop offset).take count →
      VecStep contents (.read offset count bytes.length bytes) contents

inductive VecRun : List UInt8 → List Event → List UInt8 → Prop
  | nil (contents : List UInt8) : VecRun contents [] contents
  | snoc {contents contents' contents'' : List UInt8} {events : List Event} {event : Event} :
      VecRun contents events contents' → VecStep contents' event contents'' →
      VecRun contents (events ++ [event]) contents''

/-! ## Runs of the file -/

structure Granted (s : State) (size p : Nat) : Prop where
  nonnull : p ≠ 0
  small : size ≤ kmallocMax
  zeroed : ∀ i, i < size → s.mem (p + i) = 0
  apart : s.data ≠ 0 → p + size ≤ s.data ∨ s.data + s.size ≤ p

/-- Calls with offsets that are not negative and no overflow; other code may change the memory
outside the file between them. -/
inductive Step : State → List Event → State → Prop
  | write (s : State) (buf : Store) (count offset : Nat) (memory : Option Nat) :
      offset < 2 ^ 63 → offset + count ≤ sizeMax →
      (∀ p, memory = some p → Granted s (offset + count) p) →
      Step s [.write offset (slice buf 0 count) (ramfsWrite s (some buf) count offset memory).1]
        (ramfsWrite s (some buf) count offset memory).2.1
  | read (s : State) (count offset : Nat) : offset < 2 ^ 63 → offset + count ≤ sizeMax →
      Step s [.read offset count (ramfsRead s true count offset).1
        (ramfsRead s true count offset).2.1] s
  | other (s : State) (mem : Store) :
      (∀ i, i < s.size → mem (s.data + i) = s.mem (s.data + i)) → Step s [] { s with mem := mem }

inductive Run : State → List Event → State → Prop
  | nil (s : State) : Run s [] s
  | snoc {s s' s'' : State} {events new : List Event} :
      Run s events s' → Step s' new s'' → Run s (events ++ new) s''

structure Ok (s : State) : Prop where
  nonnull : 0 < s.size → s.data ≠ 0
  small : s.size ≤ kmallocMax

def State.contents (s : State) : List UInt8 := slice s.mem s.data s.size

@[simp] lemma length_contents (s : State) : s.contents.length = s.size := length_slice

/-! ## Numbers -/

variable {offset count : Nat}

lemma toSize_natCast (inRange : offset < 2 ^ 63) : toSize (offset : Int) = offset := by
  unfold toSize
  omega

lemma toOff_of_lt {n : Nat} (inRange : n < 2 ^ 63) : toOff n = n :=
  if_pos inRange

variable {s : State}

lemma Ok.size_lt (ok : Ok s) : s.size < 2 ^ 63 :=
  ok.small.trans_lt (by decide)

/-! ## Vectors -/

lemma getElem?_slice {α : Type} (cells : Nat → α) (a n i : Nat) :
    (slice cells a n)[i]? = if i < n then some (cells (a + i)) else none := by
  rw [slice, getElem?_map]
  split
  · rename_i inside
    rw [getElem?_range inside]
    rfl
  · rename_i outside
    rw [getElem?_eq_none (by simpa using outside)]
    rfl

lemma getElem?_overlaid (contents : List UInt8) (offset : Nat) (bytes : List UInt8) (i : Nat) :
    (overlaid contents offset bytes)[i]? =
      if i < offset then if i < contents.length then contents[i]? else some 0
      else if i < offset + bytes.length then bytes[i - offset]?
      else contents[i]? := by
  have front : ((contents ++ replicate (offset - contents.length) 0).take offset).length =
      offset := by
    simp
    omega
  unfold overlaid
  rw [append_assoc]
  split
  · rename_i low
    rw [getElem?_append_left (by omega), getElem?_take_of_lt low]
    split
    · rename_i inside
      rw [getElem?_append_left inside]
    · rw [getElem?_append_right (by omega), getElem?_replicate_of_lt (by omega)]
  · rw [getElem?_append_right (by omega), front]
    split
    · rw [getElem?_append_left (by omega)]
    · rw [getElem?_append_right (by omega), getElem?_drop]
      congr 1
      omega

lemma overlaid_padded (contents : List UInt8) {k : Nat} {bytes : List UInt8}
    (ends : contents.length + k = offset + bytes.length) :
    overlaid (contents ++ replicate k 0) offset bytes = overlaid contents offset bytes := by
  apply ext_getElem?
  intro i
  rw [getElem?_overlaid, getElem?_overlaid, length_append, length_replicate]
  split
  · rw [if_pos (by omega)]
    split
    · rename_i inside
      rw [getElem?_append_left inside]
    · rw [getElem?_append_right (by omega), getElem?_replicate_of_lt (by omega)]
  · split
    · rfl
    · rw [getElem?_eq_none (by simp; omega), getElem?_eq_none (by omega)]

/-! ## The file as a vector -/

lemma contents_put (s : State) (buf : Store) (inRange : offset < 2 ^ 63)
    (inside : offset + count ≤ s.size) :
    (s.put buf count offset).contents = overlaid s.contents offset (slice buf 0 count) := by
  apply ext_getElem?
  intro i
  rw [getElem?_overlaid, length_slice, length_contents]
  simp only [State.contents, State.put, getElem?_slice, toSize_natCast inRange]
  rcases lt_or_ge i s.size with here | beyond
  · simp only [if_pos here]
    split
    · rw [blit_outside (by omega)]
    · split
      · rw [blit_inside (by omega) (by omega), if_pos (by omega)]
        congr 2
        omega
      · rw [blit_outside (by omega)]
  · simp only [if_neg (not_lt.mpr beyond)]
    rw [if_neg (by omega), if_neg (by omega)]

lemma contents_expand (ok : Ok s) {p newSize : Nat} (granted : Granted s newSize p)
    (grows : s.size ≤ newSize) :
    (s.expand p newSize).contents = s.contents ++ replicate (newSize - s.size) 0 := by
  have old : ∀ i, i < s.size → (s.expand p newSize).mem (p + i) = s.mem (s.data + i) := by
    intro i inside
    have used : s.data ≠ 0 ∧ s.size > 0 := ⟨ok.nonnull (by omega), by omega⟩
    simp only [State.expand, if_pos used]
    rw [blit_inside (by omega) (by omega), Nat.add_sub_cancel_left]
  have fresh : ∀ i, s.size ≤ i → i < newSize → (s.expand p newSize).mem (p + i) = 0 := by
    intro i behind inside
    simp only [State.expand]
    split
    · rw [blit_outside (by omega)]
      exact granted.zeroed i inside
    · exact granted.zeroed i inside
  apply ext_getElem?
  intro i
  have data : (s.expand p newSize).data = p := rfl
  have size : (s.expand p newSize).size = newSize := rfl
  rw [State.contents, getElem?_slice, data, size]
  rcases lt_or_ge i s.size with inside | behind
  · rw [getElem?_append_left (by simpa using inside), State.contents, getElem?_slice,
      if_pos inside, if_pos (by omega), old i inside]
  · rw [getElem?_append_right (by simpa using behind), length_contents, getElem?_replicate]
    rcases lt_or_ge i newSize with here | beyond
    · rw [if_pos here, if_pos (by omega), fresh i behind here]
    · rw [if_neg (by omega), if_neg (by omega)]

lemma Ok.put (ok : Ok s) (buf : Store) (count : Nat) (offset : Int) :
    Ok (s.put buf count offset) :=
  ⟨ok.nonnull, ok.small⟩

lemma Granted.expand_ok {newSize p : Nat} (granted : Granted s newSize p) :
    Ok (s.expand p newSize) :=
  ⟨fun _ => granted.nonnull, granted.small⟩

/-! ## Every call -/

lemma ramfsWrite_spec (ok : Ok s) (buf : Store)
    {memory : Option Nat} (inRange : offset < 2 ^ 63) (fits : offset + count ≤ sizeMax)
    (granted : ∀ p, memory = some p → Granted s (offset + count) p) :
    Ok (ramfsWrite s (some buf) count offset memory).2.1 ∧ VecStep s.contents
        (.write offset (slice buf 0 count) (ramfsWrite s (some buf) count offset memory).1)
        (ramfsWrite s (some buf) count offset memory).2.1.contents := by
  unfold ramfsWrite
  dsimp only
  rw [if_neg (by omega), toSize_natCast inRange]
  rcases Nat.eq_zero_or_pos count with rfl | positive
  · exact ⟨ok, .wroteNothing s.contents offset⟩
  have nonempty : slice buf 0 count ≠ [] := by
    intro none
    have length : (slice buf 0 count).length = count := length_slice
    rw [none] at length
    exact absurd length (by simp; omega)
  rw [if_neg (by omega), if_neg (by omega)]
  rcases lt_or_ge s.size (offset + count) with grows | inside
  · rw [if_pos grows]
    cases memory with
    | none => exact ⟨ok, .failed s.contents offset _⟩
    | some p =>
      have block := granted p rfl
      have bound := block.small
      have small : count < 2 ^ 63 := by
        unfold kmallocMax at bound
        omega
      have step : VecStep s.contents (.write offset (slice buf 0 count) count)
          ((s.expand p (offset + count)).put buf count offset).contents := by
        rw [contents_put _ _ inRange le_rfl, contents_expand ok block grows.le,
          overlaid_padded _ (by simp; omega)]
        have wrote := VecStep.wrote s.contents offset nonempty
        rwa [length_slice] at wrote
      rw [toOff_of_lt small]
      exact ⟨block.expand_ok.put buf count offset, step⟩
  · rw [if_neg (by omega)]
    have small := ok.size_lt
    have step : VecStep s.contents (.write offset (slice buf 0 count) count)
        (s.put buf count offset).contents := by
      rw [contents_put _ _ inRange inside]
      have wrote := VecStep.wrote s.contents offset nonempty
      rwa [length_slice] at wrote
    rw [toOff_of_lt (by omega)]
    exact ⟨ok.put buf count offset, step⟩

lemma take_drop_contents (s : State) (offset count : Nat) : (s.contents.drop offset).take count =
      slice s.mem (s.data + offset) (min count (s.size - offset)) := by
  apply ext_getElem?
  intro i
  rw [getElem?_slice, getElem?_take, getElem?_drop, State.contents, getElem?_slice]
  split
  · split
    · rw [if_pos (by omega), add_assoc]
    · rw [if_neg (by omega)]
  · rw [if_neg (by omega)]

lemma ramfsRead_spec (ok : Ok s) (inRange : offset < 2 ^ 63) (fits : offset + count ≤ sizeMax) :
    VecStep s.contents (.read offset count (ramfsRead s true count offset).1
      (ramfsRead s true count offset).2.1) s.contents := by
  have small := ok.size_lt
  unfold sizeMax at fits
  unfold ramfsRead
  rw [if_neg (by simp), toOff_of_lt small, toSize_natCast inRange]
  have read := VecStep.read s.contents offset count (take_drop_contents s offset count).symm
  rw [length_slice] at read
  rcases lt_or_ge offset s.size with inside | beyond
  · rw [if_neg (by omega)]
    have toread : (if (offset + count) % 2 ^ 64 > s.size then
        (s.size + 2 ^ 64 - offset) % 2 ^ 64 else count) = min count (s.size - offset) := by
      split <;> omega
    dsimp only
    rw [toread, toOff_of_lt (by omega)]
    exact read
  · rw [if_pos (by omega)]
    have none : min count (s.size - offset) = 0 := by omega
    rw [none] at read
    exact read

lemma contents_other {mem : Store}
    (same : ∀ i, i < s.size → mem (s.data + i) = s.mem (s.data + i)) :
    State.contents { s with mem := mem } = s.contents :=
  slice_congr same

lemma Run.refines {s' : State} {events : List Event} (run : Run s events s') (ok : Ok s) :
    Ok s' ∧ VecRun s.contents events s'.contents := by
  induction run with
  | nil => exact ⟨ok, .nil _⟩
  | snoc _ step ih =>
    obtain ⟨okBefore, before⟩ := ih
    cases step with
    | write buf count offset memory inRange fits granted =>
      obtain ⟨okAfter, wrote⟩ := ramfsWrite_spec okBefore buf inRange fits granted
      exact ⟨okAfter, before.snoc wrote⟩
    | read count offset inRange fits =>
      exact ⟨okBefore, before.snoc (ramfsRead_spec okBefore inRange fits)⟩
    | other mem same =>
      rw [append_nil, contents_other same]
      exact ⟨⟨okBefore.nonnull, okBefore.small⟩, before⟩

/-- Every sequence of reads and writes of a file is one of a byte vector: a write that succeeds pads
with zeros and overlays, a write that fails changes nothing, and a read returns the part of the
contents that it asks for. -/
theorem refines_vector {s s' : State} {events : List Event} (ok : Ok s) (run : Run s events s') :
    VecRun s.contents events s'.contents ∧ s'.contents.length = s'.size :=
  ⟨(run.refines ok).2, length_contents s'⟩

def created : State := ⟨fun _ => 0, 0, 0⟩

def twoBytes : Store := fun i => if i = 0 then 65 else 66

lemma granted_created : Granted created 5 4096 :=
  ⟨by decide, by decide, fun _ _ => rfl, fun used => absurd rfl used⟩

/-- Two bytes behind the end of an empty file. -/
theorem refines_vector_created : VecRun created.contents [.write 3 [65, 66] 2]
        (ramfsWrite created (some twoBytes) 2 3 (some 4096)).2.1.contents ∧
      (ramfsWrite created (some twoBytes) 2 3 (some 4096)).2.1.contents = [0, 0, 0, 65, 66] := by
  have ok : Ok created := ⟨fun positive => absurd positive (by decide), by decide⟩
  have step := Step.write created twoBytes 2 3 (some 4096) (by decide) (by decide) fun p is => by
    cases is
    exact granted_created
  exact ⟨(refines_vector ok ((Run.nil created).snoc step)).1, by decide⟩

end AuroraOS.Ramfs
