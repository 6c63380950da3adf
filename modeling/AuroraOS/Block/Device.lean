import AuroraOS.Lib.Overlay

/-!
# Block devices

Model of `kernel/block_dev.c` over a device that keeps what is written to it.  The
device also records its completed writes, oldest first, so that the contents after
a crash between two writes can be stated.
-/

namespace AuroraOS.Block

open Lib

structure BlockDevice where
  blockSize : Nat
  totalSectors : Nat
  data : Store
  log : List Patch := []

variable (d : BlockDevice)

/-- The guards of `block_dev_read` and `block_dev_write`; `count` is a C `int`. -/
def BlockDevice.inRange (sector count : Nat) : Bool :=
  decide (0 < count ∧ count < 2 ^ 31 ∧ sector ≤ d.totalSectors ∧ count ≤ d.totalSectors - sector)

/-- `block_dev_read`: the buffer, or `none` for -1.  Bytes behind the buffer read as 0. -/
def blockDevRead (sector count : Nat) : Option Store :=
  if d.inRange sector count then
    some fun i =>
      if i < count * d.blockSize then d.data (sector * d.blockSize + i) else 0
  else none

/-- `block_dev_write`: the device, or `none` for -1. -/
def blockDevWrite (buf : Store) (sector count : Nat) : Option BlockDevice :=
  if d.inRange sector count then
    let p : Patch := ⟨sector * d.blockSize, count * d.blockSize, buf⟩
    some { d with data := p.apply d.data, log := d.log ++ [p] }
  else none

/-- The device as a power failure leaves it after the first `k` of the given writes. -/
def BlockDevice.crash (writes : List Patch) (k : Nat) : BlockDevice :=
  { d with data := overlay d.data (writes.take k), log := [] }

/-! ## Devices after a list of writes -/

def BlockDevice.push (ps : List Patch) : BlockDevice :=
  { d with data := overlay d.data ps, log := d.log ++ ps }

section Push

variable (d : BlockDevice) (ps ps' : List Patch)

@[simp] lemma push_blockSize : (d.push ps).blockSize = d.blockSize := rfl
@[simp] lemma push_totalSectors : (d.push ps).totalSectors = d.totalSectors := rfl
@[simp] lemma push_log : (d.push ps).log = d.log ++ ps := rfl

@[simp] lemma push_nil : d.push [] = d := by
  simp [BlockDevice.push]

@[simp] lemma push_push : (d.push ps).push ps' = d.push (ps ++ ps') := by
  simp [BlockDevice.push, overlay_append]

end Push

end AuroraOS.Block
