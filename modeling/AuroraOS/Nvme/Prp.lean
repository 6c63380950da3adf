import Mathlib.Data.List.Range

/-!
# The pages of an NVMe transfer

Model of `nvme_io_submit` of `kernel/nvme.c` up to the submission.  The buffer is identity-mapped
and a transfer has at most 65536 blocks, so no sum wraps.
-/

namespace AuroraOS.Nvme

open List

/-- The fields of `struct nvme_sqe` that `nvme_io_submit` sets. -/
structure Sqe where
  opcode : BitVec 8
  nsid : BitVec 32
  prp1 : Nat
  prp2 : Nat
  cdw10 : BitVec 32
  cdw11 : BitVec 32
  cdw12 : BitVec 32
deriving DecidableEq, Repr

/-- `NVME_PRP_LIST_SIZE`, in bytes. -/
def nvmePrpListSize : Nat := 512

/-- `NVME_PRP_ENTRIES`: a list has room for 64 addresses of eight bytes. -/
def nvmePrpEntries : Nat := nvmePrpListSize / 8

/-- The command and the PRP list; `none` is a return without a command.  The list is at the address
`kmalloc`, if there is memory for it. -/
def nvmeIoSubmit (kmalloc : Option Nat) (blockSize : Nat) (opcode : BitVec 8) (nsid : BitVec 32)
    (lba : BitVec 64) (numBlocks buf : Nat) : Option (Sqe × List Nat) :=
  if buf = 0 ∨ numBlocks = 0 then none
  else
    let totalBytes := numBlocks * blockSize
    let cmd : Sqe := {
      opcode, nsid, prp1 := buf, prp2 := 0, cdw10 := lba.setWidth 32
      cdw11 := (lba >>> 32).setWidth 32, cdw12 := (BitVec.ofNat 16 (numBlocks - 1)).setWidth 32 }
    let firstPageData := 4096 - buf % 4096
    if totalBytes > firstPageData then
      let remaining := totalBytes - firstPageData
      let remainingPages := (remaining + 4095) / 4096
      let dataAddr := (buf + 4096) / 4096 * 4096
      if remainingPages = 1 then some ({ cmd with prp2 := dataAddr }, [])
      else do
        let prpList ← kmalloc
        let dataAddr := dataAddr + 4096
        return ({ cmd with prp2 := prpList }, (range nvmePrpEntries).map fun i =>
          if i < remainingPages then dataAddr + i * 4096 else 0)
    else some (cmd, [])

/-- The pages of the buffer. -/
def pages (buf n : Nat) : List Nat :=
  (range ((buf % 4096 + n + 4095) / 4096)).map fun i => (buf / 4096 + i) * 4096

/-- The pages that a command names for a transfer of `n` bytes: PRP2 is the second page of two, and
the address of the list when there are more. -/
def Sqe.named (cmd : Sqe) (prpList : List Nat) (n : Nat) : List Nat :=
  let count := (cmd.prp1 % 4096 + n + 4095) / 4096
  cmd.prp1 / 4096 * 4096 ::
    if count ≤ 1 then [] else if count = 2 then [cmd.prp2] else prpList.take (count - 1)

variable {kmalloc : Option Nat} {blockSize numBlocks buf : Nat} {opcode : BitVec 8}
  {nsid : BitVec 32} {lba : BitVec 64} {cmd : Sqe} {prpList : List Nat}

/-- The first page, and those behind it. -/
lemma pages_succ {n k : Nat} (count : (buf % 4096 + n + 4095) / 4096 = k + 1) :
    pages buf n = buf / 4096 * 4096 :: (range k).map fun i => (buf / 4096 + 1 + i) * 4096 := by
  rw [pages, count, range_succ_eq_map, map_cons, map_map, Nat.add_zero]
  refine congrArg (_ :: ·) (map_congr_left fun i _ => ?_)
  simp only [Function.comp]
  omega

/-- The loop that fills the list ends with its last entry, however many pages are left. -/
lemma named_length_le (n : Nat)
    (submits : nvmeIoSubmit kmalloc blockSize opcode nsid lba numBlocks buf = some (cmd, prpList)) :
    (cmd.named prpList n).length ≤ nvmePrpEntries + 1 := by
  have short : prpList.length ≤ nvmePrpEntries := by
    rw [nvmeIoSubmit] at submits
    dsimp only at submits
    split_ifs at submits
    · cases submits
      exact Nat.zero_le _
    · cases kmalloc with
      | none => cases submits
      | some address =>
        cases submits
        simp
    · cases submits
      exact Nat.zero_le _
  rw [Sqe.named, length_cons, Nat.add_le_add_iff_right]
  split_ifs
  · exact Nat.zero_le _
  · exact (by decide : 1 ≤ nvmePrpEntries)
  · exact (take_sublist _ _).length_le.trans short

/-- The list of a longer transfer starts with the third page: exactly the transfers within two pages
name the pages of the buffer.  No command names more than 65 pages, so the rest of a transfer that
has more is cut off. -/
theorem named_iff (nonempty : 0 < blockSize)
    (submits : nvmeIoSubmit kmalloc blockSize opcode nsid lba numBlocks buf = some (cmd, prpList)) :
    (cmd.named prpList (numBlocks * blockSize) = pages buf (numBlocks * blockSize) ↔
      buf % 4096 + numBlocks * blockSize ≤ 2 * 4096) ∧
    (cmd.named prpList (numBlocks * blockSize)).length ≤ 65 := by
  refine ⟨?_, named_length_le _ submits⟩
  rw [nvmeIoSubmit] at submits
  split at submits
  case isTrue => cases submits
  case isFalse valid =>
    have some : 0 < numBlocks * blockSize := Nat.mul_pos (by omega) nonempty
    revert some submits
    generalize numBlocks * blockSize = n
    intro submits some
    dsimp only at submits
    split at submits
    case isFalse one =>
      cases submits
      have count : (buf % 4096 + n + 4095) / 4096 = 0 + 1 := by omega
      rw [pages_succ count, Sqe.named, count]
      exact iff_of_true rfl (by omega)
    case isTrue more =>
      split at submits
      case isTrue two =>
        cases submits
        have count : (buf % 4096 + n + 4095) / 4096 = 1 + 1 := by omega
        have next : (buf + 4096) / 4096 = buf / 4096 + 1 := by omega
        rw [pages_succ count, Sqe.named, count, next]
        exact iff_of_true rfl (by omega)
      case isFalse list =>
        obtain ⟨k, count⟩ : ∃ k, (buf % 4096 + n + 4095) / 4096 = k + 2 + 1 :=
          ⟨(buf % 4096 + n + 4095) / 4096 - 3, by omega⟩
        cases kmalloc with
        | none => cases submits
        | some address =>
          cases submits
          refine iff_of_false (fun same => ?_) (by omega)
          rw [pages_succ count, Sqe.named, count, if_neg (by omega), if_neg (by omega)] at same
          -- the second page is not the first one of the list
          have second := congrArg (fun ps : List Nat => ps[1]?) same
          simp [nvmePrpEntries, nvmePrpListSize] at second
          split at second <;> omega

/-- Nine blocks in two pages are named; 1000 blocks, in 126 pages, are cut off. -/
theorem named_iff_two_pages :
    (∃ cmd prpList, nvmeIoSubmit none 512 2 1 0 9 0x10200 = some (cmd, prpList) ∧
      cmd.named prpList (9 * 512) = pages 0x10200 (9 * 512)) ∧
    ∃ cmd prpList, nvmeIoSubmit (some 0x5000) 512 2 1 0 1000 0x10200 = some (cmd, prpList) ∧
      (cmd.named prpList (1000 * 512)).length ≤ 65 := by
  have short := named_iff (by decide) (Eq.refl (nvmeIoSubmit none 512 2 1 0 9 0x10200))
  have long := named_iff (by decide) (Eq.refl (nvmeIoSubmit (some 0x5000) 512 2 1 0 1000 0x10200))
  exact ⟨⟨_, _, rfl, short.1.mpr (by decide)⟩, _, _, rfl, long.2⟩

/-- A transfer of three pages names the first, the third and the one behind them. -/
theorem three_pages_skip_second : ∃ cmd prpList,
    nvmeIoSubmit (some 0x5000) 512 2 1 0 24 0x10000 = some (cmd, prpList) ∧
    cmd.named prpList (24 * 512) = [0x10000, 0x12000, 0x13000] ∧
    pages 0x10000 (24 * 512) = [0x10000, 0x11000, 0x12000] :=
  ⟨_, _, rfl, by decide +kernel, by decide +kernel⟩

end AuroraOS.Nvme
