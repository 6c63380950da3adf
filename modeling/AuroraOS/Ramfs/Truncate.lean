import AuroraOS.Ramfs.File

/-!
# The size of a ramfs file and its block

`ramfs_write` gives a file that gets longer a block of its new size, but `sys_ftruncate` sets the
size alone, and `ramfs_read` trusts it.  A call is given any offset that `sys_lseek` can set.
-/

namespace AuroraOS.Ramfs

open Relation

/-- The largest `count` that `user_addr_range_ok` lets through. -/
def userAddrMax : Nat := 0x7FFFFFFFFFFF

/-- A file, with what `kmalloc` was asked for when `data` was made. -/
structure Sized extends State where
  allocated : Nat

/-- The system calls on the file, and writes of other code to memory. -/
inductive Call
  | read (count : Nat) (offset : Int)
  | write (buf : Lib.Store) (count : Nat) (offset : Int) (memory : Option Nat)
  | ftruncate (length : Int)
  | other (mem : Lib.Store)

namespace Sized

/-- A write that makes the file longer has made a block of the new size. -/
def apply (s : Sized) : Call → Sized
  | .read _ _ => s
  | .write buf count offset memory =>
    let r := (ramfsWrite s.toState (some buf) count offset memory).2.1
    ⟨r, if s.size < r.size then r.size else s.allocated⟩
  | .ftruncate length => if length < 0 then s else { s with size := toSize length }
  | .other mem => { s with mem := mem }

def Careful (s : Sized) : Call → Prop
  | .ftruncate length => 0 ≤ length → toSize length ≤ s.allocated
  | _ => True

def Step (s s' : Sized) : Prop := ∃ call, s.Careful call ∧ s' = s.apply call

/-- A new file has no block; `ramfs_add_file` asks for one byte more than its contents have, and
`ramfs_add_file_data` for as many. -/
def Made (s : Sized) : Prop := s.allocated = s.size ∨ s.allocated = s.size + 1

variable {s s' : Sized}

lemma step_sized (sized : s.size ≤ s.allocated) (step : s.Step s') : s'.size ≤ s'.allocated := by
  obtain ⟨call, careful, rfl⟩ := step
  cases call with
  | read count offset => exact sized
  | write buf count offset memory =>
    dsimp only [apply]
    split
    · exact le_rfl
    · omega
  | ftruncate length =>
    by_cases refused : length < 0
    · rwa [apply, if_pos refused]
    · rw [apply, if_neg refused]
      exact careful (by omega)
  | other mem => exact sized

lemma ramfsRead_inside (st : State) {count : Nat} {offset : Int} (low : 0 ≤ offset)
    (high : offset < 2 ^ 63) (few : count ≤ userAddrMax) :
    (ramfsRead st true count offset).2.1 = [] ∨
      toSize offset + (ramfsRead st true count offset).2.1.length ≤ st.size := by
  have nat : (toSize offset : Int) = offset := by
    unfold toSize
    omega
  unfold userAddrMax at few
  unfold ramfsRead
  rw [if_neg (by simp)]
  split
  · exact .inl rfl
  rename_i ahead
  right
  dsimp only
  rw [Lib.length_slice]
  unfold toOff at ahead
  generalize toSize offset = placed at *
  split at ahead <;> split <;> omega

/-- In every run from a file just made, whose truncations ask for no more than the block has, the
size is at most what is allocated, and a read copies nothing from outside the block. -/
theorem sized_of_careful_run (made : s.Made) (run : ReflTransGen Step s s') :
    s'.size ≤ s'.allocated ∧ ∀ count offset, 0 ≤ offset → offset < 2 ^ 63 → count ≤ userAddrMax →
      (ramfsRead s'.toState true count offset).2.1 = [] ∨
        toSize offset + (ramfsRead s'.toState true count offset).2.1.length ≤ s'.allocated := by
  have sized : s'.size ≤ s'.allocated := by
    induction run with
    | refl => unfold Made at made; omega
    | tail _ step ih => exact step_sized ih step
  refine ⟨sized, fun count offset low high few => ?_⟩
  exact (ramfsRead_inside s'.toState low high few).imp id fun inside => inside.trans sized

def cut : Sized := { created with size := 2, allocated := 2 }

theorem sized_of_careful_run_cut : ReflTransGen Step cut (cut.apply (.ftruncate 1)) ∧
      (cut.apply (.ftruncate 1)).size ≤ (cut.apply (.ftruncate 1)).allocated := by
  have careful : cut.Careful (.ftruncate 1) := fun _ => by decide
  have run : ReflTransGen Step cut (cut.apply (.ftruncate 1)) := .single ⟨_, careful, rfl⟩
  exact ⟨run, (sized_of_careful_run (.inl rfl) run).1⟩

/-- A new file made 10 bytes long has no block, and a read copies 10 bytes all the same. -/
theorem ftruncate_exceeds_block :
    let s := (⟨created, 0⟩ : Sized).apply (.ftruncate 10)
    s.size = 10 ∧ s.allocated = 0 ∧ (ramfsRead s.toState true 10 0).2.1.length = 10 := by
  decide

end Sized

end AuroraOS.Ramfs
