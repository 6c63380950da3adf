import Mathlib.Data.Fin.Basic

/-!
# System call filters

Model of `kernel/seccomp.c`, of `syscall_trap` and the dispatcher `handle_syscall`, and of the
ways a task makes another one, `sys_fork` and `sys_execve`, of `kernel/syscall.c`.

Tasks are numbered in the order of their creation, and the world records who created each
of them.  Whether a new task could be made is an argument; the system calls that are not
modelled leave everything here alone.
-/

namespace AuroraOS.Seccomp

open Function

structure SeccompFilter where
  syscallMask : Fin 4 → BitVec 64

structure Task where
  seccomp : Option SeccompFilter := none
  isForkChild : Bool := false
  alive : Bool := true

/-- The verdict of an installed filter: 0 allows the call, -1 denies it. -/
def SeccompFilter.check (filter : SeccompFilter) (syscallNum : Int) : Int :=
  if syscallNum < 0 ∨ syscallNum ≥ 256 then -1
  else
    let wordIdx := syscallNum.toNat / 64
    let bitIdx := syscallNum.toNat % 64
    let mask := 1#64 <<< bitIdx
    if filter.syscallMask (Fin.ofNat 4 wordIdx) &&& mask ≠ 0 then 0 else -1

def seccompCheck (task : Option Task) (syscallNum : Int) : Int :=
  match task with
  | none => 0
  | some task =>
    match task.seccomp with
    | none => 0
    | some filter => filter.check syscallNum

/-! ## Tasks -/

inductive Origin
  | boot
  | fork (parent : Nat)
  | exec (parent : Nat)
deriving DecidableEq, Repr

def Origin.parent : Origin → Option Nat
  | boot => none
  | fork p => some p
  | exec p => some p

lemma Origin.known {n : Nat} (current : Fin n) {origin : Origin}
    (is : origin.parent = some current.val) : ∀ p, origin.parent = some p → p < n := by
  intro p parent
  have same : current.val = p := Option.some.inj (is.symm.trans parent)
  exact same ▸ current.isLt

structure World where
  tasks : Nat → Task
  origin : Nat → Origin
  count : Nat
  older : ∀ c p, c < count → (origin c).parent = some p → p < c

namespace World

variable (w : World)

def setTask (t : Nat) (task : Task) : World :=
  { w with tasks := update w.tasks t task }

def createTask (origin : Origin) (task : Task)
    (known : ∀ p, origin.parent = some p → p < w.count) : World where
  tasks := update w.tasks w.count task
  origin := update w.origin w.count origin
  count := w.count + 1
  older := by
    intro c p created parent
    rcases eq_or_ne c w.count with rfl | old
    · rw [update_self] at parent
      exact known p parent
    · rw [update_of_ne old] at parent
      exact w.older c p (by omega) parent

/-- `seccomp_set_filter`, where `allocated` says whether `kmalloc` has memory for the copy. -/
def seccompSetFilter (task : Option Nat) (filter : Option SeccompFilter)
    (allocated : Bool) : Int × World :=
  match task with
  | none => (-1, w)
  | some t =>
    match filter with
    | none => (0, w.setTask t { w.tasks t with seccomp := none })
    | some filter =>
      if allocated then (0, w.setTask t { w.tasks t with seccomp := some filter })
      else (-1, w)

/-! ## System calls -/

/-- The child gets the page tables, the trap frame, the descriptors and the signal handlers
of the parent; every other field is as `create_task` leaves it. -/
def sysFork (current : Fin w.count) (granted : Bool) : World :=
  if granted then
    w.createTask (.fork current) { isForkChild := true } (Origin.known current rfl)
  else w

/-- `exec_elf` starts the program as a new task beside the caller. -/
def sysExecve (current : Fin w.count) (granted : Bool) : World :=
  if granted then
    w.createTask (.exec current) {} (Origin.known current rfl)
  else w

def kill (t : Nat) : World :=
  w.setTask t { w.tasks t with alive := false }

end World

def sysMaxNum : Int := 384
def sysForkNum : Int := 57
def sysExecveNum : Int := 59
def sysExitNum : Int := 60
def sysSbrkNum : Int := 256

def dispatched : List Int :=
  [0, 1, 2, 3, 4, 5, 7, 8, 9, 10, 12, 13, 15, 16, 21, 22, 24, 28, 32, 33, 34, 35, 39, 41, 42, 43,
    44, 45, 46, 47, 48, 49, 50, 51, 57, 59, 60, 61, 62, 63, 72, 74, 77, 78, 79, 80, 82, 83, 84, 87,
    88, 89, 90, 91, 92, 93, 96, 97, 99, 100, 102, 104, 105, 106, 107, 108, 109, 110, 112, 121, 160,
    228, 256, 257, 258, 293, 318]

inductive Errno
  | eperm
  | enosys
deriving DecidableEq, Repr

inductive Outcome
  | rejected (tErrno : Errno)
  | executed
deriving DecidableEq, Repr

namespace World

def handleSyscall (w : World) (current : Fin w.count) (num : Int) (granted : Bool) :
    Outcome × World :=
  if num < 0 ∨ num ≥ sysMaxNum then (.rejected .enosys, w)
  else if seccompCheck (some (w.tasks current)) num ≠ 0 then (.rejected .eperm, w)
  else if num ∉ dispatched then (.rejected .enosys, w)
  else if num = sysForkNum then (.executed, w.sysFork current granted)
  else if num = sysExecveNum then (.executed, w.sysExecve current granted)
  else if num = sysExitNum then (.executed, w.kill current)
  else (.executed, w)

/-- `syscall_trap`: the first trap of a forked child only clears its flag. -/
def syscallTrap (w : World) (current : Fin w.count) (num : Int) (granted : Bool) :
    Option Outcome × World :=
  if (w.tasks current).isForkChild then
    (none, w.setTask current { w.tasks current with isForkChild := false })
  else
    let (outcome, w) := w.handleSyscall current num granted
    (some outcome, w)

/-- Any live task traps at any time, and any task may be killed. -/
inductive Step : World → World → Prop
  | trap (w : World) (current : Fin w.count) (num : Int) (granted : Bool) :
      (w.tasks current).alive = true → Step w (w.syscallTrap current num granted).2
  | kill (w : World) (t : Nat) : Step w (w.kill t)

end World

end AuroraOS.Seccomp
