import AuroraOS.Fd.Model

/-!
# Where reads and writes go

`sys_read` and `sys_write` of `kernel/syscall.c` take the descriptor 0, and 1 and 2, for the
console, whatever file the table has there; `fd_alloc` hands those numbers out like any other.
-/

namespace AuroraOS.Fd

open List

inductive Errno
  | ebadf
  | efault
  deriving DecidableEq

/-- What a call does: it returns 0 at once, it fails, or it goes to the console or to a file. -/
inductive Route
  | nothing
  | error (errno : Errno)
  | console
  | file (f : FileId)
  deriving DecidableEq

namespace System

variable (s : System) (t : Tid)

/-- The common part of `sys_read` and `sys_write`.  `fd_validate` asks for no capability, and
`userRange` is the result of `user_addr_range_ok`. -/
def route (isConsole : Int → Bool) (fd : Int) (hasBuf : Bool) (count : Nat) (userRange : Bool) :
    Route :=
  if !hasBuf || count = 0 then .nothing
  else
    match fdIndex fd with
    | none => .error .ebadf
    | some i =>
      match s.slot (t, i) with
      | none => .error .ebadf
      | some f =>
        if !userRange then .error .efault else if isConsole fd then .console else .file f

def sysRead : Int → Bool → Nat → Bool → Route := s.route t fun fd => fd = 0

def sysWrite : Int → Bool → Nat → Bool → Route := s.route t fun fd => fd = 1 ∨ fd = 2

def sysOpenFd (f : FileId) : Option (Fin maxFds) := (s.setFile f { refcount := 1 }).freeFd t

end System

variable {s s' : System} {t : Tid} {f : FileId} {i : Fin maxFds}

lemma freeFd_lt_iff (found : s.freeFd t = some i) (n : Nat) :
    n ≤ i ↔ ∀ j : Fin maxFds, (j : Nat) < n → s.slot (t, j) ≠ none := by
  obtain ⟨free, front, back, split, used⟩ := find?_eq_some_iff_append.mp found
  have order := pairwise_lt_finRange maxFds
  rw [split, pairwise_append, pairwise_cons] at order
  constructor
  · intro low j below
    have mem := mem_finRange j
    rw [split] at mem
    rcases mem_append.mp mem with early | late
    · simpa using used j early
    · rcases mem_cons.mp late with rfl | late
      · omega
      · have later := order.2.1.1 j late
        omega
  · intro taken
    by_contra high
    exact taken i (by omega) (by simpa using free)

lemma route_open {isConsole : Int → Bool} {count : Nat} (some : 0 < count)
    (held : s.slot (t, i) = .some f) :
    s.route t isConsole i true count true = .file f ↔ isConsole i = false := by
  have index : System.fdIndex (i : Int) = .some i := by simp [System.fdIndex]
  have counted : count ≠ 0 := by omega
  cases at' : isConsole i <;> simp [System.route, index, held, at', counted]

/-- After `sys_open` has returned a descriptor, as long as it is not closed, reads and writes go
to the opened file if and only if the descriptors 0, 1 and 2 were in use before the call. -/
theorem routed_iff (opened : s.sysOpenFd t f = some i) (held : s'.slot (t, i) = some f)
    {count : Nat} (some : 0 < count) :
    (s'.sysRead t i true count true = .file f ∧ s'.sysWrite t i true count true = .file f) ↔
      ∀ j : Fin maxFds, (j : Nat) < 3 → s.slot (t, j) ≠ none := by
  have number : 3 ≤ (i : Nat) ↔ ∀ j : Fin maxFds, (j : Nat) < 3 → s.slot (t, j) ≠ none :=
    freeFd_lt_iff opened 3
  rw [System.sysRead, System.sysWrite, route_open some held, route_open some held, ← number]
  simp only [decide_eq_false_iff_not]
  omega

/-- The fourth file that a task opens. -/
theorem routed_iff_fourth :
    let s := (((initial 0).sysOpen 0 1).sysOpen 0 2).sysOpen 0 3
    s.sysOpenFd 0 4 = some ⟨3, by decide⟩ ∧ (s.sysOpen 0 4).sysRead 0 3 true 1 true = .file 4 ∧
      (s.sysOpen 0 4).sysWrite 0 3 true 1 true = .file 4 := by
  intro s
  have opened : s.sysOpenFd 0 4 = some ⟨3, by decide⟩ := by decide
  have held : (s.sysOpen 0 4).slot (0, ⟨3, by decide⟩) = some 4 := by decide
  exact ⟨opened, (routed_iff opened held Nat.one_pos).mpr (by decide)⟩

/-- The first file a task opens cannot be read, the second cannot be written. -/
theorem opened_console :
    let s := (initial 0).sysOpen 0 1
    (initial 0).sysOpenFd 0 1 = some ⟨0, by decide⟩ ∧ s.sysRead 0 0 true 1 true = .console ∧
      s.sysOpenFd 0 2 = some ⟨1, by decide⟩ ∧
      (s.sysOpen 0 2).sysWrite 0 1 true 1 true = .console := by
  decide

end AuroraOS.Fd
