import Mathlib.Logic.Function.Basic

/-!
# The lock of a task's filter

`seccomp_check` and `seccomp_set_filter` of `kernel/seccomp.c`, called on one task by any number of
callers at once, access by access: `task->seccomp`, its lock, and the memory of the filters.
-/

namespace AuroraOS.Seccomp.Lock

open Function

structure Shared where
  locked : Bool := false
  seccomp : Option Nat := none
  allocated : Nat → Bool := fun _ => false

/-- Where a caller stands: outside both functions, in `seccomp_check` before and after it has read
`task->seccomp`, or in `seccomp_set_filter`, with the new filter, and with the old one. -/
inductive Phase
  | outside
  | check
  | use (filter : Option Nat)
  | set
  | swap (new : Option Nat)
  | unlock (old : Option Nat)
  | free (old : Option Nat)

inductive Act : Phase → Shared → Phase → Shared → Prop
  | lockCheck {s : Shared} (unlocked : s.locked = false) :
      Act .outside s .check { s with locked := true }
  | read {s : Shared} : Act .check s (.use s.seccomp) s
  | unlockCheck {s : Shared} {filter : Option Nat} :
      Act (.use filter) s .outside { s with locked := false }
  | lockSet {s : Shared} (unlocked : s.locked = false) :
      Act .outside s .set { s with locked := true }
  | remove {s : Shared} : Act .set s (.swap none) s
  | kmalloc {s : Shared} {new : Nat} (fresh : s.allocated new = false) :
      Act .set s (.swap (some new)) { s with allocated := update s.allocated new true }
  | fail {s : Shared} : Act .set s .outside { s with locked := false }
  | swap {s : Shared} {new : Option Nat} :
      Act (.swap new) s (.unlock s.seccomp) { s with seccomp := new }
  | unlockSet {s : Shared} {old : Option Nat} :
      Act (.unlock old) s (.free old) { s with locked := false }
  | kfree {s : Shared} {old : Nat} :
      Act (.free (some old)) s .outside { s with allocated := update s.allocated old false }
  | done {s : Shared} : Act (.free none) s .outside s

/-- Any caller acts at any time. -/
inductive Reachable : (Nat → Phase) → Shared → Prop
  | start : Reachable (fun _ => .outside) {}
  | step {calls : Nat → Phase} {s s' : Shared} {p : Phase} (before : Reachable calls s) (c : Nat)
      (act : Act (calls c) s p s') : Reachable (update calls c p) s'

def Phase.holds : Phase → Bool
  | outside | free _ => false
  | _ => true

/-- The filter of which a caller in this phase has the only pointer. -/
def Phase.owns : Phase → Option Nat
  | swap f | unlock f | free f => f
  | _ => none

/-- What holds of a caller by itself. -/
structure Fine (p : Phase) (s : Shared) : Prop where
  locked : p.holds → s.locked
  reads : ∀ f, p = .use f → f = s.seccomp
  owned : ∀ a, p.owns = some a → s.allocated a ∧ s.seccomp ≠ some a

/-- What holds of two callers. -/
structure Apart (p q : Phase) : Prop where
  holds : p.holds → ¬q.holds
  owns : ∀ a, p.owns = some a → q.owns ≠ some a

structure Sound (calls : Nat → Phase) (s : Shared) : Prop where
  installed : ∀ a, s.seccomp = some a → s.allocated a
  fine : ∀ c, Fine (calls c) s
  apart : ∀ c d, c ≠ d → Apart (calls c) (calls d)

variable {calls : Nat → Phase} {s s' : Shared} {p p' q : Phase}

lemma Apart.symm (apart : Apart p q) : Apart q p :=
  ⟨fun theirs mine => apart.holds mine theirs, fun a theirs mine => apart.owns a mine theirs⟩

section Act

variable (act : Act p s p' s')
include act

lemma Act.installed (fine : Fine p s) (installed : ∀ a, s.seccomp = some a → s.allocated a) :
    ∀ a, s'.seccomp = some a → s'.allocated a := by
  obtain ⟨-, -, owned⟩ := fine
  cases act <;> grind -ring -linarith [update, Phase.owns]

lemma Act.fine (fine : Fine p s) (installed : ∀ a, s.seccomp = some a → s.allocated a) :
    Fine p' s' := by
  obtain ⟨locked, -, owned⟩ := fine
  cases act <;> constructor <;> grind -ring -linarith [update, Phase.holds, Phase.owns]

/-- A caller that does not act keeps its lock, its filter and its distance. -/
lemma Act.other (fine : Fine q s) (apart : Apart p q) : Fine q s' ∧ Apart p' q := by
  obtain ⟨locked, reads, owned⟩ := fine
  obtain ⟨holds, owns⟩ := apart
  cases act <;> refine ⟨⟨?_, ?_, ?_⟩, ?_, ?_⟩ <;>
    grind -ring -linarith [update, Phase.holds, Phase.owns]

end Act

lemma Sound.step (sound : Sound calls s) (c : Nat) (act : Act (calls c) s p s') :
    Sound (update calls c p) s' := by
  have others := fun d (other : c ≠ d) => act.other (sound.fine d) (sound.apart c d other)
  refine ⟨act.installed (sound.fine c) sound.installed, fun d => ?_, fun d e other => ?_⟩
  · rcases eq_or_ne c d with rfl | notD
    · rw [update_self]
      exact act.fine (sound.fine c) sound.installed
    · rw [update_of_ne notD.symm]
      exact (others d notD).1
  -- of two callers at most one has acted
  · rcases eq_or_ne c d with rfl | notD
    · rw [update_self, update_of_ne other.symm]
      exact (others e other).2
    rcases eq_or_ne c e with rfl | notE
    · rw [update_self, update_of_ne notD.symm]
      exact (others d notD).2.symm
    · rw [update_of_ne notD.symm, update_of_ne notE.symm]
      exact sound.apart d e other

lemma sound_of_reachable (reachable : Reachable calls s) : Sound calls s := by
  induction reachable with
  | start => exact ⟨nofun, fun _ => ⟨nofun, nofun, nofun⟩, fun _ _ _ => ⟨nofun, nofun⟩⟩
  | step _ c act ih => exact ih.step c act

/-- However the callers interleave, a filter that is in use is allocated and nobody is about to free
it, and a filter is freed by one caller, after it was replaced. -/
theorem no_use_after_free (reachable : Reachable calls s) :
    (∀ c a, calls c = .use (some a) → s.allocated a ∧ ∀ d, calls d ≠ .free (some a)) ∧
      ∀ c a, calls c = .free (some a) → s.allocated a ∧ s.seccomp ≠ some a ∧
        ∀ d, calls d = .free (some a) → d = c := by
  have sound := sound_of_reachable reachable
  have owner {c a : Nat} (frees : calls c = .free (some a)) : (calls c).owns = some a := by
    rw [frees]
    rfl
  refine ⟨fun c a use => ?_, fun c a frees => ?_⟩
  · have read := (sound.fine c).reads _ use
    exact ⟨sound.installed a read.symm,
      fun d frees => ((sound.fine d).owned a (owner frees)).2 read.symm⟩
  · obtain ⟨live, replaced⟩ := (sound.fine c).owned a (owner frees)
    refine ⟨live, replaced, fun d frees' => ?_⟩
    by_contra other
    exact (sound.apart d c other).owns a (owner frees') (owner frees)

/-- A filter is installed and then used. -/
theorem no_use_after_free_installed :
    ∃ calls s, Reachable calls s ∧ calls 1 = .use (some 7) ∧ s.allocated 7 := by
  have new : Reachable _ _ := .step (.step .start 0 (.lockSet rfl)) 0 (@Act.kmalloc _ 7 rfl)
  have installed : Reachable _ _ := .step (.step new 0 .swap) 0 .unlockSet
  have used : Reachable _ _ := .step (.step installed 1 (.lockCheck rfl)) 1 .read
  exact ⟨_, _, used, rfl, ((no_use_after_free used).1 1 7 rfl).1⟩

end AuroraOS.Seccomp.Lock
