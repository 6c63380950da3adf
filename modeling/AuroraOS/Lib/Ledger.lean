import Mathlib.Data.List.Basic
import Mathlib.Tactic.Cases

/-!
# Ledgers

A ledger lists things in the order in which they were made, each with the place of the one it was
made from, if any; `Linked rel L` says that the two are related.
-/

namespace AuroraOS.Lib

variable {α : Type}

/-- A thing made, and the place of what it was made from. -/
structure Made (α : Type) where
  value : α
  source : Option Nat
deriving DecidableEq, Repr

/-- The sources of a thing lead back to the one at `o`. -/
inductive Descends (L : List (Made α)) (o : Nat) : Nat → Prop
  | self : Descends L o o
  | link {m n : Nat} {e : Made α} :
      L[n]? = some e → e.source = some m → Descends L o m → Descends L o n

def Linked (rel : α → α → Prop) (L : List (Made α)) : Prop :=
  ∀ (n : Nat) (e : Made α) (m : Nat), L[n]? = some e → e.source = some m →
    m < n ∧ ∃ q, L[m]? = some q ∧ rel q.value e.value

lemma linked_nil (rel : α → α → Prop) : Linked rel [] :=
  fun _ _ _ there => nomatch there

variable {L : List (Made α)} {e x : Made α} {n : Nat}

lemma getElem?_append_single
    (there : (L ++ [e])[n]? = some x) : L[n]? = some x ∨ n = L.length ∧ x = e := by
  rcases Nat.lt_or_ge n L.length with inside | beyond
  · rw [List.getElem?_append_left inside] at there
    exact .inl there
  rw [List.getElem?_append_right beyond] at there
  have last : n - L.length = 0 := by
    have bound := (List.getElem?_eq_some_iff.mp there).1
    simpa using bound
  rw [last] at there
  exact .inr ⟨by omega, (Option.some.inj there).symm⟩

lemma getElem?_append_old (there : L[n]? = some x) : (L ++ [e])[n]? = some x := by
  rw [List.getElem?_append_left (List.getElem?_eq_some_iff.mp there).1]
  exact there

namespace Linked

variable {rel : α → α → Prop} {L : List (Made α)}

lemma append (linked : Linked rel L) (e : Made α)
    (source : ∀ m, e.source = some m → ∃ q, L[m]? = some q ∧ rel q.value e.value) :
    Linked rel (L ++ [e]) := by
  intro n x m there is
  rcases getElem?_append_single there with old | ⟨rfl, rfl⟩
  · obtain ⟨before, q, placed, related⟩ := linked n x m old is
    exact ⟨before, q, getElem?_append_old placed, related⟩
  · obtain ⟨q, placed, related⟩ := source m is
    exact ⟨(List.getElem?_eq_some_iff.mp placed).1, q, getElem?_append_old placed, related⟩

/-- Every entry descends from an original one.  By induction on the place, as sources stand
earlier. -/
lemma exists_root {le : α → α → Prop} (linked : Linked rel L)
    (refl : ∀ a, le a a) (trans : ∀ a b c, le a b → le b c → le a c)
    (weaken : ∀ a b, rel a b → le a b) {n : Nat} {e : Made α} (there : L[n]? = some e) :
    ∃ o r, L[o]? = some r ∧ r.source = none ∧ Descends L o n ∧ le r.value e.value := by
  induction n using Nat.strongRecOn generalizing e with
  | _ n ih =>
    cases is : e.source with
    | none => exact ⟨n, e, there, is, .self, refl _⟩
    | some m =>
      obtain ⟨before, q, placed, related⟩ := linked n e m there is
      obtain ⟨o, r, root, original, descends, below⟩ := ih m before placed
      exact ⟨o, r, root, original, .link there is descends, trans _ _ _ below (weaken _ _ related)⟩

end Linked

end AuroraOS.Lib
