import Mathlib.Data.List.Nodup

/-!
# Null-terminated intrusive lists

`Chain next head xs` says that the cells reached from `head` by following `next` up to the
terminator are exactly `xs`, in this order.
-/

namespace AuroraOS.Lib

open Function List Option

variable {α : Type*}

/-- Following `next` from `head` meets exactly the cells `xs` and then stops. -/
def Chain (next : α → Option α) : Option α → List α → Prop
  | head, [] => head = none
  | head, x :: xs => head = some x ∧ Chain next (next x) xs

variable {next : α → Option α} {head : Option α}

@[simp] lemma chain_nil : Chain next head [] ↔ head = none := Iff.rfl

variable {xs : List α}

lemma Chain.congr {next' : α → Option α}
    (same : ∀ x ∈ xs, next' x = next x) (chain : Chain next head xs) :
    Chain next' head xs := by
  induction xs generalizing head with
  | nil => exact chain
  | cons x xs ih =>
    obtain ⟨rfl, rest⟩ := chain
    refine ⟨rfl, ?_⟩
    rw [same x (by simp)]
    exact ih (fun y mem => same y (by simp [mem])) rest

lemma Chain.unique {ys : List α}
    (left : Chain next head xs) (right : Chain next head ys) : xs = ys := by
  induction xs generalizing head ys with
  | nil =>
    cases ys with
    | nil => rfl
    | cons y ys => cases left.symm.trans right.1
  | cons x xs ih =>
    cases ys with
    | nil => cases right.symm.trans left.1
    | cons y ys =>
      obtain ⟨headLeft, left⟩ := left
      obtain ⟨headRight, right⟩ := right
      cases some.inj (headLeft.symm.trans headRight)
      rw [ih left right]

lemma Chain.eq_nil_iff (chain : Chain next head xs) : xs = [] ↔ head = none := by
  cases xs with
  | nil => simpa using chain
  | cons x xs => simp [chain.1]

lemma Chain.suffix {front back : List α} {x : α}
    (chain : Chain next head (front ++ x :: back)) : Chain next (next x) back := by
  induction front generalizing head with
  | nil => exact chain.2
  | cons y front ih => exact ih chain.2

lemma Chain.nodup (chain : Chain next head xs) : xs.Nodup := by
  induction xs generalizing head with
  | nil => exact nodup_nil
  | cons x xs ih =>
    apply nodup_cons.mpr
    refine ⟨fun mem => ?_, ih chain.2⟩
    -- the chain behind the second `x` would be the one behind the first
    obtain ⟨front, back, split⟩ := append_of_mem mem
    have behind : Chain next (next x) back := Chain.suffix (split ▸ chain.2)
    have same := congrArg length (chain.2.unique behind)
    rw [split, length_append, length_cons] at same
    omega

lemma Chain.extend {next' : α → Option α} {front : List α} {last y : α}
    (chain : Chain next head (front ++ [last])) (same : ∀ x ∈ front, next' x = next x)
    (link : next' last = some y) (stop : next' y = none) :
    Chain next' head (front ++ [last, y]) := by
  induction front generalizing head with
  | nil => exact ⟨chain.1, link, stop⟩
  | cons x front ih =>
    refine ⟨chain.1, ?_⟩
    rw [same x mem_cons_self]
    exact ih chain.2 fun z mem => same z (mem_cons_of_mem _ mem)

section Surgery

variable [DecidableEq α] {next : α → Option α} {head : Option α} {xs : List α} {p : α}

lemma Chain.update_of_notMem (link : Option α) (foreign : p ∉ xs)
    (chain : Chain next head xs) : Chain (update next p link) head xs := by
  refine chain.congr fun x mem => ?_
  have different : x ≠ p := fun same => foreign (same ▸ mem)
  simp [different]

lemma Chain.push (fresh : p ∉ xs) (chain : Chain next head xs) :
    Chain (update next p head) (some p) (p :: xs) := by
  refine ⟨rfl, ?_⟩
  simpa using chain.update_of_notMem head fresh

lemma Chain.pop (nodup : (p :: xs).Nodup) (chain : Chain next head (p :: xs)) :
    Chain (update next p none) (next p) xs :=
  chain.2.update_of_notMem none (nodup_cons.mp nodup).1

/-- The predecessor walk of an unlink: advance until the cell whose link is `p`,
or until the terminator.  The outer `none` is an exhausted walk. -/
def findPrev (next : α → Option α) (p : α) : Nat → Option α → Option (Option α)
  | 0, _ => none
  | _ + 1, none => some none
  | fuel + 1, some prev =>
    if next prev = some p then some (some prev) else findPrev next p fuel (next prev)

variable {front back : List α} {prev : α}

lemma Chain.findPrev_eq {fuel : Nat} (chain : Chain next head (front ++ prev :: p :: back))
    (nodup : (front ++ prev :: p :: back).Nodup) (enough : front.length < fuel) :
    findPrev next p fuel head = some (some prev) := by
  induction front generalizing head fuel with
  | nil =>
    obtain ⟨rfl, link, -⟩ := chain
    cases fuel with
    | zero => cases enough
    | succ fuel => simp [findPrev, link]
  | cons y front ih =>
    obtain ⟨rfl, rest⟩ := chain
    cases fuel with
    | zero => cases enough
    | succ fuel =>
      have notYet : next y ≠ some p := by
        intro link
        rw [link] at rest
        cases front with
        | nil =>
          cases some.inj rest.1
          simp at nodup
        | cons z front =>
          cases some.inj rest.1
          simp at nodup
      simp only [findPrev, if_neg notYet]
      exact ih rest (nodup_cons.mp nodup).2 (by simpa using enough)

lemma Chain.unlink (chain : Chain next head (front ++ prev :: p :: back))
    (nodup : (front ++ prev :: p :: back).Nodup) :
    Chain (update (update next prev (next p)) p none) head (front ++ prev :: back) := by
  induction front generalizing head with
  | nil =>
    obtain ⟨rfl, link, rest⟩ := chain
    simp only [nil_append, nodup_cons, mem_cons, not_or] at nodup
    obtain ⟨⟨prevNe, prevFresh⟩, pFresh, -⟩ := nodup
    refine ⟨rfl, ?_⟩
    rw [update_of_ne prevNe, update_self]
    exact (rest.update_of_notMem _ prevFresh).update_of_notMem _ pFresh
  | cons y front ih =>
    obtain ⟨rfl, rest⟩ := chain
    have split := nodup_cons.mp nodup
    have yNePrev : y ≠ prev := fun same => split.1 (by simp [same])
    have yNeP : y ≠ p := fun same => split.1 (by simp [same])
    refine ⟨rfl, ?_⟩
    rw [update_of_ne yNeP, update_of_ne yNePrev]
    exact ih rest split.2

end Surgery

end AuroraOS.Lib
