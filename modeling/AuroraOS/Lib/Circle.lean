import Mathlib.Data.List.Nodup

/-!
# Circular intrusive lists

`Route next a xs stop` says that the links from `a` lead through the cells `xs`, in this order, and
from the last of them to `stop`.  A `Circle` is a path without repetition that ends where it starts.
-/

namespace AuroraOS.Lib

open Function List

variable {α : Type*} {next next' : α → Option α} {a b stop : α} {xs ys : List α}

def Route (next : α → Option α) : α → List α → α → Prop
  | a, [], stop => next a = some stop
  | a, b :: xs, stop => next a = some b ∧ Route next b xs stop

instance Route.decidable [DecidableEq α] : ∀ a xs stop, Decidable (Route next a xs stop)
  | a, [], stop => inferInstanceAs (Decidable (next a = some stop))
  | a, b :: xs, stop =>
    haveI : Decidable (Route next b xs stop) := Route.decidable b xs stop
    inferInstanceAs (Decidable (next a = some b ∧ Route next b xs stop))

namespace Route

variable (path : Route next a xs stop)
include path

lemma congr (same : ∀ x ∈ a :: xs, next' x = next x) : Route next' a xs stop := by
  induction xs generalizing a with
  | nil => exact (same a (by simp)).trans path
  | cons b xs ih =>
    exact ⟨(same a (by simp)).trans path.1, ih path.2 fun x mem => same x (mem_cons_of_mem _ mem)⟩

omit path in
lemma append : Route next a (xs ++ b :: ys) stop ↔ Route next a xs b ∧ Route next b ys stop := by
  induction xs generalizing a with
  | nil => exact Iff.rfl
  | cons c xs ih =>
    rw [cons_append]
    exact (and_congr_right fun _ => ih).trans and_assoc.symm

/-- Along a path that does not pass its end only the last cell links to the end. -/
lemma eq_getLast_of_link (fresh : stop ∉ xs) {p : α}
    (mem : p ∈ a :: xs) (link : next p = some stop) :
    p = (a :: xs).getLast (cons_ne_nil a xs) := by
  induction xs generalizing a with
  | nil => simpa using mem
  | cons b xs ih =>
    obtain ⟨step, rest⟩ := path
    rcases mem_cons.mp mem with rfl | later
    · cases step.symm.trans link
      exact absurd (mem_cons_self ..) fresh
    · exact ih rest (fun inside => fresh (mem_cons_of_mem _ inside)) later

lemma getLast_link : next ((a :: xs).getLast (cons_ne_nil a xs)) = some stop := by
  induction xs generalizing a with
  | nil => exact path
  | cons b xs ih =>
    exact ih path.2

lemma redirect [DecidableEq α] {stop' : α} (nodup : (a :: xs).Nodup) :
    Route (update next ((a :: xs).getLast (cons_ne_nil a xs)) (some stop')) a xs stop' := by
  induction xs generalizing a with
  | nil => exact update_self ..
  | cons b xs ih =>
    obtain ⟨step, rest⟩ := path
    obtain ⟨fresh, tail⟩ := nodup_cons.mp nodup
    have other : a ≠ (b :: xs).getLast (cons_ne_nil b xs) := fun same =>
      fresh (same ▸ getLast_mem _)
    exact ⟨(update_of_ne other _ _).trans step, ih rest tail⟩

end Route

/-- The cells `a :: xs`, linked in a circle. -/
structure Circle (next : α → Option α) (a : α) (xs : List α) : Prop where
  path : Route next a xs a
  nodup : (a :: xs).Nodup

namespace Circle

lemma congr (circle : Circle next a xs) (same : ∀ x ∈ a :: xs, next' x = next x) :
    Circle next' a xs :=
  ⟨circle.path.congr same, circle.nodup⟩

lemma fresh (circle : Circle next a xs) : a ∉ xs := (nodup_cons.mp circle.nodup).1

lemma rotate (circle : Circle next a (xs ++ b :: ys)) : Circle next b (ys ++ a :: xs) := by
  obtain ⟨first, second⟩ := Route.append.mp circle.path
  refine ⟨Route.append.mpr ⟨second, first⟩, ?_⟩
  have swap : ((a :: xs) ++ (b :: ys)).Perm ((b :: ys) ++ (a :: xs)) := perm_append_comm
  exact swap.nodup_iff.mp circle.nodup

lemma exists_rotate (circle : Circle next a xs) (mem : b ∈ a :: xs) :
    ∃ ys, Circle next b ys ∧ (b :: ys).Perm (a :: xs) := by
  rcases mem_cons.mp mem with rfl | inner
  · exact ⟨xs, circle, Perm.refl _⟩
  · obtain ⟨front, back, rfl⟩ := append_of_mem inner
    have swap : ((b :: back) ++ (a :: front)).Perm ((a :: front) ++ (b :: back)) :=
      perm_append_comm
    exact ⟨back ++ a :: front, circle.rotate, swap⟩

lemma unique (left : Circle next a xs) (right : Circle next a ys) : xs = ys := by
  have aux : ∀ (b : α) (xs ys : List α), Route next b xs a → Route next b ys a → a ∉ xs → a ∉ ys →
      xs = ys := by
    intro b xs
    induction xs generalizing b with
    | nil =>
      intro ys stop path _ freshY
      cases ys with
      | nil => rfl
      | cons c ys =>
        cases stop.symm.trans path.1
        exact absurd (mem_cons_self ..) freshY
    | cons c xs ih =>
      intro ys path path' freshX freshY
      cases ys with
      | nil =>
        cases path.1.symm.trans path'
        exact absurd (mem_cons_self ..) freshX
      | cons d ys =>
        cases path.1.symm.trans path'.1
        rw [ih c ys path.2 path'.2 (fun h => freshX (mem_cons_of_mem _ h))
          fun h => freshY (mem_cons_of_mem _ h)]
  exact aux a xs ys left.path right.path left.fresh right.fresh

variable [DecidableEq α]

lemma push {t : α} (circle : Circle next a xs) (fresh : t ∉ a :: xs) :
    Circle (update (update next t (next a)) a (some t)) a (t :: xs) := by
  have other : t ≠ a := fun same => fresh (same ▸ mem_cons_self ..)
  have kept : ∀ x ∈ xs, update (update next t (next a)) a (some t) x = next x := by
    intro x mem
    have notA : x ≠ a := fun same => circle.fresh (same ▸ mem)
    have notT : x ≠ t := fun same => fresh (same ▸ mem_cons_of_mem _ mem)
    rw [update_of_ne notA, update_of_ne notT]
  have here : update (update next t (next a)) a (some t) t = next a := by
    rw [update_of_ne other, update_self]
  refine ⟨⟨update_self .., ?_⟩, ?_⟩
  · cases xs with
    | nil => exact here.trans circle.path
    | cons b xs => exact ⟨here.trans circle.path.1, circle.path.2.congr kept⟩
  · exact ((Perm.swap _ _ _).nodup_iff).mp (nodup_cons.mpr ⟨fresh, circle.nodup⟩)

lemma unlink {p : α} (circle : Circle next a (b :: xs)) (mem : p ∈ b :: xs)
    (link : next p = some a) : Circle (update next p (next a)) b xs := by
  obtain ⟨step, rest⟩ := circle.path
  have fresh : a ∉ xs := fun inside => circle.fresh (mem_cons_of_mem _ inside)
  have nodup := (nodup_cons.mp circle.nodup).2
  rw [rest.eq_getLast_of_link fresh mem link, step]
  exact ⟨rest.redirect nodup, nodup⟩

end Circle

/-! ## The list behind a head pointer -/

def CircularList (next : α → Option α) (head : Option α) (ts : List α) : Prop :=
  (ts = [] ∧ head = none) ∨
    ∃ h rest, head = some h ∧ Circle next h rest ∧ (h :: rest).Perm ts

namespace CircularList

variable {head : Option α} {ts : List α} {t : α}

variable (list : CircularList next head ts)
include list

lemma nodup : ts.Nodup := by
  rcases list with ⟨rfl, -⟩ | ⟨h, rest, -, circle, same⟩
  · exact nodup_nil
  · exact same.nodup_iff.mp circle.nodup

lemma congr (same : ∀ x ∈ ts, next' x = next x) : CircularList next' head ts := by
  rcases list with empty | ⟨h, rest, headIs, circle, cells⟩
  · exact .inl empty
  · exact .inr ⟨h, rest, headIs, circle.congr fun x mem => same x (cells.mem_iff.mp mem), cells⟩

lemma circle_of_mem (mem : t ∈ ts) : ∃ rest, Circle next t rest ∧ (t :: rest).Perm ts := by
  rcases list with ⟨rfl, -⟩ | ⟨h, rest, -, circle, same⟩
  · cases mem
  · obtain ⟨ys, turned, cells⟩ := circle.exists_rotate (same.mem_iff.mpr mem)
    exact ⟨ys, turned, cells.trans same⟩

lemma exists_head (mem : t ∈ ts) : ∃ h, head = some h := by
  rcases list with ⟨rfl, -⟩ | ⟨h, -, headIs, -⟩
  · cases mem
  · exact ⟨h, headIs⟩

omit list

lemma eq_nil (list : CircularList next none ts) : ts = [] := by
  rcases list with ⟨is, -⟩ | ⟨h, -, headIs, -⟩
  · exact is
  · cases headIs

lemma circle (list : CircularList next (some a) ts) :
    ∃ rest, Circle next a rest ∧ (a :: rest).Perm ts := by
  rcases list with ⟨-, headIs⟩ | ⟨h, rest, headIs, found⟩
  · cases headIs
  · cases headIs
    exact ⟨rest, found⟩

lemma exists_mem_iff (list : CircularList next head ts) :
    (∃ us, CircularList next head us ∧ t ∈ us) ↔ t ∈ ts := by
  refine ⟨fun ⟨us, other, mem⟩ => ?_, fun mem => ⟨ts, list, mem⟩⟩
  cases head with
  | none => rwa [list.eq_nil, ← other.eq_nil]
  | some h =>
    obtain ⟨rest, found, same⟩ := list.circle
    obtain ⟨rest', found', same'⟩ := other.circle
    cases found.unique found'
    exact same.mem_iff.mp (same'.mem_iff.mpr mem)

variable [DecidableEq α]

lemma single (list : CircularList next none ts) :
    CircularList (update next t (some t)) (some t) (t :: ts) := by
  rw [list.eq_nil]
  exact .inr ⟨t, [], rfl, ⟨update_self .., by simp⟩, Perm.refl _⟩

lemma push {h : α} (list : CircularList next (some h) ts) (fresh : t ∉ ts) :
    CircularList (update (update next t (next h)) h (some t)) (some h) (t :: ts) := by
  obtain ⟨rest, circle, same⟩ := list.circle
  refine .inr ⟨h, t :: rest, rfl, circle.push fun inside => fresh (same.mem_iff.mp inside), ?_⟩
  exact (Perm.swap _ _ _).trans (same.cons t)

/-- A cell that is not the only one is taken out by the link of the cell before it; the
head moves on if it was the head. -/
lemma remove {h p : α} (list : CircularList next (some h) ts) (mem : t ∈ ts)
    (before : p ∈ ts) (other : p ≠ t) (link : next p = some t) :
    CircularList (update next p (next t)) (if h = t then next t else some h) (ts.erase t) := by
  obtain ⟨ys, circle, cells⟩ := list.circle_of_mem mem
  have inner : p ∈ ys := (mem_cons.mp (cells.mem_iff.mpr before)).resolve_left other
  obtain ⟨b, ys, rfl⟩ := exists_cons_of_ne_nil (ne_nil_of_mem inner)
  have removed := circle.unlink inner link
  have rest : (b :: ys).Perm (ts.erase t) := by
    have erased := cells.erase t
    rwa [erase_cons_head] at erased
  rcases eq_or_ne h t with rfl | notHead
  · rw [if_pos rfl]
    exact .inr ⟨b, ys, circle.path.1, removed, rest⟩
  rw [if_neg notHead]
  obtain ⟨rest', -, same⟩ := list.circle
  have headIn : h ∈ t :: b :: ys :=
    (cells.trans same.symm).mem_iff.mpr (mem_cons_self ..)
  obtain ⟨zs, turned, same'⟩ :=
    removed.exists_rotate ((mem_cons.mp headIn).resolve_left notHead)
  exact .inr ⟨h, zs, rfl, turned, same'.trans rest⟩

end CircularList

end AuroraOS.Lib
