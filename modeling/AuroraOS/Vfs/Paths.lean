import AuroraOS.Vfs.Lock
import Mathlib.Data.List.Basic

/-!
# The bytes of a path

`vfs_lookup` reads the components of a path from its bytes as it goes.
-/

namespace AuroraOS.Vfs.Lock.Cache

open List
open Vfs.State (tokens)

variable (fs : Fs)

def lookupBytes (v : Cache) (cur : DentryId) (p : Name) : Except Trouble (Cache × Option NodeId) :=
  if p = [] then (v.dentry cur).map fun x => (v, x.inode)
  else
    let name := p.takeWhile (· ≠ slash)
    -- behind the last component there is no slash to step over, and nothing to drop
    let rest := p.drop (name.length + 1)
    if name = [] then lookupBytes v cur rest
    else if 255 < name.length then .ok (v, none)
    else if name = [dot, dot] then .ok (v, none)
    else if name = [dot] then lookupBytes v cur rest
    else do
      let (v, child) ← v.lookupStep fs cur name
      match child with
      | some child => lookupBytes v child rest
      | none => return (v, none)
termination_by p.length
decreasing_by all_goals
  have := length_pos_iff.mpr ‹p ≠ []›
  rw [length_drop]
  omega

def lookupPath (v : Cache) (path : Name) : Except Trouble (Cache × Option NodeId) :=
  match v.root with
  | none => .ok (v, none)
  | some root =>
    if path.head? = some slash ∧ path.length ≤ 4096 then lookupBytes fs v root path.tail
    else .ok (v, none)

variable {fs} {v : Cache} {cur : DentryId} {name tail : Name}

lemma takeWhile_plain (plain : slash ∉ name) (ends : ∀ c ∈ tail.head?, c = slash) :
    (name ++ tail).takeWhile (· ≠ slash) = name := by
  rw [takeWhile_append_of_pos fun c mem => decide_eq_true (ne_of_mem_of_not_mem mem plain)]
  cases tail with
  | nil => rw [takeWhile_nil, append_nil]
  | cons c rest => rw [ends c rfl, takeWhile_cons_of_neg (by simp), append_nil]

lemma tokens_append (plain : slash ∉ name) (ends : ∀ c ∈ tail.head?, c = slash) :
    tokens (name ++ tail) =
      if name = [] then tokens (tail.drop 1) else name :: tokens (tail.drop 1) := by
  have split : (name ++ tail).splitOn slash = name :: (tail.drop 1).splitOn slash ∨
      tail = [] ∧ name.splitOn slash = [name] := by
    cases tail with
    | nil => exact .inr ⟨rfl, splitOnP_eq_singleton fun c mem => by
        simpa using ne_of_mem_of_not_mem mem plain⟩
    | cons c rest =>
      rw [ends c rfl]
      exact .inl (splitOn_append_cons_self_of_not_mem plain rest)
  rcases split with split | ⟨rfl, split⟩
  · rw [tokens, split]
    split_ifs with empty <;> simp [tokens, empty]
  · rw [append_nil, tokens, split]
    split_ifs with empty <;> simp [tokens, empty]

lemma lookupBytes_eq (p : Name) : lookupBytes fs v cur p = v.lookupFrom fs cur (tokens p) := by
  induction size : p.length using Nat.strongRecOn generalizing v cur p with
  | ind n ih =>
    by_cases last : p = []
    · subst last
      rw [lookupBytes, if_pos rfl]
      rfl
    obtain ⟨name, tail, rfl, plain, ends⟩ : ∃ name tail, p = name ++ tail ∧ slash ∉ name ∧
        ∀ c ∈ tail.head?, c = slash := by
      by_cases has : slash ∈ p
      · obtain ⟨name, rest, is, plain⟩ := eq_append_cons_of_mem has
        exact ⟨name, slash :: rest, is, plain, by simp⟩
      · exact ⟨p, [], (append_nil p).symm, has, nofun⟩
    have below (v : Cache) (cur : DentryId) :
        lookupBytes fs v cur (tail.drop 1) = v.lookupFrom fs cur (tokens (tail.drop 1)) := by
      refine ih _ ?_ _ rfl
      have := length_pos_iff.mpr last
      rw [length_append] at this size
      rw [length_drop]
      omega
    rw [lookupBytes, if_neg last, tokens_append plain ends]
    simp only [takeWhile_plain plain ends, ← drop_drop, drop_left, below]
    by_cases empty : name = []
    · rw [if_pos empty, if_pos empty]
    · rw [if_neg empty, if_neg empty]
      rfl

lemma lookupFrom_filter (ts : List Name) :
    v.lookupFrom fs cur (ts.filter (· ≠ [dot])) = v.lookupFrom fs cur ts := by
  induction ts generalizing v cur with
  | nil => rfl
  | cons t ts ih =>
    by_cases here : t = [dot]
    · rw [filter_cons_of_neg (by simp [here]), ih, lookupFrom, if_neg (by simp [here]),
        if_neg (by rw [here]; decide), if_pos here]
    · rw [filter_cons_of_pos (by simpa using here), lookupFrom, lookupFrom]
      simp only [ih]

lemma lookupFrom_dots {ts rest : List Name} {r : Cache × Option NodeId}
    (ran : v.lookupFrom fs cur ts = .ok r) :
    ∃ v', v.lookupFrom fs cur (ts ++ [dot, dot] :: rest) = .ok (v', none) := by
  induction ts generalizing v cur with
  | nil => exact ⟨v, rfl⟩
  | cons t ts ih =>
    rw [lookupFrom] at ran
    rw [cons_append, lookupFrom]
    split_ifs at ran ⊢
    · exact ⟨v, rfl⟩
    · exact ⟨v, rfl⟩
    · exact ih ran
    · cases step : v.lookupStep fs cur t with
      | error trouble =>
        rw [step] at ran
        cases ran
      | ok r' =>
        obtain ⟨v₁, child⟩ := r'
        rw [step] at ran
        cases child with
        | none => exact ⟨v₁, rfl⟩
        | some c => exact ih ran

def Absolute (path : Name) : Prop := path.head? = some slash ∧ path.length ≤ 4096

lemma lookupPath_eq {path : Name} {root : DentryId} (mounted : v.root = some root)
    (absolute : Absolute path) :
    lookupPath fs v path = v.lookupFrom fs root (tokens path.tail) := by
  rw [lookupPath, mounted]
  exact (if_pos absolute).trans (lookupBytes_eq _)

/-- Absolute paths with the same components, but for empty ones and ".", lead to the same result in
every state; a path with "..", when the walk comes to it, leads to none. -/
theorem lookup_by_components (v : Cache) (fs : Fs) :
    (∀ path path' : Name, Absolute path → Absolute path' →
      (tokens path.tail).filter (· ≠ [dot]) = (tokens path'.tail).filter (· ≠ [dot]) →
      lookupPath fs v path = lookupPath fs v path') ∧
    ∀ path ts rest root r, v.root = some root → Absolute path →
      tokens path.tail = ts ++ [dot, dot] :: rest → v.lookupFrom fs root ts = .ok r →
      ∃ v', lookupPath fs v path = .ok (v', none) := by
  constructor
  · intro path path' absolute absolute' same
    cases mounted : v.root with
    | none => rw [lookupPath, lookupPath, mounted]
    | some root =>
      rw [lookupPath_eq mounted absolute, lookupPath_eq mounted absolute', ← lookupFrom_filter,
        same, lookupFrom_filter]
  · intro path ts rest root r mounted absolute is ran
    rw [lookupPath_eq mounted absolute, is]
    exact lookupFrom_dots ran

/-- A root with one directory, which has one entry. -/
def aWithB : Fs where
  memory _ := true
  lookup m name := if m = 0 ∧ name = [0x61] then some 1 else
    if m = 1 ∧ name = [0x62] then some 2 else none
  isDir _ := true
  has _ := true
  opens _ := true

def rootOnly : Cache where
  root := some 0
  dentries := Function.update (fun _ => none) 0 (some ⟨[slash], some 0, none, [], 1⟩)
  next := 1

/-- Spellings of `/a/b`, and a path with `..`. -/
theorem lookup_by_components_slashes :
    lookupPath aWithB rootOnly [slash, slash, 0x61, slash, dot, slash, 0x62, slash] =
      lookupPath aWithB rootOnly [slash, 0x61, slash, 0x62] ∧
    (lookupPath aWithB rootOnly [slash, 0x61, slash, 0x62]).map Prod.snd = .ok (some 2) ∧
    ∃ v', lookupPath aWithB rootOnly [slash, 0x61, slash, dot, dot, slash, 0x62] =
      .ok (v', none) := by
  refine ⟨(lookup_by_components _ _).1 _ _ ⟨rfl, by decide⟩ ⟨rfl, by decide⟩ (by decide), ?_,
    (lookup_by_components _ _).2 _ [[0x61]] [[0x62]] 0 _ rfl ⟨rfl, by decide⟩ (by decide) rfl⟩
  rw [lookupPath_eq rfl ⟨rfl, by decide⟩]
  rfl

end AuroraOS.Vfs.Lock.Cache
