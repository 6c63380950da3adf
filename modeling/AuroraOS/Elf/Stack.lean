import AuroraOS.Elf.Space
import Mathlib.Data.List.Forall2

/-!
# The initial user stack

Model of `elf_setup_user_stack`.  Two things go wrong: with an even number of strings the word that
aligns the stack is pushed *below* `argc`, and a string is copied to consecutive physical addresses,
also where it crosses into another page.
-/

namespace AuroraOS.Elf

open Lib Space List Option

def userStackPages : Nat := 16
def userStackSize : Nat := userStackPages * pageSize

def aslrRandomizeStack (rnd : Nat) : Nat := 0x7FFFF0000000 + rnd % 0x40000 * pageSize

/-- The parameters of the call, and what the rest of the kernel answers. -/
structure Call where
  argv : List (List UInt8)
  envp : List (List UInt8)
  entry : BitVec 64
  phdrAddr : BitVec 64
  phnum : BitVec 16
  phentsize : BitVec 16
  rnd : Nat
  maps : Nat → Bool
  kmalloc : Bool

def stringsSize (strs : List (List UInt8)) : Nat := (strs.map (·.length + 1)).sum

namespace Call

def totalNeeded (c : Call) : Nat :=
  stringsSize (c.envp ++ c.argv) +
    (96 + (c.envp.length + 1) * 8 + (c.argv.length + 1) * 8 + 8) + 16

def auxv (c : Call) : List (List Nat) :=
  [[0, 0], [6, pageSize], [9, c.entry.toNat], [5, c.phnum.toNat], [4, c.phentsize.toNat],
    [3, c.phdrAddr.toNat]]

def top (c : Call) : Nat := aslrRandomizeStack c.rnd

def bottomPage (c : Call) : Nat := (c.top - userStackSize) / pageSize

def groups (c : Call) (argPtrs envPtrs : List Nat) : List (List Nat) :=
  c.auxv ++ [[0]] ++ envPtrs.reverse.map ([·]) ++ [[0]] ++ argPtrs.reverse.map ([·]) ++
    [[c.argv.length]]

end Call

section

variable (r : Nat → Option Nat)

def poke64 (m : Store) (va val : Nat) : Option Store :=
  (r va).map fun phys => leWrite m phys 8 val

def pokeWords : Nat → List Nat → Store → Option Store
  | _, [], m => some m
  | va, w :: ws, m => (poke64 r m va w).bind (pokeWords (va + 8) ws)

def pushGroups : List (List Nat) → Nat → Store → Option (Nat × Store)
  | [], pos, m => some (pos, m)
  | g :: rest, pos, m =>
    (pokeWords r (pos - 8 * g.length) g m).bind (pushGroups rest (pos - 8 * g.length))

/-- The strings, each below the one before, with the pointers to them. -/
def copyStrings : List (List UInt8) → Nat → Store → Option (List Nat × Nat × Store)
  | [], pos, m => some ([], pos, m)
  | str :: rest, pos, m =>
    let len := str.length + 1
    (r (pos - len)).bind fun phys =>
      (copyStrings rest (pos - len) (blit m phys len fun i => str.getD i 0)).map
        fun (ptrs, out) => ((pos - len) :: ptrs, out)

/-- Everything up to `argc`; the pointers to the arguments are behind those to the environment. -/
def fillStack (c : Call) (m : Store) : Option (Nat × Store) :=
  (copyStrings r (c.envp ++ c.argv) c.top m).bind fun (strPtrs, pos, m) =>
    pushGroups r (c.groups (strPtrs.drop c.envp.length) (strPtrs.take c.envp.length))
      (pos / 16 * 16) m

def alignStack (pos : Nat) (m : Store) : Option (Nat × Store) :=
  if pos % 16 ≠ 0 then pushGroups r [[0]] pos m else some (pos, m)

end

def setupUserStack (c : Call) (s : Space) : Option (Nat × Space) :=
  if userStackSize < c.totalNeeded then none
  else
    (mapPages c.maps userStackPages c.bottomPage s).bind fun s =>
      if c.kmalloc then
        (fillStack (translate s.table) c s.mem).bind fun (pos, m) =>
          (alignStack (translate s.table) pos m).map fun (rsp, m) => (rsp, { s with mem := m })
      else none

/-! ## What the program finds -/

def Words (v : Store) : Nat → List Nat → Prop
  | _, [] => True
  | a, w :: ws => leRead v a 8 = w % 2 ^ 64 ∧ Words v (a + 8) ws

def StringAt (v : Store) (rsp top p : Nat) (str : List UInt8) : Prop :=
  rsp ≤ p ∧ p + str.length + 1 ≤ top ∧ ∀ i < str.length + 1, v (p + i) = str.getD i 0

/-- The words from `rsp` on are those that a program expects, and the pointers among them lead to
the strings. -/
def Layout (c : Call) (v : Store) (rsp : Nat) : Prop :=
  ∃ argPtrs envPtrs, Words v rsp
      ([c.argv.length] ++ argPtrs ++ [0] ++ envPtrs ++ [0] ++ c.auxv.reverse.flatten) ∧
    Forall₂ (StringAt v rsp c.top) argPtrs c.argv ∧
    Forall₂ (StringAt v rsp c.top) envPtrs c.envp

/-- The stack pointer is aligned, the stack above it is mapped, and has the layout. -/
structure Right (c : Call) (s : Space) (rsp : Nat) : Prop where
  aligned : rsp % 16 = 0
  mapped : ∀ a, rsp ≤ a → a < c.top → ∃ phys, translate s.table a = some phys
  layout : Layout c (view (translate s.table) s.mem) rsp

/-- Each string, copied below `pos` in turn, lies in one piece. -/
def InPieces (r : Nat → Option Nat) : List (List UInt8) → Nat → Prop
  | [], _ => True
  | str :: rest, pos =>
    OnePiece r (pos - (str.length + 1)) (str.length + 1) ∧
      InPieces r rest (pos - (str.length + 1))

/-! ## The writes -/

variable {v v' m : Store} {lo hi a : Nat}

lemma Words.append {xs ys : List Nat} :
    Words v a (xs ++ ys) ↔ Words v a xs ∧ Words v (a + 8 * xs.length) ys := by
  induction xs generalizing a with
  | nil => simp [Words]
  | cons x xs ih =>
    rw [cons_append, Words, Words, ih, and_assoc, length_cons,
      show a + 8 + 8 * xs.length = a + 8 * (xs.length + 1) by omega]

lemma Words.congr {ws : List Nat} (words : Words v a ws)
    (same : ∀ i, a ≤ i → i < a + 8 * ws.length → v' i = v i) : Words v' a ws := by
  induction ws generalizing a with
  | nil => trivial
  | cons w ws ih =>
    rw [length_cons] at same
    refine ⟨(leRead_congr fun i low high => same i low (by omega)).trans words.1, ?_⟩
    exact ih words.2 fun i low high => same i (by omega) (by omega)

lemma StringAt.congr {rsp top p : Nat} {str : List UInt8} (here : StringAt v a top p str)
    (lower : rsp ≤ a) (same : ∀ i, a ≤ i → i < top → v' i = v i) :
    StringAt v' rsp top p str := by
  obtain ⟨low, high, bytes⟩ := here
  refine ⟨lower.trans low, high, fun i small => ?_⟩
  rw [same _ (by omega) (by omega), bytes i small]

def Only (lo hi first last : Nat) (v v' : Store) : Prop :=
  ∀ a, lo ≤ a → a < hi → a < first ∨ last ≤ a → v' a = v a

section

variable {r : Nat → Option Nat} (apart : Apart r lo hi)
include apart

lemma pokeWords_spec (ws : List Nat) (va : Nat) (aligned : va % 8 = 0) (low : lo ≤ va)
    (high : va + 8 * ws.length ≤ hi) :
    ∃ m', pokeWords r va ws m = some m' ∧ Words (view r m') va ws ∧
      Only lo hi va (va + 8 * ws.length) (view r m) (view r m') := by
  induction ws generalizing va m with
  | nil => exact ⟨m, rfl, trivial, fun _ _ _ _ => rfl⟩
  | cons w ws ih =>
    rw [length_cons] at high ⊢
    obtain ⟨phys, is⟩ := apart.mapped low (by omega)
    have poked {a : Nat} (lowA : lo ≤ a) (highA : a < hi) :
        view r (leWrite m phys 8 w) a = leWrite (view r m) va 8 w a :=
      view_blit m (fun i => UInt8.ofNat (w / 256 ^ i)) apart (apart.words aligned) is low
        (by omega) lowA highA
    obtain ⟨m', rest, words, only⟩ := ih (va + 8) (by omega) (by omega)
      (by omega)
    refine ⟨m', by rw [pokeWords, poke64, is]; exact rest, ⟨?_, words⟩, fun a lowA highA out => ?_⟩
    · refine (leRead_congr fun i lowI highI => ?_).trans (leRead_leWrite_same (view r m) va 8 w)
      rw [only i (by omega) (by omega) (by omega), poked (by omega) (by omega)]
    · rw [only a lowA highA (by omega), poked lowA highA, leWrite_outside (by omega)]

lemma pushGroups_spec (groups : List (List Nat)) (pos : Nat) (aligned : pos % 8 = 0)
    (low : lo + 8 * groups.flatten.length ≤ pos) (high : pos ≤ hi) :
    ∃ m', pushGroups r groups pos m = some (pos - 8 * groups.flatten.length, m') ∧
      Words (view r m') (pos - 8 * groups.flatten.length) groups.reverse.flatten ∧
      Only lo hi (pos - 8 * groups.flatten.length) pos (view r m) (view r m') := by
  induction groups generalizing pos m with
  | nil => exact ⟨m, rfl, trivial, fun _ _ _ _ => rfl⟩
  | cons g rest ih =>
    rw [flatten_cons, length_append] at low ⊢
    obtain ⟨m₁, poked, words, only⟩ := pokeWords_spec apart g (pos - 8 * g.length)
      (by omega) (by omega) (by omega)
    obtain ⟨m₂, pushed, words', only'⟩ := ih (pos - 8 * g.length) (by omega) (by omega)
      (by omega)
    rw [show pos - 8 * g.length - 8 * rest.flatten.length =
      pos - 8 * (g.length + rest.flatten.length) by omega] at pushed words' only'
    refine ⟨m₂, by rw [pushGroups, poked]; exact pushed, ?_, fun a lowA highA out => ?_⟩
    · have length : rest.reverse.flatten.length = rest.flatten.length := by
        simp only [length_flatten, map_reverse, sum_reverse]
      rw [reverse_cons, flatten_append, Words.append, length, flatten_cons, flatten_nil, append_nil,
        show pos - 8 * (g.length + rest.flatten.length) + 8 * rest.flatten.length =
          pos - 8 * g.length by omega]
      exact ⟨words', words.congr fun i lowI highI => only' i (by omega) (by omega) (by omega)⟩
    · rw [only' a lowA highA (by omega), only a lowA highA (by omega)]

lemma copyStrings_spec {strs : List (List UInt8)} (pos : Nat)
    (low : lo + stringsSize strs ≤ pos) (high : pos ≤ hi)
    (pieces : InPieces r strs pos) :
    ∃ ptrs m', copyStrings r strs pos m = some (ptrs, pos - stringsSize strs, m') ∧
      Only lo hi (pos - stringsSize strs) pos (view r m) (view r m') ∧
      Forall₂ (StringAt (view r m') (pos - stringsSize strs) pos) ptrs strs := by
  induction strs generalizing pos m with
  | nil => exact ⟨[], m, rfl, fun _ _ _ _ => rfl, .nil⟩
  | cons str rest ih =>
    have size : stringsSize (str :: rest) = str.length + 1 + stringsSize rest := rfl
    rw [size] at low ⊢
    obtain ⟨piece, pieces⟩ := pieces
    obtain ⟨phys, is⟩ := apart.mapped (a := pos - (str.length + 1)) (by omega) (by omega)
    have wrote {a : Nat} (lowA : lo ≤ a) (highA : a < hi) :=
      view_blit m (fun i => str.getD i 0) apart piece is (by omega) (by omega) lowA highA
    obtain ⟨ptrs, m', copied, only, strings⟩ :=
      ih (m := blit m phys (str.length + 1) fun i => str.getD i 0) (pos - (str.length + 1))
        (by omega) (by omega) pieces
    rw [Nat.sub_sub] at copied only strings
    refine ⟨(pos - (str.length + 1)) :: ptrs, m', ?_, fun a lowA highA out => ?_, .cons ?_ ?_⟩
    · simp only [copyStrings, is, bind_some, copied, map_some]
    · rw [only a lowA highA (by omega), wrote lowA highA, blit_outside (by omega)]
    · refine ⟨by omega, by omega, fun i small => ?_⟩
      rw [only _ (by omega) (by omega) (by omega), wrote (by omega) (by omega),
        blit_inside (by omega) (by omega), Nat.add_sub_cancel_left]
    · exact strings.imp fun _ _ here => ⟨here.1, by have := here.2.1; omega, here.2.2⟩

end

/-! ## The whole stack -/

variable {c : Call} {s t : Space}

lemma Call.bounds (c : Call) : (c.bottomPage + userStackPages) * pageSize = c.top ∧
    c.bottomPage * pageSize + userStackSize = c.top ∧ c.bottomPage * pageSize % 16 = 0 := by
  unfold bottomPage top aslrRandomizeStack userStackSize userStackPages pageSize
  omega

lemma InPieces.congr {r r' : Nat → Option Nat} {strs : List (List UInt8)} {pos : Nat}
    (pieces : InPieces r strs pos) (room : a + stringsSize strs ≤ pos)
    (same : ∀ x, a ≤ x → x < pos → r' x = r x) : InPieces r' strs pos := by
  induction strs generalizing pos with
  | nil => trivial
  | cons str rest ih =>
    have size : stringsSize (str :: rest) = str.length + 1 + stringsSize rest := rfl
    refine ⟨fun i small => ?_, ih pieces.2 (by omega) fun x low high => same x low (by omega)⟩
    rw [same _ (by omega) (by omega), same _ (by omega) (by omega)]
    exact pieces.1 i small

lemma groups_length (c : Call) (argPtrs envPtrs : List Nat) :
    (c.groups argPtrs envPtrs).flatten.length = argPtrs.length + envPtrs.length + 15 := by
  simp [Call.groups, Call.auxv, Function.comp_def]
  omega

lemma groups_words (c : Call) (argPtrs envPtrs : List Nat) :
    (c.groups argPtrs envPtrs).reverse.flatten =
      [c.argv.length] ++ argPtrs ++ [0] ++ envPtrs ++ [0] ++ c.auxv.reverse.flatten := by
  simp [Call.groups, ← flatMap_def]

/-- Up to `argc` the stack is laid out as it should be, but `argc` may be at an odd multiple
of 8. -/
lemma fillStack_spec {r : Nat → Option Nat} (apart : Apart r (c.bottomPage * pageSize) c.top)
    (fits : c.totalNeeded ≤ userStackSize)
    (pieces : InPieces r (c.envp ++ c.argv) c.top) :
    ∃ pos m', fillStack r c m = some (pos, m') ∧
      Layout c (view r m') pos ∧ c.bottomPage * pageSize + 8 ≤ pos ∧
      pos + 8 * (c.argv.length + c.envp.length + 3) ≤ c.top ∧
      pos % 16 = (c.argv.length + c.envp.length + 1) % 2 * 8 := by
  obtain ⟨-, bottom, aligned⟩ := c.bounds
  unfold Call.totalNeeded at fits
  obtain ⟨ptrs, m₁, copied, only, strings⟩ :=
    copyStrings_spec apart (m := m) c.top (by omega) le_rfl pieces
  have count := strings.length_eq
  rw [length_append] at count
  have length := groups_length c (ptrs.drop c.envp.length) (ptrs.take c.envp.length)
  rw [length_drop, length_take] at length
  obtain ⟨m₂, pushed, words, only'⟩ := pushGroups_spec apart (m := m₁)
    (c.groups (ptrs.drop c.envp.length) (ptrs.take c.envp.length))
    ((c.top - stringsSize (c.envp ++ c.argv)) / 16 * 16) (by omega) (by omega) (by omega)
  refine ⟨_, m₂, by simp only [fillStack, copied, bind_some, pushed],
    ⟨_, _, groups_words c .. ▸ words, ?_, ?_⟩, by omega, by omega, by omega⟩
  · have args := forall₂_drop c.envp.length strings
    rw [drop_left] at args
    exact args.imp fun _ _ here => here.congr (by omega) fun i low high =>
      only' i (by omega) high (by omega)
  · have envs := forall₂_take c.envp.length strings
    rw [take_left] at envs
    exact envs.imp fun _ _ here => here.congr (by omega) fun i low high =>
      only' i (by omega) high (by omega)

lemma Words.at_append {xs ys : List Nat} {w : Nat} (words : Words v a (xs ++ w :: ys)) :
    leRead v (a + 8 * xs.length) 8 = w % 2 ^ 64 :=
  (Words.append.mp words).2.1

/-- A stack pointer one word below a layout points to no layout: the auxiliary vector would begin
with the 0 that ends the environment. -/
lemma Layout.not_below {pos : Nat} (layout : Layout c v pos) (below : 8 ≤ pos)
    (same : ∀ i, pos ≤ i → i < pos + 8 * (c.argv.length + c.envp.length + 3) → v' i = v i) :
    ¬Layout c v' (pos - 8) := by
  rintro ⟨argPtrs', envPtrs', words', args', envs'⟩
  obtain ⟨argPtrs, envPtrs, words, args, envs⟩ := layout
  have lengths := args.length_eq
  have lengths' := args'.length_eq
  have lengthsE := envs.length_eq
  have lengthsE' := envs'.length_eq
  rw [append_assoc, append_assoc _ [0]] at words
  have zero := Words.at_append words
  have three := Words.at_append words'
  simp only [length_append, length_cons, length_nil] at zero three
  rw [show pos - 8 + 8 * (0 + 1 + argPtrs'.length + (0 + 1) + envPtrs'.length + (0 + 1)) =
    pos + 8 * (0 + 1 + argPtrs.length + (0 + 1 + envPtrs.length)) by omega,
    leRead_congr fun i low high => same i (by omega) (by omega), zero] at three
  cases three

lemma setupUserStack_cases {rsp : Nat} (distinct : s.free.Nodup)
    (pieces : InPieces (inTurn s.free c.bottomPage) (c.envp ++ c.argv) c.top)
    (done : setupUserStack c s = some (rsp, t)) :
    ((c.argv.length + c.envp.length) % 2 = 1 ∧ Right c t rsp) ∨
      ((c.argv.length + c.envp.length) % 2 = 0 ∧
        ¬Layout c (view (translate t.table) t.mem) rsp) := by
  obtain ⟨top, bottom, -⟩ := c.bounds
  unfold setupUserStack at done
  split at done
  · cases done
  rename_i fits
  obtain ⟨s₁, mapped, done⟩ := bind_eq_some_iff.mp done
  have apart := mapPages_apart distinct mapped
  rw [top] at apart
  have room : c.bottomPage * pageSize + stringsSize (c.envp ++ c.argv) ≤ c.top := by
    unfold Call.totalNeeded at fits
    omega
  have here := pieces.congr room fun x low high =>
    mapPages_translate mapped low (by omega)
  obtain ⟨pos, m, filled, layout, low, high, parity⟩ :=
    fillStack_spec apart (by omega) here
  split at done
  · rw [filled, bind_some] at done
    obtain ⟨⟨rsp', m'⟩, aligns, same⟩ := map_eq_some_iff.mp done
    cases same
    unfold alignStack at aligns
    split at aligns
    · obtain ⟨m₂, pushed, -, only⟩ := pushGroups_spec apart [[0]] pos (by omega) low
        (by omega)
      rw [pushed] at aligns
      cases aligns
      exact .inr ⟨by omega, layout.not_below (by omega) fun i lowI highI =>
        only i (by omega) (by omega) (by omega)⟩
    · cases aligns
      exact .inl ⟨by omega, by omega, fun a lowA highA => apart.mapped (by omega) highA, layout⟩
  · cases done

/-- For every call that is accepted and whose strings each lie in one piece of physical memory, the
stack is what the program expects if and only if the arguments and environment strings are odd in
number. -/
theorem stack_right_iff {rsp : Nat} (distinct : s.free.Nodup)
    (pieces : InPieces (inTurn s.free c.bottomPage) (c.envp ++ c.argv) c.top)
    (done : setupUserStack c s = some (rsp, t)) :
    Right c t rsp ↔ (c.argv.length + c.envp.length) % 2 = 1 := by
  rcases setupUserStack_cases distinct pieces done with ⟨odd, right⟩ | ⟨even, wrong⟩
  · exact iff_of_true right odd
  · exact iff_of_false (fun right => wrong right.layout) (by omega)

def plainCall (argv : List (List UInt8)) : Call where
  argv := argv
  envp := []
  entry := 0x400000
  phdrAddr := 0x400040
  phnum := 1
  phentsize := 56
  rnd := 0
  maps := fun _ => true
  kmalloc := true

def freshSpace : Space := ⟨fun _ => 0, fun _ => none, range' 256 16⟩

lemma setupUserStack_plainCall (argv : List (List UInt8))
    (runs : (setupUserStack (plainCall argv) freshSpace).isSome) :
    ∃ rsp t, setupUserStack (plainCall argv) freshSpace = some (rsp, t) :=
  ⟨_, _, (some_get runs).symm⟩

/-- A program with the one argument `a`. -/
theorem stack_right_iff_oneArgument : ∃ rsp t,
    setupUserStack (plainCall [[97]]) freshSpace = some (rsp, t) ∧
      Right (plainCall [[97]]) t rsp := by
  obtain ⟨rsp, t, done⟩ := setupUserStack_plainCall [[97]] (by decide +kernel)
  have piece : OnePiece (inTurn freshSpace.free (plainCall [[97]]).bottomPage)
      ((plainCall [[97]]).top - 2) 2 := by
    unfold OnePiece
    decide +kernel
  exact ⟨rsp, t, done, (stack_right_iff (c := plainCall [[97]])
    nodup_range' ⟨piece, trivial⟩ done).mpr rfl⟩

/-- Without arguments and environment, the stack pointer points below `argc`. -/
theorem stack_points_below_argc : ∃ rsp t,
    setupUserStack (plainCall []) freshSpace = some (rsp, t) ∧ ¬Right (plainCall []) t rsp := by
  obtain ⟨rsp, t, done⟩ := setupUserStack_plainCall [] (by decide +kernel)
  refine ⟨rsp, t, done, fun right => ?_⟩
  rcases setupUserStack_cases (c := plainCall []) nodup_range' trivial done
    with ⟨odd, _⟩ | ⟨_, wrong⟩
  · cases odd
  · exact wrong right.layout

end AuroraOS.Elf
