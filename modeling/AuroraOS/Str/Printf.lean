import Mathlib.Algebra.Group.Nat.Defs
import Mathlib.Data.List.GetD
import Mathlib.Logic.Function.Basic

/-!
# Formatted printing

Model of `snprintf` of `kernel/string.c`.
-/

namespace AuroraOS.Str

open List Function

/-- The buffer and the position, which may be behind its end. -/
structure Out where
  buf : Nat → Char
  pos : Nat

def snWriteChar (size : Nat) (s : Out) (c : Char) : Out :=
  ⟨if s.pos + 1 < size then update s.buf s.pos c else s.buf, s.pos + 1⟩

def snWriteStr (size : Nat) : Out → List Char → Out := foldl (snWriteChar size)

/-- The digits that `sn_write_uint` stores in `tmp`, which has room for `room` more. -/
def tmpDigits (base : Nat) : Nat → Nat → List Char
  | 0, _ => []
  | room + 1, val =>
    if val > 0 then
      let digit := val % base
      Char.ofNat (if digit < 10 then 0x30 + digit else 0x61 + digit - 10) ::
        tmpDigits base room (val / base)
    else []

def uintText (val base : Nat) : List Char :=
  if val = 0 then ['0'] else (tmpDigits base 20 val).reverse

/-- What is passed for a directive; a string may be `NULL`. -/
inductive Arg
  | int (val : BitVec 32)
  | uint64 (val : BitVec 64)
  | ptr (val : BitVec 64)
  | str (s : Option (List Char))

/-- What is printed for the directive `d`, and the arguments left; `none` for an argument that does
not match. -/
def directive (d : Char) (args : List Arg) : Option (List Char × List Arg) :=
  match d, args with
  | 's', .str s :: args => some (s.getD "(null)".toList, args)
  | 'd', .int val :: args =>
    let v := val.toInt
    some (if v < 0 then '-' :: uintText ((-(v + 1)).toNat + 1) 10 else uintText v.toNat 10, args)
  | 'u', .uint64 val :: args => some (uintText val.toNat 10, args)
  | 'x', .uint64 val :: args => some (uintText val.toNat 16, args)
  | 'p', .ptr val :: args =>
    some (if val = 0 then "(nil)".toList else '0' :: 'x' :: uintText val.toNat 16, args)
  | 'c', .int val :: args => some ([Char.ofNat (val.toNat % 256)], args)
  | d, args =>
    if d = '%' then some (['%'], args)
    else if d ∈ ['s', 'd', 'u', 'x', 'p', 'c'] then none
    else some (['%', d], args)

/-- The loop of `snprintf`: a character that is no `%` is printed, and so is a `%` at the end. -/
def loop (size : Nat) : List Char → List Arg → Out → Option Out
  | [], _, s => some s
  | c :: p, args, s =>
    if s.pos < size then
      match c, p with
      | '%', d :: p => do
        let (text, args) ← directive d args
        loop size p args (snWriteStr size s text)
      | c, p => loop size p args (snWriteChar size s c)
    else some s

/-- `snprintf`: the buffer and the result. -/
def snprintf (buf : Nat → Char) (size : Nat) (fmt : List Char) (args : List Arg) :
    Option ((Nat → Char) × Int) :=
  if size = 0 then some (buf, 0)
  else do
    let s ← loop size fmt args ⟨buf, 0⟩
    let stop := if s.pos < size then s.pos else size - 1
    return (update s.buf stop (Char.ofNat 0), (BitVec.ofNat 32 s.pos).toInt)

/-- The full expansion of a format. -/
def expansion : List Char → List Arg → Option (List Char)
  | [], _ => some []
  | '%' :: d :: p, args => do
    let (text, args) ← directive d args
    (expansion p args).map (text ++ ·)
  | c :: p, args => (expansion p args).map (c :: ·)

variable {size : Nat} {buf : Nat → Char} {s : Out} {out text : List Char}

/-- The characters `out` have been printed to a buffer that held `buf`. -/
structure Printed (size : Nat) (buf : Nat → Char) (out : List Char) (s : Out) : Prop where
  pos : s.pos = out.length
  buf : ∀ i, s.buf i = if i + 1 < size then out.getD i (buf i) else buf i

lemma Printed.writeChar (printed : Printed size buf out s) (c : Char) :
    Printed size buf (out ++ [c]) (snWriteChar size s c) where
  pos := by
    rw [length_append, ← printed.pos]
    rfl
  buf i := by
    have old := printed.buf i
    simp only [snWriteChar, printed.pos]
    rcases Nat.lt_trichotomy i out.length with less | rfl | more
    · rw [getD_append _ _ _ _ less, ← old]
      split
      · exact update_of_ne (Nat.ne_of_lt less) ..
      · rfl
    · split
      · simp
      · exact old.trans (if_neg ‹_›)
    · rw [getD_eq_default out _ (Nat.le_of_lt more)] at old
      rw [getD_eq_default _ _ (by rwa [length_append]), ← old]
      split
      · exact update_of_ne (Nat.ne_of_gt more) ..
      · rfl

lemma Printed.writeStr (printed : Printed size buf out s) (text : List Char) :
    Printed size buf (out ++ text) (snWriteStr size s text) := by
  induction text generalizing out s with
  | nil => rwa [append_nil]
  | cons c text ih =>
    rw [append_cons]
    exact ih (printed.writeChar c)

/-- The loop prints all the rest, or stops behind the end of the buffer. -/
lemma loop_prints (fmt : List Char) {args : List Arg} {rest : List Char}
    (full : expansion fmt args = some rest) (printed : Printed size buf out s) :
    ∃ s' more, loop size fmt args s = some s' ∧ Printed size buf (out ++ more) s' ∧
      more <+: rest ∧ (more.length = rest.length ∨ size ≤ s'.pos) := by
  fun_induction expansion fmt args generalizing rest out s with
  | case1 =>
    cases full
    exact ⟨s, [], rfl, by rwa [append_nil], nil_prefix, .inl rfl⟩
  | case2 d p args ih =>
    obtain ⟨⟨text, args⟩, here, full⟩ := Option.bind_eq_some_iff.mp full
    obtain ⟨rest, tail, rfl⟩ := Option.map_eq_some_iff.mp full
    unfold loop
    split
    case isFalse stop =>
      exact ⟨s, [], rfl, by rwa [append_nil], nil_prefix, .inr (Nat.le_of_not_lt stop)⟩
    case isTrue =>
      obtain ⟨s', more, run, printed, part, all⟩ := ih args tail (printed.writeStr text)
      refine ⟨s', text ++ more, ?_, by rwa [← append_assoc],
        (prefix_append_right_inj text).mpr part, all.imp_left fun same => ?_⟩
      · simp only [here, bind, Option.bind, run]
      · rw [length_append, length_append, same]
  | case3 c p args plain ih =>
    obtain ⟨rest, tail, rfl⟩ := Option.map_eq_some_iff.mp full
    unfold loop
    split
    case isFalse stop =>
      exact ⟨s, [], rfl, by rwa [append_nil], nil_prefix, .inr (Nat.le_of_not_lt stop)⟩
    case isTrue =>
      obtain ⟨s', more, run, printed, part, all⟩ := ih tail (printed.writeChar c)
      refine ⟨s', c :: more, ?_, by rwa [append_cons], cons_prefix_cons.mpr ⟨rfl, part⟩,
        all.imp_left (congrArg (· + 1))⟩
      split
      · exact absurd rfl (plain _ _ rfl)
      · exact run

/-- Exactly the beginning of the full expansion that fits is left in the buffer, with a NUL behind
it, and the result tells whether it was cut. -/
theorem snprintf_truncates {fmt : List Char} {args : List Arg}
    (full : expansion fmt args = some text) (short : text.length < 2 ^ 31) (nonempty : 1 ≤ size) :
    ∃ buf' result, snprintf buf size fmt args = some (buf', result) ∧
      (∀ i ≥ size, buf' i = buf i) ∧
      (∀ i < min text.length (size - 1), some (buf' i) = text[i]?) ∧
      buf' (min text.length (size - 1)) = Char.ofNat 0 ∧
      (text.length < size → result = text.length) ∧ (size ≤ text.length → size ≤ result) := by
  obtain ⟨s, out, run, printed, ⟨tail, rfl⟩, all⟩ :=
    @loop_prints size buf ⟨buf, 0⟩ [] fmt args text full ⟨rfl, by simp⟩
  rw [nil_append] at printed
  have size' : (out ++ tail).length = out.length + tail.length := length_append
  have pos := printed.pos
  have value : (BitVec.ofNat 32 s.pos).toInt = out.length := by
    rw [pos, BitVec.toInt_eq_toNat_of_lt] <;> rw [BitVec.toNat_ofNat] <;> omega
  have stop : (if s.pos < size then s.pos else size - 1) =
      min (out ++ tail).length (size - 1) := by
    split <;> omega
  refine ⟨update s.buf (min (out ++ tail).length (size - 1)) (Char.ofNat 0), out.length, ?_,
    fun i late => ?_, fun i early => ?_, update_self .., by omega, by omega⟩
  · simp only [snprintf, if_neg (Nat.ne_of_gt nonempty), run, ← stop, ← value]
    rfl
  · rw [update_of_ne (by omega), printed.buf, if_neg (by omega)]
  · rw [update_of_ne (by omega), printed.buf, if_pos (by omega), getElem?_append_left (by omega),
      getD_eq_getElem _ _ (by omega), getElem?_eq_getElem]

/-- Three characters for three bytes: the last one is cut. -/
theorem snprintf_truncates_digits : ∃ buf' result,
    snprintf (fun _ => ' ') 3 "%d!".toList [.int 12] = some (buf', result) ∧
      (∀ i ≥ 3, buf' i = ' ') ∧ (∀ i < min 3 (3 - 1), some (buf' i) = "12!".toList[i]?) ∧
      buf' (min 3 (3 - 1)) = Char.ofNat 0 ∧ (3 < 3 → result = (3 : Nat)) ∧
      (3 ≤ 3 → (3 : Nat) ≤ result) :=
  @snprintf_truncates 3 (fun _ => ' ') "12!".toList "%d!".toList [.int 12] (by decide) (by decide)
    (by decide)

end AuroraOS.Str
