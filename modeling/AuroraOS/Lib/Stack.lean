import AuroraOS.Lib.Bytes

/-!
# A stack in memory

Registers of 64 bits, one of them the pointer of a stack that grows downwards, over a byte store:
the last register pushed stands lowest.
-/

namespace AuroraOS.Lib

open List Function

def word (m : Store) (a : Nat) : BitVec 64 := BitVec.ofNat 64 (leRead m a 8)

def setWord (m : Store) (a : Nat) (w : BitVec 64) : Store := leWrite m a 8 w.toNat

section Words

variable {m m' : Store} {a b x : Nat} {w : BitVec 64}

lemma word_congr (same : ∀ i, a ≤ i → i < a + 8 → m' i = m i) : word m' a = word m a := by
  rw [word, word, leRead_congr same]

lemma word_setWord_same : word (setWord m a w) a = w := by
  rw [word, setWord, leRead_leWrite_same]
  apply BitVec.eq_of_toNat_eq
  simp only [BitVec.toNat_ofNat]
  omega

lemma setWord_outside (out : x < a ∨ a + 8 ≤ x) : setWord m a w x = m x := leWrite_outside out

lemma word_setWord_apart (apart : b + 8 ≤ a ∨ a + 8 ≤ b) : word (setWord m a w) b = word m b :=
  word_congr fun i low high => setWord_outside (by omega)

/-- Words stored one behind the other. -/
def setWords (m : Store) (a : Nat) : List (BitVec 64) → Store
  | [] => m
  | w :: ws => setWords (setWord m a w) (a + 8) ws

lemma setWords_outside {ws : List (BitVec 64)} (out : x < a ∨ a + 8 * ws.length ≤ x) :
    setWords m a ws x = m x := by
  induction ws generalizing m a with
  | nil => rfl
  | cons w ws ih =>
    rw [length_cons] at out
    rw [setWords, ih (by omega)]
    exact setWord_outside (by omega)

lemma word_setWords (ws : List (BitVec 64)) {i : Nat} (inside : i < ws.length) :
    word (setWords m a ws) (a + 8 * i) = ws[i] := by
  induction ws generalizing m a i with
  | nil => cases inside
  | cons w ws ih =>
    rw [setWords]
    cases i with
    | zero =>
      rw [word_congr fun x low high => setWords_outside (by omega)]
      exact word_setWord_same
    | succ i =>
      rw [show a + 8 * (i + 1) = a + 8 + 8 * i by omega]
      exact ih (Nat.lt_of_succ_lt_succ inside)

end Words

structure StackState (R : Type) where
  regs : R → BitVec 64
  mem : Store

namespace StackState

variable {R : Type} [DecidableEq R]

def push (sp : R) (w : BitVec 64) (s : StackState R) : StackState R where
  regs := update s.regs sp (s.regs sp - 8)
  mem := setWord s.mem (s.regs sp - 8).toNat w

def top (sp : R) (s : StackState R) : BitVec 64 := word s.mem (s.regs sp).toNat

def drop (sp : R) (s : StackState R) : StackState R :=
  { s with regs := update s.regs sp (s.regs sp + 8) }

def pushReg (sp r : R) (s : StackState R) : StackState R := s.push sp (s.regs r)

def popReg (sp r : R) (s : StackState R) : StackState R :=
  let s' := s.drop sp
  { s' with regs := update s'.regs r (s.top sp) }

def pushAll (sp : R) (rs : List R) (s : StackState R) : StackState R :=
  rs.foldl (fun s r => s.pushReg sp r) s

def popAll (sp : R) (rs : List R) (s : StackState R) : StackState R :=
  rs.foldl (fun s r => s.popReg sp r) s

variable {sp : R} {rs : List R} {s : StackState R}

lemma toNat_sub_eight {p : BitVec 64} (room : 8 ≤ p.toNat) : (p - 8).toNat = p.toNat - 8 := by
  rw [BitVec.toNat_sub, show (8 : BitVec 64).toNat = 8 from rfl]
  omega

lemma toNat_add_eight {p : BitVec 64} (room : p.toNat + 8 < 2 ^ 64) :
    (p + 8).toNat = p.toNat + 8 := by
  rw [BitVec.toNat_add, show (8 : BitVec 64).toNat = 8 from rfl]
  omega

/-- What `t` is after the registers `rs` have been pushed. -/
structure Pushed (sp : R) (rs : List R) (s t : StackState R) : Prop where
  pointer : (t.regs sp).toNat = (s.regs sp).toNat - 8 * rs.length
  others : ∀ r, r ≠ sp → t.regs r = s.regs r
  outside : ∀ x, x < (s.regs sp).toNat - 8 * rs.length ∨ (s.regs sp).toNat ≤ x → t.mem x = s.mem x
  words : ∀ i (h : i < rs.length), word t.mem ((s.regs sp).toNat - 8 * (i + 1)) = s.regs rs[i]

lemma pushAll_spec (sp : R) (rs : List R) (other : sp ∉ rs)
    (room : 8 * rs.length ≤ (s.regs sp).toNat) :
    Pushed sp rs s (s.pushAll sp rs) := by
  induction rs generalizing s with
  | nil => exact ⟨by simp [pushAll], fun _ _ => rfl, fun _ _ => rfl, fun i h => by cases h⟩
  | cons r rs ih =>
    have notRs : sp ∉ rs := fun mem => other (mem_cons_of_mem r mem)
    rw [length_cons] at room
    have down := toNat_sub_eight (p := s.regs sp) (by omega)
    have here : ((s.pushReg sp r).regs sp).toNat = (s.regs sp).toNat - 8 := by
      rw [← down]
      simp [pushReg, push]
    have rest := ih (s := s.pushReg sp r) notRs (by omega)
    refine ⟨?_, ?_, ?_, ?_⟩
    · refine rest.pointer.trans ?_
      rw [here, length_cons]
      omega
    · intro q different
      refine (rest.others q different).trans ?_
      simp [pushReg, push, different]
    · intro x out
      rw [length_cons] at out
      refine (rest.outside x (by omega)).trans ?_
      apply setWord_outside
      omega
    · intro i inside
      cases i with
      | zero =>
        -- the word pushed first is above all that follow
        have kept : word ((s.pushReg sp r).pushAll sp rs).mem ((s.regs sp).toNat - 8) =
            word (s.pushReg sp r).mem ((s.regs sp).toNat - 8) :=
          word_congr fun x low high => rest.outside x (by omega)
        refine kept.trans ?_
        rw [← down]
        exact word_setWord_same
      | succ i =>
        have within : i < rs.length := Nat.lt_of_succ_lt_succ inside
        have below := rest.words i within
        rw [here] at below
        have place : (s.regs sp).toNat - 8 * (i + 1 + 1) =
            (s.regs sp).toNat - 8 - 8 * (i + 1) := by omega
        rw [place]
        refine below.trans ?_
        have different : rs[i] ≠ sp := fun same => notRs (same ▸ getElem_mem within)
        simp [pushReg, push, different]

/-- What `t` is after the registers `rs` have been popped. -/
structure Popped (sp : R) (rs : List R) (s t : StackState R) : Prop where
  pointer : (t.regs sp).toNat = (s.regs sp).toNat + 8 * rs.length
  others : ∀ r, r ≠ sp → r ∉ rs → t.regs r = s.regs r
  mem : t.mem = s.mem
  words : ∀ i (h : i < rs.length), t.regs rs[i] = word s.mem ((s.regs sp).toNat + 8 * i)

lemma popAll_spec (sp : R) (rs : List R) (other : sp ∉ rs) (distinct : rs.Nodup)
    (room : (s.regs sp).toNat + 8 * rs.length < 2 ^ 64) : Popped sp rs s (s.popAll sp rs) := by
  induction rs generalizing s with
  | nil => exact ⟨by simp [popAll], fun _ _ _ => rfl, rfl, fun i h => by cases h⟩
  | cons r rs ih =>
    have notRs : sp ∉ rs := fun mem => other (mem_cons_of_mem r mem)
    have notR : sp ≠ r := fun same => other (same ▸ mem_cons_self)
    obtain ⟨fresh, distinct⟩ := nodup_cons.mp distinct
    rw [length_cons] at room
    have up := toNat_add_eight (p := s.regs sp) (by omega)
    have here : ((s.popReg sp r).regs sp).toNat = (s.regs sp).toNat + 8 := by
      rw [← up]
      simp [popReg, drop, notR]
    have rest := ih (s := s.popReg sp r) notRs distinct (by omega)
    constructor
    · apply rest.pointer.trans
      rw [here, length_cons]
      omega
    · intro q notSp absent
      rw [mem_cons, not_or] at absent
      apply (rest.others q notSp absent.2).trans
      simp [popReg, drop, absent.1, notSp]
    · exact rest.mem
    · intro i inside
      cases i with
      | zero =>
        apply (rest.others r notR.symm fresh).trans
        simp [popReg, top]
      | succ i =>
        apply (rest.words i (Nat.lt_of_succ_lt_succ inside)).trans
        rw [here, show (s.regs sp).toNat + 8 + 8 * i = (s.regs sp).toNat + 8 * (i + 1) by omega]
        rfl

end StackState

end AuroraOS.Lib
