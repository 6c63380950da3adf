import AuroraOS.Lib.Checked

/-!
# Host names and DNS responses

The labels that `dns_encode_name` writes, and the loop of `dns_query` over a response that has
arrived.
-/

namespace AuroraOS.Net

open Lib List

/-! ## Encoding a host name -/

def dot : UInt8 := 0x2E

/-- What is written for the characters from `p` on. -/
def dnsEncodeName (p : List UInt8) : List UInt8 :=
  if p = [] then [0]
  else
    let segment := p.takeWhile (· ≠ dot)
    let segLen := if segment.length > 63 then 63 else segment.length
    -- at the end of the name there is no dot to step over, and nothing to drop
    UInt8.ofNat segLen :: segment.take segLen ++ dnsEncodeName (p.drop (segment.length + 1))
termination_by p.length
decreasing_by
  rw [length_drop]
  have := length_pos_of_ne_nil ‹p ≠ []›
  omega

def decodeLabels : List UInt8 → List (List UInt8)
  | [] => []
  | n :: rest => if n = 0 then [] else rest.take n.toNat :: decodeLabels (rest.drop n.toNat)
termination_by out => out.length
decreasing_by
  simp only [length_drop, length_cons]
  omega

lemma dnsEncodeName_nil : dnsEncodeName [] = [0] := by
  rw [dnsEncodeName, if_pos rfl]

lemma length_dnsEncodeName (p : List UInt8) :
    (dnsEncodeName p).length ≤ p.length + if p = [] then 1 else 2 := by
  fun_induction dnsEncodeName p with
  | case1 => simp
  | case2 p more segment segLen ih =>
    have within : segment.length ≤ p.length :=
      (takeWhile_sublist _).length_le
    have cut : segLen ≤ segment.length := by
      simp only [segLen]
      split <;> omega
    rw [if_neg more, length_append, length_cons, length_take, min_eq_left cut]
    by_cases last : p.drop (segment.length + 1) = []
    · rw [last, dnsEncodeName_nil, length_singleton]
      omega
    · have := length_pos_of_ne_nil last
      rw [if_neg last] at ih
      rw [length_drop] at this ih
      omega

structure Label where
  bytes : List UInt8
  nonempty : bytes ≠ []
  short : bytes.length ≤ 63
  plain : dot ∉ bytes

lemma dnsEncodeName_label (l : Label) {tail : List UInt8} (ends : ∀ c ∈ tail.head?, c = dot) :
    dnsEncodeName (l.bytes ++ tail) =
      UInt8.ofNat l.bytes.length :: l.bytes ++ dnsEncodeName (tail.drop 1) := by
  have segment : (l.bytes ++ tail).takeWhile (· ≠ dot) = l.bytes := by
    rw [takeWhile_append_of_pos fun c mem => decide_eq_true (ne_of_mem_of_not_mem mem l.plain)]
    cases tail with
    | nil => rw [takeWhile_nil, append_nil]
    | cons c rest => rw [ends c rfl, takeWhile_cons_of_neg (by simp), append_nil]
  rw [dnsEncodeName, if_neg (append_ne_nil_of_left_ne_nil l.nonempty _)]
  dsimp only
  rw [segment, if_neg (Nat.not_lt.mpr l.short), take_length, ← drop_drop, drop_left]

lemma decodeLabels_label (l : Label) (rest : List UInt8) :
    decodeLabels (UInt8.ofNat l.bytes.length :: l.bytes ++ rest) =
      l.bytes :: decodeLabels rest := by
  have size : (UInt8.ofNat l.bytes.length).toNat = l.bytes.length :=
    UInt8.toNat_ofNat_of_lt (Nat.lt_of_le_of_lt l.short (by decide))
  have some : UInt8.ofNat l.bytes.length ≠ 0 := by
    intro zero
    rw [zero] at size
    exact l.nonempty (length_eq_zero_iff.mp size.symm)
  rw [cons_append, decodeLabels, if_neg some, size, take_left, drop_left]

def Label.hostname (labels : List Label) : List UInt8 := [dot].intercalate (labels.map bytes)

lemma decodeLabels_dnsEncodeName (labels : List Label) :
    decodeLabels (dnsEncodeName (Label.hostname labels)) = labels.map Label.bytes := by
  induction labels with
  | nil =>
    rw [show Label.hostname [] = [] from rfl, dnsEncodeName_nil, decodeLabels, if_pos rfl]
    rfl
  | cons l labels ih =>
    -- the last label has no dot behind it
    obtain ⟨tail, name, ends, next⟩ : ∃ tail, Label.hostname (l :: labels) = l.bytes ++ tail ∧
        (∀ c ∈ tail.head?, c = dot) ∧ tail.drop 1 = Label.hostname labels := by
      cases labels with
      | nil => exact ⟨[], by simp [Label.hostname, intercalate], nofun, rfl⟩
      | cons next labels =>
        exact ⟨dot :: Label.hostname (next :: labels), by simp [Label.hostname, intercalate],
          by simp, rfl⟩
    rw [name, dnsEncodeName_label l ends, decodeLabels_label, next, ih, map_cons]

/-! ## Reading a response -/

/-- Step from label to label, until `stop` says where to go on or the response ends. -/
def skipLabels (rx : List UInt8) (stop : Nat → UInt8 → Option Nat) (pos : Nat) : Checked Nat :=
  if pos < rx.length then do
    let b ← load rx pos
    match stop pos b with
    | some pos => return pos
    | none => skipLabels rx stop (pos + 1 + b.toNat)
  else return pos
termination_by rx.length - pos

def skipQuestion (rx : List UInt8) : Nat → Checked Nat :=
  skipLabels rx fun pos b =>
    if b = 0 then some pos else if b &&& 0xC0 = 0xC0 then some (pos + 2) else none

/-- Skip the name of an answer, if it ends inside the response. -/
def skipName (rx : List UInt8) (pos : Nat) : Checked (Option Nat) := do
  let b ← load rx pos
  if b &&& 0xC0 = 0xC0 then return some (pos + 2)
  else
    let pos ← skipLabels rx (fun pos b =>
      if b = 0 ∨ pos + 1 + b.toNat > rx.length then some pos else none) pos
    return if pos ≥ rx.length then none else some (pos + 1)

/-- The loop over the answers, `left` of which may still come. -/
def answers (rx : List UInt8) : Nat → Nat → Checked (Option (List UInt8))
  | 0, _ => return none
  | left + 1, pos =>
    if pos + 10 ≤ rx.length then do
      match ← skipName rx pos with
      | none => return none
      | some pos =>
        if pos + 10 > rx.length then return none
        else
          let rtype ← loadBe rx pos 2
          let rclass ← loadBe rx (pos + 2) 2
          let rdlen ← loadBe rx (pos + 8) 2
          let pos := pos + 10
          if rtype = 1 ∧ rclass = 1 ∧ rdlen = 4 ∧ pos + 4 ≤ rx.length then
            return some (← loadRange rx pos 4)
          else if pos + rdlen > rx.length then return none
          else answers rx left (pos + rdlen)
    else return none

/-- What becomes of a response: `dns_query` waits for another one, fails or has the address. -/
inductive Reply
  | ignored
  | failed
  | address (ip : List UInt8)

def parseResponse (rx : List UInt8) : Checked Reply :=
  if rx.length < 12 then return .ignored
  else do
    let id ← loadBe rx 0 2
    if id ≠ 1 then return .ignored
    else
      let qdcount ← loadBe rx 4 2
      if qdcount ≠ 1 then return .ignored
      else
        let ancount ← loadBe rx 6 2
        if ancount = 0 then return .failed
        else
          let pos ← skipQuestion rx 12
          match ← answers rx (min ancount 32) (pos + 5) with
          | some ip => return .address ip
          | none => return .ignored

variable {rx : List UInt8}

lemma skipLabels_ensures (stop : Nat → UInt8 → Option Nat) (pos : Nat) :
    Ensures (skipLabels rx stop pos) fun _ => True := by
  induction left : rx.length - pos using Nat.strong_induction_on generalizing pos with
  | _ left ih =>
    rw [skipLabels]
    refine .ite (fun inside => ?_) fun _ => .ok trivial
    refine (load_ensures inside).bind fun b _ => ?_
    cases stop pos b with
    | some pos => exact .ok trivial
    | none => exact ih _ (by omega) _ rfl

lemma skipName_ensures {pos : Nat} (inside : pos < rx.length) :
    Ensures (skipName rx pos) fun _ => True := by
  refine (load_ensures inside).bind fun b _ => .ite (fun _ => .ok trivial) fun _ => ?_
  exact (skipLabels_ensures _ pos).bind fun _ _ => .ok trivial

lemma answers_ensures (left pos : Nat) : Ensures (answers rx left pos) fun _ => True := by
  induction left generalizing pos with
  | zero => exact .ok trivial
  | succ left ih =>
    refine .ite (fun inside => ?_) fun _ => .ok trivial
    refine (skipName_ensures (by omega)).bind fun name _ => ?_
    cases name with
    | none => exact .ok trivial
    | some pos =>
      refine .ite (fun _ => .ok trivial) fun fits => ?_
      refine (loadBe_ensures (by omega)).bind fun rtype _ => ?_
      refine (loadBe_ensures (by omega)).bind fun rclass _ => ?_
      refine (loadBe_ensures (by omega)).bind fun rdlen _ => ?_
      refine .ite (fun found => ?_) fun _ => .ite (fun _ => .ok trivial) fun _ => ih _
      exact (loadRange_ensures found.2.2.2).bind fun _ _ => .ok trivial

lemma parseResponse_ensures (rx : List UInt8) : Ensures (parseResponse rx) fun _ => True := by
  refine .ite (fun _ => .ok trivial) fun long => ?_
  refine (loadBe_ensures (by omega)).bind fun id _ => .ite (fun _ => .ok trivial) fun _ => ?_
  refine (loadBe_ensures (by omega)).bind fun qdcount _ => .ite (fun _ => .ok trivial) fun _ => ?_
  refine (loadBe_ensures (by omega)).bind fun ancount _ => .ite (fun _ => .ok trivial) fun _ => ?_
  refine (skipLabels_ensures _ 12).bind fun pos _ => (answers_ensures _ _).bind fun found _ => ?_
  cases found with
  | none => exact .ok trivial
  | some ip => exact .ok trivial

/-- An encoded name has at most two bytes more than the name, and the labels of a well-formed name
can be read back; a response of any length is parsed to the end without a read outside it. -/
theorem names_and_responses :
    (∀ hostname, (dnsEncodeName hostname).length ≤ hostname.length + 2) ∧
    (∀ labels, decodeLabels (dnsEncodeName (Label.hostname labels)) = labels.map Label.bytes) ∧
    ∀ rx, ∃ reply, parseResponse rx = .ok reply := by
  refine ⟨fun hostname => ?_, decodeLabels_dnsEncodeName, fun rx => ?_⟩
  · refine (length_dnsEncodeName hostname).trans (Nat.add_le_add_left ?_ _)
    split <;> omega
  · obtain ⟨reply, is, -⟩ := parseResponse_ensures rx
    exact ⟨reply, is⟩

end AuroraOS.Net
