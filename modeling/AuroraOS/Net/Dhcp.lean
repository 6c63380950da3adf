import AuroraOS.Lib.Checked

/-!
# DHCP options

Model of `dhcp_build_option` and `dhcp_find_option` of `kernel/net/dhcp.c`.
-/

namespace AuroraOS.Net.Dhcp

open Lib List

def sizeofDhcpHdr : Nat := 240
def dhcpOptEnd : UInt8 := 255

def dhcpBuildOption (type : UInt8) (value : List UInt8) : List UInt8 :=
  type :: UInt8.ofNat value.length :: value

/-- The loop of `dhcp_find_option` from the offset `off` on: the bytes that are copied, `none` for
-1. -/
def findFrom (pkt : List UInt8) (optType : UInt8) (outMax off : Nat) :
    Checked (Option (List UInt8)) :=
  if off < pkt.length then do
    let type ← load pkt off
    if type = dhcpOptEnd then return none
    else if type = 0 then findFrom pkt optType outMax (off + 1)
    else if off + 1 ≥ pkt.length then return none
    else
      let len ← load pkt (off + 1)
      if off + 2 + len.toNat > pkt.length then return none
      else if type = optType then return some (← loadRange pkt (off + 2) (min len.toNat outMax))
      else findFrom pkt optType outMax (off + 2 + len.toNat)
  else return none
termination_by pkt.length - off

def dhcpFindOption (pkt : List UInt8) (optType : UInt8) (outMax : Nat) :
    Checked (Option (List UInt8)) :=
  findFrom pkt optType outMax sizeofDhcpHdr

/-- What may stand in the option area before the end mark. -/
inductive Item
  | padding
  | option (type : UInt8) (value : List UInt8) (low : type ≠ 0) (high : type ≠ dhcpOptEnd)
      (short : value.length < 256)

def Item.bytes : Item → List UInt8
  | .padding => [0]
  | .option type value _ _ _ => dhcpBuildOption type value

def Item.value? (t : UInt8) : Item → Option (List UInt8)
  | .padding => none
  | .option type value _ _ _ => if type = t then some value else none

variable {t : UInt8} {outMax : Nat} {pre rest : List UInt8}

lemma findFrom_padding : findFrom (pre ++ 0 :: rest) t outMax pre.length =
    findFrom ((pre ++ [0]) ++ rest) t outMax (pre ++ [0]).length := by
  rw [findFrom]
  simp [load, bind, Except.bind, dhcpOptEnd]

lemma findFrom_option {type : UInt8} {value : List UInt8} (low : type ≠ 0)
    (high : type ≠ dhcpOptEnd) (short : value.length < 256) :
    findFrom (pre ++ (dhcpBuildOption type value ++ rest)) t outMax pre.length =
      if type = t then .ok (some (value.take outMax))
      else findFrom ((pre ++ dhcpBuildOption type value) ++ rest) t outMax
        (pre ++ dhcpBuildOption type value).length := by
  have len : (UInt8.ofNat value.length).toNat = value.length := UInt8.toNat_ofNat_of_lt' short
  have size : (pre ++ dhcpBuildOption type value).length = pre.length + 2 + value.length := by
    simp only [dhcpBuildOption, length_append, length_cons]
    omega
  have copied : loadRange ((pre ++ dhcpBuildOption type value) ++ rest) (pre.length + 2)
      (min value.length outMax) = .ok (value.take outMax) := by
    have behind : ((pre ++ dhcpBuildOption type value) ++ rest).drop (pre.length + 2) =
        value ++ rest := by
      simp [dhcpBuildOption, ← drop_drop]
    rw [loadRange, if_pos (by rw [length_append, size]; omega), behind,
      take_append_of_le_length (min_le_left _ _), min_comm, ← take_take, take_length]
  have first : load ((pre ++ dhcpBuildOption type value) ++ rest) pre.length = .ok type := by
    simp [load, dhcpBuildOption]
  have second : load ((pre ++ dhcpBuildOption type value) ++ rest) (pre.length + 1) =
      .ok (UInt8.ofNat value.length) := by
    simp [load, dhcpBuildOption]
  rw [← append_assoc, findFrom, if_pos (by rw [length_append, size]; omega), first]
  simp only [bind, Except.bind, if_neg high, if_neg low, second, len, copied, size]
  rw [if_neg (by rw [length_append, size]; omega), if_neg (by rw [length_append, size]; omega)]
  rfl

lemma findFrom_items (items : List Item) :
    findFrom (pre ++ (items.flatMap Item.bytes ++ [dhcpOptEnd])) t outMax pre.length =
      .ok ((items.findSome? (Item.value? t)).map (take outMax)) := by
  induction items generalizing pre with
  | nil =>
    rw [findFrom]
    simp [load, bind, Except.bind, pure, Except.pure]
  | cons item items ih =>
    rw [flatMap_cons, append_assoc]
    cases item with
    | padding =>
      rw [Item.bytes, singleton_append, findFrom_padding, ih]
      rfl
    | option type value low high short =>
      rw [Item.bytes, findFrom_option low high short, findSome?_cons, Item.value?]
      split
      · rfl
      · exact ih

lemma findFrom_ensures (pkt : List UInt8) (t : UInt8) (outMax off : Nat) :
    Ensures (findFrom pkt t outMax off) fun _ => True := by
  induction left : pkt.length - off using Nat.strongRecOn generalizing off with
  | ind left ih =>
    rw [findFrom]
    refine .ite (fun inside => ?_) fun _ => .ok trivial
    refine (load_ensures inside).bind fun type _ => .ite (fun _ => .ok trivial) fun _ => ?_
    refine .ite (fun _ => ih _ (by omega) _ rfl) fun _ => .ite (fun _ => .ok trivial) fun more => ?_
    refine (load_ensures (by omega)).bind fun len _ => .ite (fun _ => .ok trivial) fun fits => ?_
    refine .ite (fun _ => ?_) fun _ => ih _ (by omega) _ rfl
    exact (loadRange_ensures (by omega)).bind fun _ _ => .ok trivial

/-- The first option of a type is found in every packet that is built of options and padding, and
the scan of any packet at all ends without a read outside it. -/
theorem find_option_right :
    (∀ (header : List UInt8) (items : List Item) (t : UInt8) (outMax : Nat),
      header.length = sizeofDhcpHdr →
      dhcpFindOption (header ++ (items.flatMap Item.bytes ++ [dhcpOptEnd])) t outMax =
        .ok ((items.findSome? (Item.value? t)).map (take outMax))) ∧
    ∀ pkt t outMax, ∃ result, dhcpFindOption pkt t outMax = .ok result := by
  constructor
  · intro header items t outMax size
    rw [dhcpFindOption, ← size]
    exact findFrom_items items
  · intro pkt t outMax
    obtain ⟨result, is, -⟩ := findFrom_ensures pkt t outMax sizeofDhcpHdr
    exact ⟨result, is⟩

/-- The option 53 behind a pad byte. -/
theorem find_option_right_padded :
    dhcpFindOption (replicate 240 0 ++ [0, 53, 1, 5, 255]) 53 4 = .ok (some [5]) :=
  find_option_right.1 (replicate 240 0)
    [.padding, .option 53 [5] (by decide) (by decide) (by decide)] 53 4 rfl

end AuroraOS.Net.Dhcp
