import AuroraOS.Fat32.Create
import AuroraOS.Lib.Fuel

/-!
# Looking up a long name after it is created

`fat32_write_lfn` stores the long-name entries with the last characters first, as FAT32 does, and
`fat32_find_entry` collects them in that order, but `fat32_parse_lfn` wants entry `i` of the
collection to have number `i + 1`.  The two agree on names of one entry only.
-/

namespace AuroraOS.Fat32

open Lib Block SbInfo List Option Nat Bool

variable {s s' mid : SbInfo} {cs cs' : List Nat} {d : Nat} {name : Name}

def Printable (name : Name) : Prop := ∀ ch ∈ name, 0x20 ≤ ch ∧ ch ≤ 0x7E

instance (name : Name) : Decidable (Printable name) :=
  decidableBAll (fun ch : UInt8 => 0x20 ≤ ch ∧ ch ≤ 0x7E) name

def NeedsLongName (name : Name) : Prop :=
  shortNameToStr (fun i => (shortName name).getD i 0) ≠ name

/-! ## Reading back one entry -/

lemma leRead_two (lfn : Store) (a : Nat) :
    leRead lfn a 2 = (lfn a).toNat + 256 * (lfn (a + 1)).toNat := by
  simp [leRead]

variable {e j outMax n i : Nat}

lemma lfnEntry_name1 (small : j < 5) :
    leRead (lfnEntry name e) (1 + 2 * j) 2 = (lfnChar name e j).toNat := by
  have low : (1 + 2 * j - 1) / 2 = j := by omega
  simp only [leRead_two, lfnEntry, utf16Byte]
  simp (disch := omega) only [if_pos, if_neg, low]
  rfl

lemma lfnEntry_name2 (small : j < 6) :
    leRead (lfnEntry name e) (14 + 2 * j) 2 = (lfnChar name e (5 + j)).toNat := by
  have low : (14 + 2 * j - 14) / 2 = j := by omega
  simp only [leRead_two, lfnEntry, utf16Byte]
  simp (disch := omega) only [if_pos, if_neg, low]
  rfl

lemma lfnEntry_name3 (small : j < 2) :
    leRead (lfnEntry name e) (28 + 2 * j) 2 = (lfnChar name e (11 + j)).toNat := by
  have low : (28 + 2 * j - 28) / 2 = j := by omega
  simp only [leRead_two, lfnEntry, utf16Byte]
  simp (disch := omega) only [if_pos, if_neg, low]
  rfl

lemma copyChars_eq {lfn : Store} {a p : Nat} {out : Name} (ascii : Printable name)
    (chars : ∀ j, j < n → leRead lfn (a + 2 * j) 2 = (name.getD (p + j) 0).toNat)
    (room : out.length + n < outMax) :
    copyChars outMax lfn a n out = out ++ (name.drop p).take n := by
  induction n generalizing a p out with
  | zero => simp [copyChars]
  | succ n ih =>
    have first := chars 0 (by omega)
    rw [mul_zero, add_zero, add_zero] at first
    rw [copyChars, if_pos (by omega), first]
    by_cases inside : p < name.length
    · have ⟨low, high⟩ := ascii name[p] (getElem_mem inside)
      rw [UInt8.le_iff_toNat_le] at low high
      have lowest : (0x20 : UInt8).toNat = 32 := rfl
      have highest : (0x7E : UInt8).toNat = 126 := rfl
      have char : utf16ToAscii name[p].toNat = name[p] := by
        rw [utf16ToAscii, if_pos (by omega), UInt8.ofNat_toNat]
      rw [getD_eq_getElem?_getD, getElem?_eq_getElem inside, getD_some,
        if_neg (by omega), char, ih (p := p + 1), drop_eq_getElem_cons inside,
        take_succ_cons, append_assoc, singleton_append]
      · intro j small
        have next := chars (j + 1) (by omega)
        rw [show a + 2 + 2 * j = a + 2 * (j + 1) by omega, next, add_right_comm, add_assoc]
      · simp only [length_append, length_singleton]
        omega
    · rw [getD_eq_getElem?_getD, getElem?_eq_none (Nat.le_of_not_lt inside), getD_none, if_pos
        UInt8.toNat_zero, drop_eq_nil_of_le (Nat.le_of_not_lt inside)]
      simp

lemma lfnEntry_order (inside : e < lfnEntries name) (short : lfnEntries name ≤ 20) :
    lfnEntry name e 0 &&& 0x3F = UInt8.ofNat (e + 1) ∧ lfnEntry name e 0 ≠ 0 ∧
      lfnEntry name e 0 ≠ 0xE5 := by
  have plain : ∀ e, e < 20 → UInt8.ofNat (e + 1) &&& 0x3F = UInt8.ofNat (e + 1) ∧
      UInt8.ofNat (e + 1) ≠ 0 ∧ UInt8.ofNat (e + 1) ≠ 0xE5 := by decide
  have last : ∀ e, e < 20 → (UInt8.ofNat (e + 1) ||| lfnLast) &&& 0x3F = UInt8.ofNat (e + 1) ∧
      UInt8.ofNat (e + 1) ||| lfnLast ≠ 0 ∧ UInt8.ofNat (e + 1) ||| lfnLast ≠ 0xE5 := by decide
  rw [lfnEntry, if_pos rfl]
  split
  · exact last e (by omega)
  · exact plain e (by omega)

lemma lfnChar_zero (name : Name) (k : Nat) : lfnChar name 0 k = name.getD k 0 := by
  rw [lfnChar, mul_zero, zero_add]

lemma parseLfn_single (ascii : Printable name) (one : lfnEntries name = 1) :
    parseLfn [lfnEntry name 0] 256 = name := by
  have length : name.length ≤ 13 := by
    unfold lfnEntries at one
    omega
  have order := (lfnEntry_order (show 0 < lfnEntries name by omega) (by omega)).1
  have first : copyChars 256 (lfnEntry name 0) 1 5 [] = name.take 5 := by
    rw [copyChars_eq ascii
      (fun j small => by rw [lfnEntry_name1 small, lfnChar_zero, zero_add]) (by simp)]
    simp
  have second : copyChars 256 (lfnEntry name 0) 14 6 (name.take 5) = name.take 11 := by
    rw [copyChars_eq ascii (fun j small => by rw [lfnEntry_name2 small, lfnChar_zero])
      (by simp only [length_take]; omega), ← take_add]
  have third : copyChars 256 (lfnEntry name 0) 28 2 (name.take 11) = name.take 13 := by
    rw [copyChars_eq ascii (fun j small => by rw [lfnEntry_name3 small, lfnChar_zero])
      (by simp only [length_take]; omega), ← take_add]
  rw [parseLfn, length_singleton, parseEntries]
  simp only [getD_cons_zero]
  rw [if_pos order, parseEntries, first, second, third, getD_some, take_of_length_le length]

lemma parseEntries_order {entries : List Store} {out r : Name}
    (read : parseEntries outMax entries n out = some r) (inside : i < n) :
    (entries.getD i fun _ => 0) 0 &&& 0x3F = UInt8.ofNat (i + 1) := by
  induction n generalizing out with
  | zero => cases inside
  | succ n ih =>
    rw [parseEntries] at read
    split at read
    case isTrue order =>
      rcases lt_or_eq_of_le (le_of_lt_succ inside) with less | last
      · exact ih read less
      · rw [last]
        exact order
    case isFalse => cases read

lemma parseLfn_order {entries : List Store}
    (read : 0 < (parseLfn entries outMax).length) (inside : i < entries.length) :
    (entries.getD i fun _ => 0) 0 &&& 0x3F = UInt8.ofNat (i + 1) := by
  rw [parseLfn] at read
  cases result : parseEntries outMax entries entries.length [] with
  | none =>
    rw [result] at read
    cases read
  | some r => exact parseEntries_order result inside

def lfnRow (name : Name) : List Store :=
  (range (lfnEntries name)).map fun k => lfnEntry name (lfnEntries name - 1 - k)

lemma lfnRow_getElem? (inside : i < lfnEntries name) :
    (lfnRow name)[i]? = some (lfnEntry name (lfnEntries name - 1 - i)) := by
  rw [lfnRow, getElem?_map, getElem?_range inside]
  rfl

variable {lfn : List Store}

/-- The number that an entry of the collection must have, for an entry of the name. -/
lemma parseLfn_lfnRow (inside : i < lfnEntries name)
    (short : lfnEntries name ≤ 20) (fits : lfn.length + i < 20)
    (read : 0 < (parseLfn ((lfn ++ lfnRow name).take 20) 256).length) :
    lfnEntries name - i = lfn.length + i + 1 := by
  have entry : ((lfn ++ lfnRow name).take 20)[lfn.length + i]? =
      some (lfnEntry name (lfnEntries name - 1 - i)) := by
    rw [getElem?_take_of_lt fits, getElem?_append_right (by omega),
      Nat.add_sub_cancel_left, lfnRow_getElem? inside]
  have bound : lfn.length + i < ((lfn ++ lfnRow name).take 20).length :=
    (List.getElem?_eq_some_iff.mp entry).1
  have order := parseLfn_order read bound
  rw [getD_eq_getElem?_getD, entry, getD_some, (lfnEntry_order (by omega) short).1] at order
  have numbers := congrArg UInt8.toNat order
  rw [UInt8.toNat_ofNat', UInt8.toNat_ofNat'] at numbers
  omega

/-- Behind the long-name entries `lfn`, the entries of a name are read back exactly when there is
one of them and `lfn` is empty, or when `lfn` leaves room for at most one of them and the
collection reads as the name. -/
lemma parseLfn_created (ascii : Printable name) (named : 0 < name.length)
    (short : lfnEntries name ≤ 20) (bound : lfn.length ≤ 20) :
    parseLfn ((lfn ++ lfnRow name).take 20) 256 = name ↔
      lfn = [] ∧ name.length ≤ 13 ∨ 19 ≤ lfn.length ∧
        parseLfn ((lfn ++ [lfnEntry name (lfnEntries name - 1)]).take 20) 256 = name := by
  have some : 0 < lfnEntries name := by
    unfold lfnEntries
    omega
  by_cases full : 19 ≤ lfn.length
  · have same : (lfn ++ lfnRow name).take 20 =
        (lfn ++ [lfnEntry name (lfnEntries name - 1)]).take 20 := by
      obtain ⟨n, count⟩ := exists_eq_succ_of_ne_zero (pos_iff_ne_zero.mp some)
      rw [take_append, take_append]
      rw [lfnRow, count, range_succ_eq_map, map_cons]
      rcases eq_or_lt_of_le full with one | none
      · rw [← one]
        rfl
      · rw [show 20 - lfn.length = 0 by omega]
        rfl
    have nonempty : lfn ≠ [] := by
      rintro rfl
      exact absurd full (by decide)
    rw [same]
    exact ⟨fun read => .inr ⟨full, read⟩, fun h => h.elim (fun h => absurd h.1 nonempty) And.right⟩
  · constructor
    · intro read
      have first := parseLfn_lfnRow some short (by omega) (read.symm ▸ named)
      by_cases more : 1 < lfnEntries name
      · have second := parseLfn_lfnRow more short (by omega) (read.symm ▸ named)
        omega
      · refine .inl ⟨eq_nil_of_length_eq_zero (by omega), ?_⟩
        unfold lfnEntries at more
        omega
    · rintro (⟨rfl, length⟩ | ⟨full', _⟩)
      · have one : lfnEntries name = 1 := by
          unfold lfnEntries at some ⊢
          omega
        have row : lfnRow name = [lfnEntry name 0] := by
          rw [lfnRow, one]
          rfl
        rw [row]
        exact parseLfn_single ascii one
      · exact absurd full' full

/-! ## Scanning the new entries -/

/-- The long-name entries the scan keeps when it passes an entry that does not match. -/
def collect (lfn : List Store) (slot : Slot) : List Store :=
  if slot.isFree = false ∧ slot.raw 11 = attrLfn then
    if lfn.length < 20 then lfn ++ [slot.raw] else lfn
  else []

lemma length_collect (lfn : List Store) (bound : lfn.length ≤ 20) (slots : List Slot) :
    (slots.foldl collect lfn).length ≤ 20 := by
  induction slots generalizing lfn with
  | nil => exact bound
  | cons slot slots ih =>
    apply ih
    unfold collect
    split_ifs
    · rw [length_append, length_singleton]
      omega
    · exact bound
    · exact zero_le _

variable {slot : Slot}

lemma Slot.used_iff : slot.isFree = false ↔ slot.raw 0 ≠ 0 ∧ slot.raw 0 ≠ 0xE5 := by
  simp [Slot.isFree]

variable {slots : List Slot}

lemma scanSlots_used (used : ∀ slot ∈ slots, slot.isFree = false) (lfn : List Store) :
    scanSlots name slots lfn = .more (slots.foldl collect lfn) ∨
      ∃ f, scanSlots name slots lfn = .found f := by
  induction slots generalizing lfn with
  | nil => exact .inl rfl
  | cons slot slots ih =>
    have rest := ih fun slot' mem => used slot' (mem_cons_of_mem _ mem)
    have here := used slot mem_cons_self
    have ⟨notEnd, notDeleted⟩ := Slot.used_iff.mp here
    rw [scanSlots, if_neg notEnd, if_neg notDeleted, foldl_cons]
    by_cases long : slot.raw 11 = attrLfn
    · have kept : collect lfn slot = if lfn.length < 20 then lfn ++ [slot.raw] else lfn :=
        if_pos ⟨here, long⟩
      rw [if_pos long, kept]
      exact rest _
    · have dropped : collect lfn slot = [] := if_neg fun both => long both.2
      rw [if_neg long, dropped]
      split
      · exact rest []
      · cases slot.resolve name lfn with
        | some f => exact .inr ⟨f, rfl⟩
        | none => exact rest []

lemma scanSlots_lfn
    (long : ∀ slot ∈ slots, slot.isFree = false ∧ slot.raw 11 = attrLfn) (lfn : List Store)
    (bound : lfn.length ≤ 20) :
    scanSlots name slots lfn = .more ((lfn ++ slots.map Slot.raw).take 20) := by
  induction slots generalizing lfn with
  | nil => rw [map_nil, append_nil, take_of_length_le bound, scanSlots]
  | cons slot slots ih =>
    obtain ⟨used, attr⟩ := long slot mem_cons_self
    obtain ⟨notEnd, notDeleted⟩ := Slot.used_iff.mp used
    have rest := ih fun slot' mem => long slot' (mem_cons_of_mem _ mem)
    rw [scanSlots, if_neg notEnd, if_neg notDeleted, if_pos attr, map_cons]
    split
    case isTrue room =>
      rw [rest _ (by rw [length_append, length_singleton]; omega), append_assoc, singleton_append]
    case isFalse full =>
      rw [rest _ bound, take_append_of_le_length (by omega), take_append_of_le_length (by omega)]

lemma scanSlots_free (post : List Slot)
    (free : ∀ slot ∈ slots, slot.isFree = true) (some : slots ≠ []) (lfn : List Store) :
    (∃ slot ∈ slots, slot.raw 0 = 0) ∨
      scanSlots name (slots ++ post) lfn = scanSlots name post [] := by
  induction slots generalizing lfn with
  | nil => exact absurd rfl some
  | cons slot slots ih =>
    by_cases ends : slot.raw 0 = 0
    · exact .inl ⟨slot, mem_cons_self, ends⟩
    have deleted : slot.raw 0 = 0xE5 := by
      have := free slot mem_cons_self
      simp only [Slot.isFree, or_eq_true, beq_iff_eq] at this
      exact this.resolve_left ends
    rw [cons_append, scanSlots, if_neg ends, if_pos deleted]
    rcases slots with _ | ⟨next, slots⟩
    · exact .inr rfl
    · rcases ih (fun slot' mem => free slot' (mem_cons_of_mem _ mem))
        (cons_ne_nil _ _) [] with ⟨slot', mem, ends'⟩ | passed
      · exact .inl ⟨slot', mem_cons_of_mem _ mem, ends'⟩
      · exact .inr passed

lemma scanSlots_ended (ended : ∀ slot ∈ slots, slot.raw 0 = 0) (f : Found)
    (lfn : List Store) : scanSlots name slots lfn ≠ .found f := by
  intro found
  rcases slots with _ | ⟨slot, slots⟩
  · cases found
  · rw [scanSlots, if_pos (ended slot mem_cons_self)] at found
    cases found

lemma resolve_name {f : Found} (resolved : slot.resolve name lfn = some f) : f.name = name := by
  rw [Slot.resolve] at resolved
  split at resolved
  case isTrue long =>
    cases resolved
    exact long.2
  case isFalse =>
    split at resolved
    case isTrue short =>
      cases resolved
      exact short
    case isFalse => cases resolved

lemma scanSlots_name {f : Found}
    (found : scanSlots name slots lfn = .found f) : f.name = name := by
  induction slots generalizing lfn with
  | nil => cases found
  | cons slot slots ih =>
    rw [scanSlots] at found
    split_ifs at found
    · exact ih found
    · exact ih found
    · exact ih found
    · exact ih found
    · cases resolved : slot.resolve name lfn with
      | some g =>
        rw [resolved] at found
        cases found
        exact resolve_name resolved
      | none =>
        rw [resolved] at found
        exact ih found

lemma longName_eq (lfn : List Store) : longName lfn = parseLfn lfn 256 := by
  rcases lfn with _ | ⟨entry, lfn⟩
  · rfl
  · exact if_pos (succ_pos _)

/-- An 8.3 entry whose own name does not match is found through the long-name entries. -/
lemma resolve_long (named : 0 < name.length) (differs : shortNameToStr slot.raw ≠ name) :
    (∃ f, slot.resolve name lfn = some f) ↔ parseLfn lfn 256 = name := by
  rw [Slot.resolve, if_neg differs, longName_eq]
  by_cases same : parseLfn lfn 256 = name
  · rw [same, if_pos ⟨named, rfl⟩]
    exact ⟨fun _ => rfl, fun _ => ⟨_, rfl⟩⟩
  rw [if_neg fun both => same both.2]
  constructor
  · rintro ⟨f, none⟩
    cases none
  · intro read
    exact absurd read same

/-- The scan of a row in which the entries of a name replace free ones. -/
lemma scanSlots_created {pre old lfns post : List Slot} {short : Slot} (named : 0 < name.length)
    (used : ∀ slot ∈ pre, slot.isFree = false)
    (free : ∀ slot ∈ old, slot.isFree = true) (some : old ≠ [])
    (ended : ∀ slot ∈ old, slot.raw 0 = 0 → ∀ later ∈ post, later.raw 0 = 0)
    (absent : ∀ f, scanSlots name (pre ++ (old ++ post)) [] ≠ .found f)
    (long : ∀ slot ∈ lfns, slot.isFree = false ∧ slot.raw 11 = attrLfn)
    (plain : short.isFree = false ∧ short.raw 11 = attrArchive)
    (differs : shortNameToStr short.raw ≠ name) :
    (∃ f, scanSlots name (pre ++ (lfns ++ short :: post)) [] = .found f) ↔
      parseLfn ((pre.foldl collect [] ++ lfns.map Slot.raw).take 20) 256 = name := by
  have passed : scanSlots name pre [] = .more (pre.foldl collect []) := by
    rcases scanSlots_used used [] with more | ⟨f, found⟩
    · exact more
    · exact absurd (by rw [scanSlots_append, found]) (absent f)
  have behind : ∀ f, scanSlots name post [] ≠ .found f := by
    intro f found
    rcases scanSlots_free post free some (pre.foldl collect []) with
      ⟨slot, mem, ends⟩ | same
    · exact scanSlots_ended (ended slot mem ends) f [] found
    · apply absent f
      rw [scanSlots_append, passed]
      exact same.trans found
  obtain ⟨notEnd, notDeleted⟩ := Slot.used_iff.mp plain.1
  rw [scanSlots_append, passed]
  simp only
  rw [scanSlots_append, scanSlots_lfn long _ (length_collect [] (zero_le _) pre)]
  simp only
  rw [scanSlots, if_neg notEnd, if_neg notDeleted, plain.2, if_neg (by decide), if_neg (by decide),
    ← resolve_long named differs]
  cases short.resolve name ((pre.foldl collect [] ++ lfns.map Slot.raw).take 20) with
  | some f => exact ⟨fun _ => ⟨f, rfl⟩, fun _ => ⟨f, rfl⟩⟩
  | none =>
    constructor
    · rintro ⟨f, found⟩
      exact absurd found (behind f)
    · rintro ⟨f, found⟩
      cases found

/-! ## The new 8.3 entry -/

lemma toUpper_printable {ch : UInt8} (printable : 0x20 ≤ ch ∧ ch ≤ 0x7E) :
    0x20 ≤ toUpper ch ∧ toUpper ch ≤ 0x7E := by
  unfold toUpper
  split
  case isTrue small =>
    obtain ⟨low, high⟩ := small
    have low' : 97 ≤ ch.toNat := UInt8.le_iff_toNat_le.mp low
    have high' : ch.toNat ≤ 122 := UInt8.le_iff_toNat_le.mp high
    have shifted : (ch - 0x20).toNat = ch.toNat - 32 :=
      UInt8.toNat_sub_of_le _ _ printable.1
    rw [UInt8.le_iff_toNat_le, UInt8.le_iff_toNat_le, shifted]
    exact ⟨show 32 ≤ ch.toNat - 32 by omega, show ch.toNat - 32 ≤ 126 by omega⟩
  case isFalse => exact printable

lemma padded_printable {cs : List UInt8} (printable : Printable cs) :
    Printable (padded n cs) := by
  intro ch mem
  rcases mem_append.mp mem with upper | blank
  · obtain ⟨c, inside, rfl⟩ := mem_map.mp upper
    exact toUpper_printable (printable c inside)
  · rw [eq_of_mem_replicate blank]
    decide

lemma shortName_printable (ascii : Printable name) : Printable (shortName name) := by
  have part : ∀ cs : List UInt8, cs ⊆ name → Printable cs :=
    fun cs inside ch mem => ascii ch (inside mem)
  have join : ∀ {xs ys : List UInt8}, Printable xs → Printable ys → Printable (xs ++ ys) := by
    intro xs ys left right ch mem
    exact (mem_append.mp mem).elim (left ch) (right ch)
  have fallback : Printable (fallbackName name) := by
    have base : Printable (((name.takeWhile (· != dot)).take 6).map toUpper) := by
      intro ch mem
      obtain ⟨c, inside, rfl⟩ := mem_map.mp mem
      exact toUpper_printable (ascii c (takeWhile_subset _ (mem_of_mem_take inside)))
    apply join (join (join base _) _)
    · decide
    · decide
    · intro ch mem
      rw [eq_of_mem_replicate mem]
      decide
  unfold shortName strToShortName
  split_ifs
  · exact fallback
  · exact fallback
  · exact join (padded_printable (part _ (take_subset _ _)))
      (padded_printable (part _ (drop_subset _ _)))
  · exact fallback
  · exact join (padded_printable ascii) (padded_printable (part _ (nil_subset _)))

lemma shortName_length (name : Name) : 0 < (shortName name).length := by
  have eight : ∀ n cs, 0 < n → 0 < (padded n cs).length := by
    intro n cs positive
    rw [padded, length_append, length_map, length_replicate]
    omega
  unfold shortName strToShortName
  split_ifs
  · simp [fallbackName]
  · simp [fallbackName]
  · rw [getD_some, length_append]
    exact Nat.add_pos_left (eight _ _ (by decide)) _
  · simp [fallbackName]
  · rw [getD_some, length_append]
    exact Nat.add_pos_left (eight _ _ (by decide)) _

lemma shortName_head (ascii : Printable name) :
    (shortName name).getD 0 0 ≠ 0 ∧ (shortName name).getD 0 0 ≠ 0xE5 := by
  have inside := shortName_length name
  have ⟨low, high⟩ := shortName_printable ascii _ (getElem_mem inside)
  rw [getD_eq_getElem?_getD, getElem?_eq_getElem inside, getD_some]
  constructor
  · rintro zero
    rw [zero] at low
    exact absurd low (by decide)
  · rintro deleted
    rw [deleted] at high
    exact absurd high (by decide)

lemma shortNameToStr_congr {raw raw' : Store} (same : ∀ i, i < 11 → raw i = raw' i) :
    shortNameToStr raw = shortNameToStr raw' := by
  have base : (range 8).map raw = (range 8).map raw' :=
    map_congr_left fun i mem => same i (by have := mem_range.mp mem; omega)
  rw [shortNameToStr, shortNameToStr, base, same 8 (by decide), same 9 (by decide),
    same 10 (by decide)]

/-! ## The directory after the call -/

/-- The long-name entries right before place `k`, the first 20 of them. -/
def SbInfo.pendingLfn (s : SbInfo) (cs : List Nat) (k : Nat) : List Store :=
  ((range k).map (s.slotAt cs)).foldl collect []

def Resolves (s : SbInfo) (d : Nat) (name : Name) : Prop :=
  ∃ f, Returns (s.findEntry d name) (.ok f) ∧ f.name = name

lemma resolves_iff_scan (g : Geometry s) (dir : Directory s d cs) :
    Resolves s d name ↔ ∃ f, scanSlots name (s.dirSlots cs) [] = .found f := by
  have value := findEntryFrom_eq g dir name []
  have ends : Returns (s.findEntry d name) (scanSlots name (s.dirSlots cs) []).result := by
    refine ⟨cs.length, fun fuel enough => ?_⟩
    obtain ⟨r, done⟩ := isSome_iff_exists.mp ((value fuel).1 enough)
    rw [SbInfo.findEntry, done, (value fuel).2 r done]
  constructor
  · rintro ⟨f, returns, _⟩
    have same := ends.unique returns
    cases scan : scanSlots name (s.dirSlots cs) [] with
    | found f => exact ⟨f, rfl⟩
    | ended => rw [scan] at same; cases same
    | more lfn => rw [scan] at same; cases same
  · rintro ⟨f, found⟩
    rw [found] at ends
    exact ⟨f, ends, scanSlots_name found⟩

lemma not_resolves (g : Geometry s) (dir : Directory s d cs) {fuel : Nat} {e : Errno}
    (looked : s.findEntry d name fuel = some (.error e)) : ¬ Resolves s d name := by
  rw [resolves_iff_scan g dir]
  rintro ⟨f, found⟩
  have value := (findEntryFrom_eq g dir name [] fuel).2 _ looked
  rw [found] at value
  cases value

lemma dirSlots_split {start count rest : Nat} (length : s.rowLength cs = start + (count + rest)) :
    s.dirSlots cs = (range start).map (s.slotAt cs) ++
      ((range count).map (fun j => s.slotAt cs (start + j)) ++
        (range rest).map fun j => s.slotAt cs (start + (count + j))) := by
  rw [SbInfo.dirSlots, length, range_add, range_add]
  simp only [List.map_append, List.map_map]
  rfl

lemma builtEntry_high {attr : UInt8} {firstCluster fileSize k b : Nat} (high : 32 ≤ b) :
    builtEntry name attr firstCluster fileSize k b = 0 := by
  unfold builtEntry
  split
  · simp (disch := omega) only [lfnEntry, if_neg]
  · simp (disch := omega) only [dirEntry, if_neg]

section Created

variable {op : DirOp} (creation : Creation op s s' d name cs cs' mid) (dir : Directory s d cs)
include creation dir

lemma Creation.slotAt {k : Nat} (inside : k < s.rowLength cs) : s'.slotAt cs k =
    { s.slotAt cs k with
      raw := if op.start s cs ≤ k ∧ k < op.start s cs + (lfnEntries name + 1) then
          builtEntry name op.attr s.findFreeCluster.2 0 (k - op.start s cs)
        else (s.slotAt cs k).raw } := by
  have shape := creation.extended.same.trans creation.written.same
  have bytes : (s'.slotAt cs k).raw =
      if op.start s cs ≤ k ∧ k < op.start s cs + (lfnEntries name + 1) then
        builtEntry name op.attr s.findFreeCluster.2 0 (k - op.start s cs)
      else (s.slotAt cs k).raw := by
    funext b
    by_cases low : b < 32
    · rw [creation.slots dir inside low]
      split <;> rfl
    · have zero : ∀ t : SbInfo, (t.slotAt cs k).raw b = 0 := fun t => if_neg low
      rw [zero]
      split
      · exact (builtEntry_high (Nat.le_of_not_lt low)).symm
      · exact (zero s).symm
  rw [← bytes]
  simp only [SbInfo.slotAt, shape.entriesPerCluster]

lemma Creation.row {rest : Nat}
    (split : s.rowLength cs = op.start s cs + (lfnEntries name + 1 + rest)) :
    s'.dirSlots cs = (range (op.start s cs)).map (s.slotAt cs) ++
      ((range (lfnEntries name)).map (fun j => { s.slotAt cs (op.start s cs + j) with
          raw := lfnEntry name (lfnEntries name - 1 - j) }) ++
        { s.slotAt cs (op.start s cs + lfnEntries name) with
          raw := dirEntry (shortName name) op.attr s.findFreeCluster.2 0 } ::
        (range rest).map fun j => s.slotAt cs (op.start s cs + (lfnEntries name + 1 + j))) := by
  have shape := creation.extended.same.trans creation.written.same
  rw [dirSlots_split (shape.rowLength.trans split), range_succ, map_append,
    append_assoc, map_singleton, singleton_append]
  congr 1
  · apply map_congr_left
    intro k mem
    have := mem_range.mp mem
    rw [creation.slotAt dir (by omega), if_neg (by omega)]
  congr 1
  · apply map_congr_left
    intro j mem
    have small := mem_range.mp mem
    rw [creation.slotAt dir (by omega), if_pos (by omega), Nat.add_sub_cancel_left, builtEntry,
      if_pos small]
  congr 1
  · rw [creation.slotAt dir (by omega), if_pos (by omega), Nat.add_sub_cancel_left, builtEntry,
      if_neg (by omega)]
  · apply map_congr_left
    intro j mem
    have := mem_range.mp mem
    rw [creation.slotAt dir (by omega), if_neg (by omega)]

end Created

/-- After a successful `fat32_dir_create` of a name that needs a long-name entry, `fat32_find_entry`
finds the name exactly when it has at most 13 characters and no long-name entry lies right before
the place, or when at least 19 such entries lie there and those the scan collects read as the name.
-/
theorem resolves_iff (g : Geometry s) (dir : Directory s d cs) (ascii : Printable name)
    (needs : NeedsLongName name)
    (ended : ∀ i j, i < j → j < s.rowLength cs → (s.slotAt cs i).raw 0 = 0 →
      (s.slotAt cs j).raw 0 = 0)
    (space : ∀ k, k ≤ lfnEntries name → s.firstFree cs + k < s.rowLength cs ∧
      (s.slotAt cs (s.firstFree cs + k)).isFree = true)
    {fuel : Nat} (done : dirCreate s ⟨d, true⟩ name fuel = some (s', .ok ())) :
    Resolves s' d name ↔
      s.pendingLfn cs (s.firstFree cs) = [] ∧ name.length ≤ 13 ∨
        19 ≤ (s.pendingLfn cs (s.firstFree cs)).length ∧
          parseLfn ((s.pendingLfn cs (s.firstFree cs) ++
            [lfnEntry name (lfnEntries name - 1)]).take 20) 256 = name := by
  obtain ⟨e, looked⟩ := dirCreate_absent done
  obtain ⟨cs', mid, creation⟩ := DirOp.create.creation g dir done
  have inside := (space (lfnEntries name) le_rfl).1
  have shape := creation.extended.same.trans creation.written.same
  have dir' : Directory s' d cs := by
    obtain ⟨more, clusters, chain⟩ := creation.grown
    rcases creation.appended with same | none
    · rwa [← clusters, same] at chain
    · omega
  obtain ⟨rest, length⟩ := Nat.exists_eq_add_of_lt inside
  have split : s.rowLength cs = s.firstFree cs + (lfnEntries name + 1 + rest) := by omega
  have absent := not_resolves g dir looked
  rw [resolves_iff_scan g dir, not_exists, dirSlots_split split] at absent
  rw [resolves_iff_scan (g.of_same shape) dir', creation.row dir split]
  have read := parseLfn_created ascii creation.named creation.short
    (length_collect [] (zero_le _) ((range (s.firstFree cs)).map (s.slotAt cs)))
  refine (scanSlots_created creation.named ?used ?free ?some ?ended absent ?long ?plain
    ?differs).trans ?decoded
  case decoded =>
    rw [List.map_map]
    exact read
  case used =>
    intro slot mem
    obtain ⟨k, small, rfl⟩ := mem_map.mp mem
    have before := mem_range.mp small
    have bound : k < (s.dirSlots cs).length := by
      rw [length_dirSlots]
      omega
    have used := not_of_lt_findIdx before
    rwa [dirSlots_getElem bound] at used
  case free =>
    intro slot mem
    obtain ⟨j, small, rfl⟩ := mem_map.mp mem
    exact (space j (le_of_lt_succ (mem_range.mp small))).2
  case some =>
    rw [range_succ, map_append]
    exact append_ne_nil_of_right_ne_nil _ (cons_ne_nil _ _)
  case ended =>
    intro slot mem ends later behind
    obtain ⟨i, smallI, rfl⟩ := mem_map.mp mem
    obtain ⟨j, smallJ, rfl⟩ := mem_map.mp behind
    have := mem_range.mp smallI
    have := mem_range.mp smallJ
    exact ended _ _ (by omega) (by omega) ends
  case long =>
    intro slot mem
    obtain ⟨j, small, rfl⟩ := mem_map.mp mem
    have inside := mem_range.mp small
    exact ⟨Slot.used_iff.mpr (lfnEntry_order (by omega) creation.short).2, rfl⟩
  case plain => exact ⟨Slot.used_iff.mpr (shortName_head ascii), rfl⟩
  case differs =>
    have same : shortNameToStr (dirEntry (shortName name) attrArchive s.findFreeCluster.2 0) =
        shortNameToStr (fun i => (shortName name).getD i 0) :=
      shortNameToStr_congr fun i small => if_pos small
    exact fun equal => needs (same.symm.trans equal)

/-- The file `ab` is made next to one entry, and found. -/
theorem resolves_iff_twoLetters : ∃ s',
    dirCreate (smallVolume oneEntry) ⟨2, true⟩ [0x61, 0x62] 5 = some (s', .ok ()) ∧
      Resolves s' 2 [0x61, 0x62] := by
  have value : (dirCreate (smallVolume oneEntry) ⟨2, true⟩ [0x61, 0x62] 5).any
      (fun r => r.2.isOk) = true := by
    decide +kernel
  obtain ⟨⟨s', result⟩, done, fine⟩ := (any_eq_true _ _).mp value
  cases result with
  | error e => exact absurd fine nofun
  | ok u =>
    refine ⟨s', done, (resolves_iff (smallVolume_geometry _) (smallVolume_directory _) ?_ ?_ ?_ ?_
      done).mpr (.inl ⟨?_, by decide⟩)⟩
    · decide
    · unfold NeedsLongName
      decide +kernel
    · have empty : ∀ j, j < 16 → 0 < j → ((smallVolume oneEntry).slotAt [2] j).raw 0 = 0 := by
        decide +kernel
      intro i j less inside _
      exact empty j inside (by omega)
    · decide +kernel
    · have pending : ((smallVolume oneEntry).pendingLfn [2]
          ((smallVolume oneEntry).firstFree [2])).isEmpty = true := by
        decide +kernel
      exact isEmpty_iff.mp pending

/-- A name of 14 characters is not found in a directory where all its entries were free. -/
theorem longName_lost : Printable (replicate 14 0x61) ∧ NeedsLongName (replicate 14 0x61) ∧
      (∀ k, k ≤ lfnEntries (replicate 14 0x61) →
        (smallVolume oneEntry).firstFree [2] + k < (smallVolume oneEntry).rowLength [2] ∧
        ((smallVolume oneEntry).slotAt [2]
          ((smallVolume oneEntry).firstFree [2] + k)).isFree = true) ∧
      ∃ s', dirCreate (smallVolume oneEntry) ⟨2, true⟩ (replicate 14 0x61) 5 =
        some (s', .ok ()) ∧ ¬ Resolves s' 2 (replicate 14 0x61) := by
  refine ⟨?_, ?_, ?_, ?_⟩
  · decide
  · unfold NeedsLongName
    decide +kernel
  · decide +kernel
  · have value : (dirCreate (smallVolume oneEntry) ⟨2, true⟩ (replicate 14 0x61) 5).any
        (fun r => r.2.isOk && (r.1.findEntry 2 (replicate 14 0x61) 5).any fun looked =>
          !looked.isOk) = true := by
      decide +kernel
    obtain ⟨⟨s', result⟩, done, fine⟩ := (any_eq_true _ _).mp value
    rw [and_eq_true] at fine
    obtain ⟨looked, found, failed⟩ := (any_eq_true _ _).mp fine.2
    cases result with
    | error e => exact absurd fine.1 nofun
    | ok u =>
      have g := smallVolume_geometry oneEntry
      obtain ⟨cs', mid, creation⟩ := DirOp.create.creation g (smallVolume_directory _) done
      obtain ⟨more, _, chain⟩ := creation.grown
      have shape := creation.extended.same.trans creation.written.same
      cases looked with
      | ok f => exact absurd failed nofun
      | error e => exact ⟨s', done, not_resolves (g.of_same shape) chain found⟩

end AuroraOS.Fat32
