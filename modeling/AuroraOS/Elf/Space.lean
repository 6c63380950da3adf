import AuroraOS.Lib.Bytes
import AuroraOS.PageTable.Access

/-!
# An address space while a program is loaded

The kernel writes the memory of a new process at physical addresses that it gets by walking the page
tables of the process; the process reads it at virtual ones.
-/

namespace AuroraOS.Elf

open Lib List Option Function

def pageSize : Nat := 4096

structure Space where
  mem : Store
  table : Nat → Option Nat
  free : List Nat

def translate (table : Nat → Option Nat) (va : Nat) : Option Nat :=
  (table (va / pageSize)).map fun frame => frame * pageSize + va % pageSize

/-- The frames that the page tables at `cr3` give the pages. -/
def framesOf (s : Mem.Kmem) (cr3 : Nat) : Nat → Option Nat := fun page =>
  (PageTable.leaf s.ram 3 cr3 page).map fun pte => PageTable.pteAddr pte / pageSize

/-- With these frames an address stands for what the walk through the page tables gives. -/
lemma translate_framesOf {s : Mem.Kmem} {cr3 va : Nat} {pages I : Finset Nat}
    (shape : PageTable.ShapeIn I s.ram 2 cr3 pages)
    (inside : PageTable.pageIdx 3 (va / Mem.pageSize) ∈ I)
    (small : PageTable.large s.ram 3 cr3 (va / Mem.pageSize) = none) :
    translate (framesOf s cr3) va = (PageTable.translate s cr3 va).map Prod.snd := by
  rw [shape.translate_eq inside small, translate, framesOf, Option.map_map, Option.map_map]
  refine Option.map_congr fun pte _ => ?_
  exact congrArg (· + va % pageSize) (Nat.div_mul_cancel (PageTable.pteAddr_aligned pte))

/-- The memory as the process reads it; it means nothing where no page is mapped. -/
def view (resolve : Nat → Option Nat) (mem : Store) : Store := fun va => mem ((resolve va).getD 0)

def OnePiece (resolve : Nat → Option Nat) (va n : Nat) : Prop :=
  ∀ i < n, resolve (va + i) = (resolve va).map (· + i)

/-- The addresses from `lo` up to `hi` are mapped, each to its own byte, and words in one piece. -/
structure Apart (resolve : Nat → Option Nat) (lo hi : Nat) : Prop where
  mapped : ∀ {a}, lo ≤ a → a < hi → ∃ phys, resolve a = some phys
  inj : ∀ {a b}, lo ≤ a → a < hi → lo ≤ b → b < hi → resolve a = resolve b → a = b
  words : ∀ {a}, a % 8 = 0 → OnePiece resolve a 8

lemma view_blit {r : Nat → Option Nat} {lo hi va a n phys : Nat} (m src : Store)
    (apart : Apart r lo hi) (piece : OnePiece r va n) (is : r va = some phys) (low : lo ≤ va)
    (high : va + n ≤ hi) (lowA : lo ≤ a) (highA : a < hi) :
    view r (blit m phys n src) a = blit (view r m) va n src a := by
  have here {i : Nat} (small : i < n) : r (va + i) = some (phys + i) := by
    rw [piece i small, is]
    rfl
  obtain ⟨x, placed⟩ := apart.mapped lowA highA
  by_cases inside : va ≤ a ∧ a < va + n
  · obtain ⟨i, rfl⟩ := Nat.exists_eq_add_of_le inside.1
    rw [view, here (by omega), getD_some, blit_inside (by omega) (by omega),
      blit_inside (by omega) (by omega), Nat.add_sub_cancel_left, Nat.add_sub_cancel_left]
  rw [blit_outside (by omega), view, view, placed, getD_some]
  apply blit_outside
  by_contra within
  -- The byte would be one of those written, at its virtual address too.
  have same := here (i := x - phys) (by omega)
  rw [show phys + (x - phys) = x by omega, ← placed] at same
  have := apart.inj (by omega) (by omega) lowA highA same
  omega

lemma onePiece_word (table : Nat → Option Nat) {va : Nat} (aligned : va % 8 = 0) :
    OnePiece (translate table) va 8 := by
  intro i inside
  have page : (va + i) / pageSize = va / pageSize := by
    unfold pageSize
    omega
  have shift : (va + i) % pageSize = va % pageSize + i := by
    unfold pageSize
    omega
  simp only [translate, page, shift, Option.map_map, Function.comp_def, add_assoc]

namespace Space

def mapFresh (maps : Nat → Bool) (page : Nat) (s : Space) : Option Space :=
  match s.free with
  | [] => none
  | frame :: free =>
    if maps page then
      some {
        mem := fill s.mem (frame * pageSize) pageSize 0
        table := update s.table page (some frame)
        free := free }
    else none

def mapPages (maps : Nat → Bool) : Nat → Nat → Space → Option Space
  | 0, _, s => some s
  | n + 1, page, s => (s.mapFresh maps page).bind (mapPages maps n (page + 1))

variable {s t : Space} {maps : Nat → Bool} {n page : Nat}

lemma mapPages_table (done : mapPages maps n page s = some t) :
    n ≤ s.free.length ∧ (∀ k < n, t.table (page + k) = s.free[k]?) ∧
      ∀ p, p < page ∨ page + n ≤ p → t.table p = s.table p := by
  induction n generalizing page s with
  | zero =>
    cases done
    exact ⟨Nat.zero_le _, nofun, fun _ _ => rfl⟩
  | succ n ih =>
    obtain ⟨mid, first, rest⟩ := bind_eq_some_iff.mp done
    unfold mapFresh at first
    split at first
    · cases first
    rename_i frame free is
    split at first
    · cases first
      obtain ⟨enough, these, others⟩ := ih rest
      refine ⟨by rw [is]; exact Nat.succ_le_succ enough, fun k small => ?_, fun p out => ?_⟩
      · cases k with
        | zero =>
          rw [others _ (by omega), is]
          exact update_self ..
        | succ k =>
          rw [is, getElem?_cons_succ, ← these k (by omega)]
          congr 1
          omega
      · rw [others p (by omega)]
        exact update_of_ne (by omega) _ _
    · cases first

def inTurn (frames : List Nat) (page va : Nat) : Option Nat :=
  translate (fun p => frames[p - page]?) va

lemma mapPages_translate (done : mapPages maps n page s = some t) {va : Nat}
    (low : page * pageSize ≤ va) (high : va < (page + n) * pageSize) :
    translate t.table va = inTurn s.free page va := by
  obtain ⟨-, these, -⟩ := mapPages_table done
  unfold pageSize at low high
  have inside : page ≤ va / pageSize ∧ va / pageSize < page + n := by
    unfold pageSize
    omega
  rw [inTurn, translate, translate, ← these (va / pageSize - page) (by omega),
    show page + (va / pageSize - page) = va / pageSize by omega]

lemma mapPages_apart (distinct : s.free.Nodup) (done : mapPages maps n page s = some t) :
    Apart (translate t.table) (page * pageSize) ((page + n) * pageSize) := by
  have enough := (mapPages_table done).1
  have frame {a : Nat} (low : page * pageSize ≤ a) (high : a < (page + n) * pageSize) :
      ∃ inside : a / pageSize - page < s.free.length, translate t.table a =
        some (s.free[a / pageSize - page] * pageSize + a % pageSize) := by
    have inside : a / pageSize - page < s.free.length := by
      unfold pageSize at *
      omega
    refine ⟨inside, ?_⟩
    rw [mapPages_translate done low high, inTurn, translate, getElem?_eq_getElem inside]
    rfl
  refine ⟨fun low high => ⟨_, (frame low high).2⟩, fun {a b} lowA highA lowB highB same => ?_,
    onePiece_word _⟩
  obtain ⟨insideA, isA⟩ := frame lowA highA
  obtain ⟨insideB, isB⟩ := frame lowB highB
  rw [isA, isB] at same
  have sum := some.inj same
  unfold pageSize at *
  have place : a / 4096 - page = b / 4096 - page := (getElem_inj distinct).mp (by omega)
  omega

end Space

end AuroraOS.Elf
