import Mathlib.Data.List.Nodup

/-!
# Lists of children

Every member of a family names its parent, and is on one list of children, that of its parent:
`Filed children parent M` for the members `M`.
-/

namespace AuroraOS.Lib

open Function List

variable {α : Type} {children : α → List α} {parent : α → Option α} {M : α → Prop}

/-- The lists of children hold exactly the members, each under its parent and once. -/
structure Filed (children : α → List α) (parent : α → Option α) (M : α → Prop) : Prop where
  nodup : ∀ p, (children p).Nodup
  mem_iff : ∀ p c, c ∈ children p ↔ M c ∧ parent c = some p
  named : ∀ c, M c → ∃ p, parent c = some p

namespace Filed

variable (filed : Filed children parent M)
include filed

variable {c p q : α}

lemma count_eq [DecidableEq α] (mem : M c) :
    ∃ p, parent c = some p ∧ ∀ q, (children q).count c = if q = p then 1 else 0 := by
  obtain ⟨p, is⟩ := filed.named c mem
  refine ⟨p, is, fun q => ?_⟩
  split
  · rename_i same
    exact count_eq_one_of_mem (filed.nodup q) ((filed.mem_iff q c).mpr ⟨mem, same ▸ is⟩)
  · rename_i other
    refine count_eq_zero.mpr fun inList => other ?_
    have isToo := ((filed.mem_iff q c).mp inList).2
    exact Option.some.inj (isToo.symm.trans is)

variable {children' : α → List α} {parent' : α → Option α}

lemma congr {M' : α → Prop} (lists : ∀ p, children' p = children p)
    (parents : ∀ c, parent' c = parent c) (members : ∀ c, M' c ↔ M c) :
    Filed children' parent' M' := by
  refine ⟨fun p => ?_, fun p c => ?_, fun c mem => ?_⟩
  · rw [lists]
    exact filed.nodup p
  · rw [lists, parents, members]
    exact filed.mem_iff p c
  · rw [parents]
    exact filed.named c ((members c).mp mem)

lemma add [DecidableEq α] (fresh : ¬M c) (p : α) :
    Filed (update children p (c :: children p)) (update parent c (some p))
      fun x => x = c ∨ M x := by
  have nowhere (q : α) : c ∉ children q := fun inList => fresh ((filed.mem_iff q c).mp inList).1
  refine ⟨fun q => ?_, fun q x => ?_, fun x mem => ?_⟩
  · rcases eq_or_ne q p with rfl | other
    · rw [update_self]
      exact nodup_cons.mpr ⟨nowhere q, filed.nodup q⟩
    · rw [update_of_ne other]
      exact filed.nodup q
  · rcases eq_or_ne x c with rfl | old
    · rcases eq_or_ne q p with rfl | other
      · simp
      · simp [update_of_ne other, nowhere q, other.symm]
    · rcases eq_or_ne q p with rfl | other
      · simp [old, filed.mem_iff]
      · simp [update_of_ne other, old, filed.mem_iff]
  · rcases eq_or_ne x c with rfl | old
    · exact ⟨p, update_self ..⟩
    · rw [update_of_ne old]
      exact filed.named x (mem.resolve_left old)

lemma parent_unique (inP : c ∈ children p) (inQ : c ∈ children q) : p = q :=
  Option.some.inj ((((filed.mem_iff p c).mp inP).2.symm.trans ((filed.mem_iff q c).mp inQ).2))

lemma adopt (other : q ≠ p) (empty : children' p = [])
    (joined : children' q = (children p).reverse ++ children q)
    (rest : ∀ r, r ≠ p → r ≠ q → children' r = children r)
    (moved : ∀ c ∈ children p, parent' c = some q)
    (kept : ∀ c, c ∉ children p → parent' c = parent c) : Filed children' parent' M := by
  have apart {r c : α} (different : r ≠ p) (inP : c ∈ children p) : c ∉ children r :=
    fun inR => different (filed.parent_unique inR inP)
  refine ⟨fun r => ?_, fun r c => ?_, fun c mem => ?_⟩
  · rcases eq_or_ne r p with rfl | notP
    · simp [empty]
    rcases eq_or_ne r q with rfl | notQ
    · rw [joined]
      refine nodup_append.mpr ⟨nodup_reverse.mpr (filed.nodup p), filed.nodup r, ?_⟩
      rintro c inP _ inQ rfl
      exact apart notP (mem_reverse.mp inP) inQ
    · rw [rest r notP notQ]
      exact filed.nodup r
  · by_cases inP : c ∈ children p
    · have mem := ((filed.mem_iff p c).mp inP).1
      rw [moved c inP]
      rcases eq_or_ne r q with rfl | notQ
      · simp [joined, inP, mem]
      have absent : c ∉ children' r := by
        rcases eq_or_ne r p with rfl | notP
        · simp [empty]
        · rw [rest r notP notQ]
          exact apart notP inP
      simp [absent, notQ.symm]
    · rw [kept c inP, ← filed.mem_iff]
      rcases eq_or_ne r p with rfl | notP
      · simp [empty, inP]
      rcases eq_or_ne r q with rfl | notQ
      · simp [joined, inP]
      · rw [rest r notP notQ]
  · by_cases inP : c ∈ children p
    · exact ⟨q, moved c inP⟩
    · rw [kept c inP]
      exact filed.named c mem

lemma remove [DecidableEq α] (inList : c ∈ children p) :
    Filed (update children p ((children p).erase c)) parent fun x => M x ∧ x ≠ c := by
  refine ⟨fun q => ?_, fun q x => ?_, fun x mem => filed.named x mem.1⟩
  · rcases eq_or_ne q p with rfl | other
    · rw [update_self]
      exact (filed.nodup q).erase c
    · rw [update_of_ne other]
      exact filed.nodup q
  · rcases eq_or_ne q p with rfl | other
    · rw [update_self, (filed.nodup q).mem_erase_iff, filed.mem_iff]
      tauto
    · rw [update_of_ne other, filed.mem_iff]
      refine ⟨fun ⟨mem, is⟩ => ⟨⟨mem, fun same => other ?_⟩, is⟩, fun ⟨⟨mem, _⟩, is⟩ => ⟨mem, is⟩⟩
      exact filed.parent_unique ((filed.mem_iff q c).mpr (same ▸ ⟨mem, is⟩)) inList

end Filed

end AuroraOS.Lib
