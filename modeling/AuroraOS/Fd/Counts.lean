import AuroraOS.Fd.Model

/-!
# Reference counts of open files

`Counted` says that the count of every file is the number of slots that hold it, over all
tasks, and that its close operation ran once exactly if no slot holds it any more.  Every
operation keeps it except `sys_pipe`, which makes its two files with a count of 0.
-/

namespace AuroraOS.Fd

open Lib Function List Finset

/-- A file that is held has the right count and is not closed yet; a file that no slot holds is
closed once, and freed. -/
structure FileCounted (s : System) (f : FileId) (file : File) : Prop where
  held : file.freed = false →
    file.refcount = (s.holders f).card ∧ 0 < (s.holders f).card ∧ file.closes = 0
  released : file.freed = true → s.holders f = ∅ ∧ file.closes = 1

structure Counted (s : System) : Prop where
  files : ∀ f file, s.files f = some file → FileCounted s f file
  slots : ∀ p f, p.1 ∈ s.tasks → s.slot p = some f → ∃ file, s.files f = some file

section Basics

variable {s : System} {t : Tid} {f g : FileId} {p : Slot} {file : File}

lemma mem_slots : p ∈ s.tasks ×ˢ (univ : Finset (Fin maxFds)) ↔ p.1 ∈ s.tasks := by
  simp only [Finset.mem_product, Finset.mem_univ, and_true]

lemma Counted.live (counted : Counted s) (mem : p.1 ∈ s.tasks) (held : s.slot p = some f)
    (known : s.files f = some file) : file.freed = false := by
  have here : p ∈ s.holders f := mem_holders.mpr ⟨mem_slots.mpr mem, held⟩
  cases freed : file.freed with
  | false => rfl
  | true =>
    have none := ((counted.files f file known).released freed).1
    rw [none] at here
    exact absurd here (notMem_empty p)

lemma Counted.unheld (counted : Counted s) (unknown : s.files f = none) : s.holders f = ∅ := by
  rw [eq_empty_iff_forall_notMem]
  intro p mem
  obtain ⟨inside, held⟩ := mem_holders.mp mem
  obtain ⟨file, known⟩ := counted.slots p f (mem_slots.mp inside) held
  rw [unknown] at known
  cases known

lemma Counted.change {s' : System} (counted : Counted s) (f : FileId) (file : File)
    (files : ∀ g, g ≠ f → s'.files g = s.files g)
    (others : ∀ g, g ≠ f → s'.holders g = s.holders g)
    (slots : ∀ p g, p.1 ∈ s'.tasks → s'.slot p = some g →
      g = f ∨ (p.1 ∈ s.tasks ∧ s.slot p = some g))
    (known : s'.files f = some file) (right : FileCounted s' f file) : Counted s' := by
  constructor
  · intro g other found
    by_cases same : g = f
    · subst same
      rw [known] at found
      cases found
      exact right
    · have before := counted.files g other (files g same ▸ found)
      have holders := others g same
      exact ⟨by rw [holders]; exact before.held, by rw [holders]; exact before.released⟩
  · intro p g mem held
    rcases slots p g mem held with same | ⟨mem, held⟩
    · exact ⟨file, same ▸ known⟩
    · by_cases same : g = f
      · exact ⟨file, same ▸ known⟩
      · rw [files g same]
        exact counted.slots p g mem held

end Basics

/-! ## Steps on one slot -/

section Steps

variable {s : System} {t : Tid} {f g : FileId} {p : Slot} {file : File}

lemma setSlot_cases {q : Slot} {v : Option FileId} {g : FileId}
    (held : (s.setSlot p v).slot q = some g) : v = some g ∨ s.slot q = some g := by
  by_cases here : q = p
  · left
    rw [here] at held
    simpa [System.setSlot] using held
  · right
    simpa [System.setSlot, here] using held

lemma Counted.fill (counted : Counted s) (file : File) (mem : p.1 ∈ s.tasks)
    (empty : s.slot p = none)
    (fresh : s.files f = none ∧ file = { refcount := 0 } ∨
      s.files f = some file ∧ file.freed = false) :
    Counted ((s.setFile f { file with refcount := file.refcount + 1 }).setSlot p (some f)) := by
  have grown := card_holders_fill (o := f) (mem_slots.mpr mem) empty
  have open' : file.freed = false ∧ file.closes = 0 ∧ file.refcount = (s.holders f).card := by
    rcases fresh with ⟨unknown, rfl⟩ | ⟨known, live⟩
    · exact ⟨rfl, rfl, by rw [counted.unheld unknown]; rfl⟩
    · have right := (counted.files f file known).held live
      exact ⟨live, right.2.2, right.1⟩
  apply counted.change f { file with refcount := file.refcount + 1 }
  · intro g other
    exact update_of_ne other ..
  · intro g other
    have unheld : s.slot p ≠ some g := by simp [empty]
    exact holders_update_of_ne unheld (by simp [other.symm])
  · intro q g mem held
    rcases setSlot_cases held with new | old
    · exact .inl (Option.some.inj new).symm
    · exact .inr ⟨mem, old⟩
  · exact update_self ..
  · constructor
    · intro _
      refine ⟨?_, ?_, open'.2.1⟩
      · exact (congrArg (· + 1) open'.2.2).trans grown.symm
      · exact Nat.lt_of_lt_of_eq (Nat.succ_pos _) grown.symm
    · intro freed
      rw [open'.1] at freed
      cases freed

lemma Counted.release (counted : Counted s) (mem : p.1 ∈ s.tasks) : Counted (s.release p) := by
  unfold System.release
  cases held : s.slot p with
  | none => exact counted
  | some f =>
    obtain ⟨file, known⟩ := counted.slots p f mem held
    have live := counted.live mem held known
    have ⟨count, positive, closes⟩ := (counted.files f file known).held live
    have fewer := card_holders_clear (mem_slots.mpr mem) held
    have others : ∀ g, g ≠ f →
        Lib.holders (s.tasks ×ˢ univ) (update s.slot p none) g = s.holders g :=
      fun g other => holders_update_of_ne (by simp [held, other.symm]) (by simp)
    have slots : ∀ q g, q.1 ∈ s.tasks → (s.setSlot p none).slot q = some g →
        g = f ∨ (q.1 ∈ s.tasks ∧ s.slot q = some g) := by
      intro q g inside after
      rcases setSlot_cases after with new | old
      · cases new
      · exact .inr ⟨inside, old⟩
    simp only [System.vfsClose, known]
    rw [if_neg (by omega)]
    split_ifs with more
    · apply counted.change f { file with refcount := file.refcount - 1 }
      · exact fun g other => update_of_ne other ..
      · exact others
      · exact slots
      · exact update_self ..
      constructor
      · intro _
        refine ⟨?_, ?_, closes⟩
        · exact (congrArg (· - 1) count).trans fewer.symm
        · refine Nat.lt_of_lt_of_eq ?_ fewer.symm
          exact count ▸ more
      · intro freed
        rw [show file.freed = false from live] at freed
        cases freed
    · apply counted.change f { refcount := 0, closes := file.closes + 1, freed := true }
      · exact fun g other => update_of_ne other ..
      · exact others
      · exact slots
      · exact update_self ..
      constructor
      · intro live
        cases live
      intro _
      refine ⟨?_, by rw [closes]⟩
      apply card_eq_zero.mp
      apply fewer.trans
      have one : (s.holders f).card - 1 = 0 := by omega
      exact one

lemma Counted.share (counted : Counted s) {q : Slot} (holder : q.1 ∈ s.tasks)
    (held : s.slot q = some f) (mem : p.1 ∈ s.tasks) (empty : s.slot p = none) :
    Counted ((s.vfsFileDup f).setSlot p (some f)) := by
  obtain ⟨file, known⟩ := counted.slots q f holder held
  have live := counted.live holder held known
  have ⟨count, positive, _⟩ := (counted.files f file known).held live
  simp only [System.vfsFileDup, known]
  rw [if_neg (by omega)]
  exact counted.fill _ mem empty (.inr ⟨known, live⟩)

end Steps

/-! ## The operations -/

section Operations

variable {s : System} {t : Tid} {f : FileId} {p : Slot}

lemma vfsClose_tasks : (s.vfsClose f).tasks = s.tasks ∧ (s.vfsClose f).slot = s.slot := by
  unfold System.vfsClose
  split
  · exact ⟨rfl, rfl⟩
  · split_ifs <;> exact ⟨rfl, rfl⟩

lemma vfsFileDup_tasks : (s.vfsFileDup f).tasks = s.tasks ∧ (s.vfsFileDup f).slot = s.slot := by
  unfold System.vfsFileDup
  split
  · exact ⟨rfl, rfl⟩
  · split_ifs <;> exact ⟨rfl, rfl⟩

lemma release_tasks : (s.release p).tasks = s.tasks := by
  unfold System.release
  split
  · rfl
  · exact vfsClose_tasks.1

lemma release_slot {q : Slot} : (s.release p).slot q = if q = p then none else s.slot q := by
  unfold System.release
  split
  · split_ifs with here
    · rw [here]
      assumption
    · rfl
  · simp only [System.setSlot, vfsClose_tasks.2, update_apply]

variable {i : Fin maxFds}

lemma freeFd_some (found : s.freeFd t = some i) : s.slot (t, i) = none := by
  have here := find?_some found
  simpa using here

variable (counted : Counted s)
include counted

variable (member : t ∈ s.tasks)
include member

lemma Counted.fdClose (fd : Int) : Counted (s.fdClose t fd) := by
  unfold System.fdClose
  split
  · exact counted
  · exact counted.release member

lemma Counted.releaseAll (is : List (Fin maxFds)) :
    Counted (is.foldl (fun s i => s.release (t, i)) s) := by
  induction is generalizing s with
  | nil => exact counted
  | cons i is ih => exact ih (counted.release member) (by rw [release_tasks]; exact member)

omit member in
lemma vfsClose_vfsFileDup (mem : p.1 ∈ s.tasks)
    (held : s.slot p = some f) : (s.vfsFileDup f).vfsClose f = s := by
  obtain ⟨file, known⟩ := counted.slots p f mem held
  have live := counted.live mem held known
  have ⟨count, positive, _⟩ := (counted.files f file known).held live
  have dup : s.vfsFileDup f = s.setFile f { file with refcount := file.refcount + 1 } := by
    simp only [System.vfsFileDup, known]
    rw [if_neg (by omega)]
  have again : (s.setFile f { file with refcount := file.refcount + 1 }).files f =
      some { file with refcount := file.refcount + 1 } := update_self ..
  rw [dup, System.vfsClose, again]
  simp only [Nat.add_sub_cancel]
  rw [if_neg (by omega), if_pos (by omega)]
  simp only [System.setFile, update_idem]
  rw [← known, update_eq_self]

lemma Counted.fdDup (oldfd : Int) : Counted (s.fdDup t oldfd) := by
  unfold System.fdDup
  cases System.fdIndex oldfd with
  | none => exact counted
  | some old =>
    cases held : s.slot (t, old) with
    | none => simpa only [held] using counted
    | some f =>
      simp only [held]
      have free : (s.vfsFileDup f).freeFd t = s.freeFd t := by
        simp only [System.freeFd, vfsFileDup_tasks.2]
      rw [free]
      cases found : s.freeFd t with
      | none =>
        rw [vfsClose_vfsFileDup counted member held]
        exact counted
      | some i =>
        exact counted.share member held member (freeFd_some found)

lemma Counted.fdDup2 (oldfd newfd : Int) : Counted (s.fdDup2 t oldfd newfd) := by
  unfold System.fdDup2
  split
  case h_2 => exact counted
  case h_1 old new _ _ =>
      split_ifs with same
      · exact counted
      cases held : s.slot (t, old) with
      | none => simpa only using counted
      | some f =>
        have apart : (t, old) ≠ (t, new) := fun equal => same (Prod.ext_iff.mp equal).2
        have cleared := counted.release (p := (t, new)) member
        apply cleared.share (q := (t, old))
        · rw [release_tasks]
          exact member
        · rw [release_slot, if_neg apart, held]
        · rw [release_tasks]
          exact member
        · rw [release_slot, if_pos rfl]

lemma Counted.sysOpen (unknown : s.files f = none) : Counted (s.sysOpen t f) := by
  unfold System.sysOpen
  have free : (s.setFile f { refcount := 1 }).freeFd t = s.freeFd t := rfl
  simp only [free]
  cases found : s.freeFd t with
  | some i =>
    exact counted.fill { refcount := 0 } member (freeFd_some found)
      (.inl ⟨unknown, rfl⟩)
  | none =>
    have known : (s.setFile f { refcount := 1 }).files f = some { refcount := 1 } :=
      update_self ..
    simp only [System.vfsClose, known]
    apply counted.change f { refcount := 0, closes := 1, freed := true }
    · intro g other
      change update (update s.files f _) f _ g = s.files g
      rw [update_of_ne other, update_of_ne other]
    · exact fun _ _ => rfl
    · exact fun _ _ member held => .inr ⟨member, held⟩
    · exact update_self ..
    · exact ⟨fun live => (by cases live), fun _ => ⟨counted.unheld unknown, rfl⟩⟩

omit member

omit counted

variable {child : Tid}

lemma Counted.createTask (counted : Counted s) (fresh : child ∉ s.tasks) :
    Counted (s.createTask child) := by
  have holders : ∀ f, (s.createTask child).holders f = s.holders f := by
    intro f
    have within : s.tasks ×ˢ (univ : Finset (Fin maxFds)) ⊆ insert child s.tasks ×ˢ univ :=
      product_subset_product_left (subset_insert child s.tasks)
    apply (holders_extend within _).trans
    · apply holders_congr
      intro q mem
      have other : q.1 ≠ child := fun same => fresh (same ▸ mem_slots.mp mem)
      simp only [System.createTask, if_neg other]
    · intro q mem outside
      have new : q.1 = child := by
        rw [Finset.mem_product] at mem
        exact (mem_insert.mp mem.1).resolve_right fun old =>
          outside (mem_slots.mpr old)
      simp only [System.createTask, if_pos new]
  constructor
  · intro f file known
    have before := counted.files f file known
    exact ⟨by rw [holders]; exact before.held, by rw [holders]; exact before.released⟩
  · intro q f mem held
    simp only [System.createTask] at held
    split_ifs at held with new
    exact counted.slots q f ((mem_insert.mp mem).resolve_left new) held

lemma Counted.inherit (counted : Counted s) (mem : t ∈ s.tasks)
    (forked : child ∈ s.tasks) (empty : s.slot (child, i) = none) :
    Counted (s.inherit t child i) := by
  unfold System.inherit
  cases held : s.slot (t, i) with
  | none => exact counted
  | some f =>
    have shared := counted.share mem held forked empty
    have same : (s.setSlot (child, i) (some f)).vfsFileDup f =
        (s.vfsFileDup f).setSlot (child, i) (some f) := by
      have files : (s.setSlot (child, i) (some f)).files = s.files := rfl
      simp only [System.vfsFileDup, files]
      cases s.files f with
      | none => rfl
      | some file => simp only; split_ifs <;> rfl
    simp only [same]
    exact shared

lemma inherit_slot {q : Slot} (other : q ≠ (child, i)) :
    (s.inherit t child i).slot q = s.slot q ∧ (s.inherit t child i).tasks = s.tasks := by
  unfold System.inherit
  split
  · exact ⟨rfl, rfl⟩
  · rw [vfsFileDup_tasks.1, vfsFileDup_tasks.2]
    exact ⟨update_of_ne other .., rfl⟩

lemma Counted.inheritAll (counted : Counted s) (mem : t ∈ s.tasks)
    (forked : child ∈ s.tasks) {is : List (Fin maxFds)} (distinct : is.Nodup)
    (empty : ∀ i ∈ is, s.slot (child, i) = none) :
    Counted (is.foldl (fun s i => s.inherit t child i) s) := by
  induction is generalizing s with
  | nil => exact counted
  | cons i is ih =>
    obtain ⟨absent, distinct⟩ := nodup_cons.mp distinct
    have next : ∀ j ∈ is, (child, j) ≠ (child, i) :=
      fun j mem same => absent ((Prod.mk.inj same).2 ▸ mem)
    have tasks : (s.inherit t child i).tasks = s.tasks := by
      unfold System.inherit
      split
      · rfl
      · exact vfsFileDup_tasks.1
    apply ih (counted.inherit mem forked (empty i mem_cons_self))
    · rw [tasks]
      exact mem
    · rw [tasks]
      exact forked
    · exact distinct
    · intro j inside
      rw [(inherit_slot (next j inside)).1]
      exact empty j (mem_cons_of_mem i inside)

lemma Counted.sysFork (counted : Counted s) (mem : t ∈ s.tasks)
    (fresh : child ∉ s.tasks) : Counted (s.sysFork t child) := by
  apply (counted.createTask fresh).inheritAll
  · exact mem_insert_of_mem mem
  · exact mem_insert_self ..
  · exact nodup_finRange maxFds
  · intro i _
    exact if_pos rfl

end Operations

/-! ## Runs -/

def PipesRefused (s : System) : Op → Prop
  | .pipe t _ _ _ => s.freeFd t = none
  | _ => True

def RunsWith (c : System → Op → Prop) (s : System) : List Op → Prop
  | [] => True
  | op :: ops => (s.Enabled op ∧ c s op) ∧ RunsWith c (s.apply op) ops

lemma Counted.apply {s : System} {op : Op} (counted : Counted s) (enabled : s.Enabled op)
    (refused : PipesRefused s op) : Counted (s.apply op) := by
  cases op with
  | openFile t f => exact counted.sysOpen enabled.1 enabled.2
  | pipe t r w copied =>
    unfold System.apply System.sysPipe
    simp only [show s.freeFd t = none from refused]
    exact counted
  | dup t oldfd => exact counted.fdDup enabled oldfd
  | dup2 t oldfd newfd => exact counted.fdDup2 enabled oldfd newfd
  | fork t child => exact counted.sysFork enabled.1 enabled.2
  | close t fd => exact counted.fdClose enabled fd
  | exit t => exact counted.releaseAll enabled _

lemma counted_initial (init : Tid) : Counted (initial init) where
  files _ _ known := by cases known
  slots _ _ _ held := by cases held

lemma Counted.run {s : System} {ops : List Op} (counted : Counted s)
    (run : RunsWith PipesRefused s ops) : Counted (ops.foldl System.apply s) := by
  induction ops generalizing s with
  | nil => exact counted
  | cons op ops ih => exact ih (counted.apply run.1.1 run.1.2) run.2

/-- In every run in which no `sys_pipe` call gets a descriptor, every file's count is the number
of slots that hold it, and its close operation has run once exactly if no slot holds it. -/
theorem counted_of_run (init : Tid) (ops : List Op)
    (run : RunsWith PipesRefused (initial init) ops) :
    Counted (ops.foldl System.apply (initial init)) :=
  (counted_initial init).run run

/-- After `sys_pipe` both files have a count of 0 and are held by one slot each, and closing the
descriptors does not close the pipe. -/
theorem pipe_not_counted : RunsWith (fun _ _ => True) (initial 1) [.pipe 1 0 1 true, .close 1 0] ∧
      ¬ Counted ([Op.pipe 1 0 1 true].foldl System.apply (initial 1)) ∧
      ([Op.pipe 1 0 1 true, .close 1 0].foldl System.apply (initial 1)).files 0 =
        some { refcount := 0, closes := 0, freed := false } := by
  refine ⟨⟨⟨⟨?_, rfl, rfl, by decide⟩, trivial⟩, ⟨?_, trivial⟩, trivial⟩, fun counted => ?_, rfl⟩
  · exact Finset.mem_singleton_self 1
  · exact Finset.mem_singleton_self 1
  · have right := (counted.files 0 { refcount := 0 } rfl).held rfl
    have count : 0 = _ := right.1
    omega

/-- A file is opened, duplicated, inherited by a child, and closed by both tasks. -/
def sharing : List Op := [.openFile 1 0, .dup 1 0, .fork 1 2, .close 1 0, .exit 1, .exit 2]

theorem counted_of_run_sharing : Counted (sharing.foldl System.apply (initial 1)) ∧
      (sharing.foldl System.apply (initial 1)).files 0 =
        some { refcount := 0, closes := 1, freed := true } := by
  refine ⟨counted_of_run 1 sharing ?_, by decide +kernel⟩
  refine ⟨⟨?_, trivial⟩, ⟨?_, trivial⟩, ⟨?_, trivial⟩, ⟨?_, trivial⟩, ⟨?_, trivial⟩, ⟨?_, trivial⟩,
    trivial⟩
  all_goals decide +kernel

end AuroraOS.Fd
