import AuroraOS.Cap.Model
import AuroraOS.Lib.Ledger

/-!
# No amplification of capabilities

Beside the system stands a ledger of all entries ever made, with the task that got each of them and
the entry it was derived or sent from.  `Sound` says that each descriptor stands for one entry of
the ledger, in a block of its own, and that its links keep to `Passes`.
-/

namespace AuroraOS.Cap

open Lib Function Option Cap.System
open Fd (maxFds)

structure Grant where
  task : Nat
  file : Nat
  caps : BitVec 32
deriving DecidableEq, Repr

/-- The system with the ledger; `serial` gives the place of the entry in a block. -/
structure Config where
  sys : System
  made : List (Made Grant)
  serial : Nat → Nat

def Config.note (c : Config) (sys : System) (task entry : Nat) (source : Option Nat) : Config where
  sys := sys
  made := c.made ++ [⟨⟨task, (sys.mem entry).file, (sys.mem entry).caps⟩, source⟩]
  serial := Function.update c.serial entry c.made.length

def Config.record (c : Config) (op : Op) (result : Int) (sys : System) : Config :=
  if result < 0 then { c with sys := sys }
  else
    match op with
    | .alloc (some t) _ _ (some entry) => c.note sys t entry none
    | .derive current oldFd _ (some entry) =>
      match c.sys.capGet current oldFd with
      | some (t, _, old) => c.note sys t entry (some (c.serial old))
      | none => { c with sys := sys }
    | .send current fd (some target) (some entry) =>
      match c.sys.capGet current fd with
      | some (_, _, old) => c.note sys target entry (some (c.serial old))
      | none => { c with sys := sys }
    | _ => { c with sys := sys }

def Config.exec (c : Config) (op : Op) : Config :=
  c.record op (c.sys.exec op).1 (c.sys.exec op).2

/-- `kmalloc` returns a block that is not in use. -/
def Config.Fresh (c : Config) (op : Op) : Prop :=
  ∀ a, op.memory = some a → c.sys.live a = false

def Config.Empty (c : Config) : Prop :=
  (∀ t i, c.sys.fdTable t i = none) ∧ c.made = []

inductive Reaches : Config → Prop
  | start {c : Config} : c.Empty → Reaches c
  | call {c : Config} (op : Op) : Reaches c → c.Fresh op → Reaches (c.exec op)

structure Passes (source grant : Grant) : Prop where
  file : source.file = grant.file
  caps : grant.caps &&& ~~~source.caps = 0
  send : source.task ≠ grant.task → source.caps &&& capSend ≠ 0

/-! ## Sets of capabilities -/

variable {a b : BitVec 32}

lemma caps_within_iff : a &&& ~~~b = 0 ↔ a &&& b = a := by
  constructor
  · intro outside
    apply BitVec.eq_of_getLsbD_eq
    intro i inside
    have bit : (a &&& ~~~b).getLsbD i = (0 : BitVec 32).getLsbD i := by rw [outside]
    have bit' : (a.getLsbD i && !b.getLsbD i) = false := by simpa [inside] using bit
    cases first : a.getLsbD i <;> cases second : b.getLsbD i <;> simp_all
  · intro within
    rw [← within, BitVec.and_assoc]
    simp

lemma caps_within_refl (a : BitVec 32) : a &&& ~~~a = 0 := by simp

lemma caps_within_trans {c : BitVec 32} (ab : a &&& ~~~b = 0) (bc : b &&& ~~~c = 0) :
    a &&& ~~~c = 0 := by
  rw [caps_within_iff] at ab bc ⊢
  rw [← ab, BitVec.and_assoc, bc]

structure Within (source grant : Grant) : Prop where
  file : source.file = grant.file
  caps : grant.caps &&& ~~~source.caps = 0

lemma Within.refl (grant : Grant) : Within grant grant :=
  ⟨rfl, caps_within_refl _⟩

lemma Within.trans (a b c : Grant) (ab : Within a b) (bc : Within b c) : Within a c :=
  ⟨ab.file.trans bc.file, caps_within_trans bc.caps ab.caps⟩

lemma Passes.within (source grant : Grant) (passes : Passes source grant) : Within source grant :=
  ⟨passes.file, passes.caps⟩

/-! ## Descriptors and the ledger -/

/-- Every descriptor has a block of its own, with the entry that the ledger has for it. -/
structure Sound (c : Config) : Prop where
  live : ∀ t i a, c.sys.fdTable t i = some a → c.sys.live a = true
  magic : ∀ t i a, c.sys.fdTable t i = some a → (c.sys.mem a).magic = capEntryMagic
  noted : ∀ t i a, c.sys.fdTable t i = some a →
    ∃ source, c.made[c.serial a]? = some ⟨⟨t, (c.sys.mem a).file, (c.sys.mem a).caps⟩, source⟩
  apart : ∀ t i u j a, c.sys.fdTable t i = some a → c.sys.fdTable u j = some a → t = u ∧ i = j
  linked : Linked Passes c.made

namespace System

@[simp] lemma setSlot_mem (s : System) (t : Nat) (i : Fin maxFds) (slot : Option Nat) :
    (s.setSlot t i slot).mem = s.mem := rfl

@[simp] lemma setSlot_live (s : System) (t : Nat) (i : Fin maxFds) (slot : Option Nat) :
    (s.setSlot t i slot).live = s.live := rfl

lemma setSlot_eq (s : System) (t u : Nat) (i j : Fin maxFds) (slot : Option Nat) :
    (s.setSlot t i slot).fdTable u j = if u = t ∧ j = i then slot else s.fdTable u j := by
  unfold setSlot
  dsimp only
  rcases eq_or_ne u t with rfl | otherTask
  · rw [update_self]
    rcases eq_or_ne j i with rfl | other
    · rw [update_self, if_pos ⟨rfl, rfl⟩]
    · rw [update_of_ne other, if_neg fun both => other both.2]
  · rw [update_of_ne otherTask, if_neg fun both => otherTask both.1]

lemma of_setSlot_none {s : System} {t u a : Nat} {i j : Fin maxFds}
    (after : (s.setSlot t i none).fdTable u j = some a) :
    s.fdTable u j = some a ∧ ¬(u = t ∧ j = i) := by
  rw [setSlot_eq] at after
  split at after
  · cases after
  · rename_i elsewhere
    exact ⟨after, elsewhere⟩

lemma freeSlot_free {s : System} {t : Nat} {i : Fin maxFds} (found : s.freeSlot t = some i) :
    s.fdTable t i = none := by
  simpa using List.find?_some found

/-- What `cap_fd_alloc` leaves: nothing, an unused block it has freed again, or a new entry in
a free slot. -/
lemma capFdAlloc_cases (s : System) (t filp : Option Nat) (caps : BitVec 32)
    (memory : Option Nat) :
    s.capFdAlloc t filp caps memory = (-1, s) ∨
      (∃ a entry, memory = some a ∧
        s.capFdAlloc t filp caps memory = (-1, (s.store a entry).kfree a)) ∨
      ∃ u file a i, t = some u ∧ filp = some file ∧ memory = some a ∧ s.fdTable u i = none ∧
        s.capFdAlloc t filp caps memory =
          ((i.val : Int), (s.store a ⟨capEntryMagic, file, caps⟩).setSlot u i (some a)) := by
  unfold capFdAlloc
  rcases t with _ | u
  · exact .inl rfl
  rcases filp with _ | file
  · exact .inl rfl
  rcases memory with _ | a
  · exact .inl rfl
  dsimp only
  split
  · rename_i i found
    exact .inr (.inr ⟨u, file, a, i, rfl, rfl, rfl, freeSlot_free found, rfl⟩)
  · exact .inr (.inl ⟨a, _, rfl, rfl⟩)

lemma capGet_some {s : System} {current : Option Nat} {fd : Int} {t a : Nat} {i : Fin maxFds}
    (got : s.capGet current fd = some (t, i, a)) :
    current = some t ∧ s.fdTable t i = some a := by
  unfold capGet at got
  rcases current with _ | u
  · cases got
  simp only [bind_eq_bind, bind_some, bind_eq_some_iff] at got
  obtain ⟨j, index, entry, slot, rest⟩ := got
  split at rest
  · cases rest
  · cases rest
    exact ⟨rfl, slot⟩

end System

namespace Sound

variable {c : Config}

variable (sound : Sound c)
include sound

/-- Descriptors may go, and what no descriptor stands for may change. -/
lemma shrink {sys : System} (slots : ∀ u j b, sys.fdTable u j = some b →
      c.sys.fdTable u j = some b ∧ sys.live b = c.sys.live b ∧ sys.mem b = c.sys.mem b) :
    Sound { c with sys := sys } := by
  refine ⟨fun u j b after => ?_, fun u j b after => ?_, fun u j b after => ?_,
    fun u j v k b first second => ?_, sound.linked⟩
  · obtain ⟨before, live, _⟩ := slots u j b after
    exact live.trans (sound.live u j b before)
  · obtain ⟨before, _, mem⟩ := slots u j b after
    rw [mem]
    exact sound.magic u j b before
  · obtain ⟨before, _, mem⟩ := slots u j b after
    rw [mem]
    exact sound.noted u j b before
  · exact sound.apart u j v k b (slots u j b first).1 (slots v k b second).1

lemma ne_of_fresh {t a b : Nat} {i : Fin maxFds} (fresh : c.sys.live a = false)
    (slot : c.sys.fdTable t i = some b) : b ≠ a := by
  rintro rfl
  have used := sound.live t i b slot
  rw [fresh] at used
  cases used

lemma scribble {a : Nat} (fresh : c.sys.live a = false) (entry : CapEntry) :
    Sound { c with sys := (c.sys.store a entry).kfree a } := by
  refine sound.shrink fun u j b slot => ⟨slot, ?_⟩
  have other := sound.ne_of_fresh fresh slot
  simp [store, kfree, other]

lemma drop {t a : Nat} {i : Fin maxFds} (slot : c.sys.fdTable t i = some a) :
    Sound { c with sys := (c.sys.kfree a).setSlot t i none } := by
  refine sound.shrink fun u j b after => ?_
  obtain ⟨before, elsewhere⟩ := of_setSlot_none after
  refine ⟨before, update_of_ne (fun same => elsewhere ?_) _ _, rfl⟩
  exact sound.apart u j t i b before (same ▸ slot)

lemma fill {t a file : Nat} {i : Fin maxFds} {caps : BitVec 32}
    {source : Option Nat} (fresh : c.sys.live a = false) (free : c.sys.fdTable t i = none)
    (passes : ∀ m, source = some m → ∃ q, c.made[m]? = some q ∧ Passes q.value ⟨t, file, caps⟩) :
    Sound (c.note ((c.sys.store a ⟨capEntryMagic, file, caps⟩).setSlot t i (some a)) t a
      source) := by
  -- The new block is in no other slot, and the old slots keep their blocks.
  have slots : ∀ u j b,
      ((c.sys.store a ⟨capEntryMagic, file, caps⟩).setSlot t i (some a)).fdTable u j = some b →
      (u = t ∧ j = i ∧ b = a) ∨ (c.sys.fdTable u j = some b ∧ b ≠ a) := by
    intro u j b after
    rw [setSlot_eq] at after
    split at after
    · rename_i here
      exact .inl ⟨here.1, here.2, (some.inj after).symm⟩
    · exact .inr ⟨after, sound.ne_of_fresh fresh after⟩
  refine ⟨fun u j b after => ?_, fun u j b after => ?_, fun u j b after => ?_,
    fun u j v k b first second => ?_, ?_⟩
  · rcases slots u j b after with ⟨rfl, rfl, rfl⟩ | ⟨before, other⟩
    · simp [Config.note, store]
    · simpa [Config.note, store, other] using sound.live u j b before
  · rcases slots u j b after with ⟨rfl, rfl, rfl⟩ | ⟨before, other⟩
    · simp [Config.note, store]
    · simpa [Config.note, store, other] using sound.magic u j b before
  · rcases slots u j b after with ⟨rfl, rfl, rfl⟩ | ⟨before, other⟩
    · exact ⟨source, by simp [Config.note]⟩
    · obtain ⟨origin, noted⟩ := sound.noted u j b before
      refine ⟨origin, ?_⟩
      simpa [Config.note, store, other] using getElem?_append_old noted
  · rcases slots u j b first with ⟨rfl, rfl, rfl⟩ | ⟨before, other⟩
    · rcases slots v k b second with ⟨rfl, rfl, _⟩ | ⟨_, other⟩
      · exact ⟨rfl, rfl⟩
      · exact absurd rfl other
    · rcases slots v k b second with ⟨_, _, same⟩ | ⟨before', _⟩
      · exact absurd same other
      · exact sound.apart u j v k b before before'
  · refine sound.linked.append _ fun m is => ?_
    simpa [store] using passes m is

lemma closeSlot (t : Nat) (i : Fin maxFds) : Sound { c with sys := c.sys.closeSlot t i } ∧
    ∀ u j a, (c.sys.closeSlot t i).fdTable u j = some a → c.sys.fdTable u j = some a := by
  unfold System.closeSlot
  split
  · exact ⟨sound, fun _ _ _ after => after⟩
  · rename_i a slot
    split
    · exact ⟨sound, fun _ _ _ after => after⟩
    · exact ⟨sound.drop slot, fun u j b after => (of_setSlot_none after).1⟩

lemma closeAll (t : Nat) (slots : List (Fin maxFds)) :
    Sound { c with sys := slots.foldl (fun s i => s.closeSlot t i) c.sys } ∧
      ∀ u j a, (slots.foldl (fun s i => s.closeSlot t i) c.sys).fdTable u j = some a →
        c.sys.fdTable u j = some a := by
  induction slots generalizing c with
  | nil => exact ⟨sound, fun _ _ _ after => after⟩
  | cons i slots ih =>
    obtain ⟨closed, kept⟩ := sound.closeSlot t i
    obtain ⟨rest, before⟩ := ih closed
    exact ⟨rest, fun u j a after => kept u j a (before u j a after)⟩

end Sound

/-! ## What a call does -/

/-- How an entry for `u` came about: `cap_fd_alloc` made it from nothing, or it was made from
a descriptor that some task had in `c`, of another task only if that had `CAP_SEND`. -/
inductive Arrival (c : Config) (u file : Nat) (caps : BitVec 32) : Option Nat → Prop
  | original : Arrival c u file caps none
  | passed {t a : Nat} {i : Fin maxFds} : c.sys.fdTable t i = some a →
      file = (c.sys.mem a).file → caps &&& ~~~(c.sys.mem a).caps = 0 →
      (t ≠ u → (c.sys.mem a).caps &&& capSend ≠ 0) →
      Arrival c u file caps (some (c.serial a))

variable {c : Config}

lemma Arrival.passes (sound : Sound c) {u file : Nat} {caps : BitVec 32}
    {source : Option Nat} (arrival : Arrival c u file caps source) :
    ∀ m, source = some m → ∃ q, c.made[m]? = some q ∧ Passes q.value ⟨u, file, caps⟩ := by
  intro m is
  cases arrival with
  | original => cases is
  | @passed t a i slot file within send =>
    cases is
    obtain ⟨origin, noted⟩ := sound.noted t i a slot
    exact ⟨_, noted, file.symm, within, send⟩

/-- The state after a call: every descriptor that was not there before has arrived. -/
structure Follows (c c' : Config) : Prop where
  sound : Sound c'
  arrivals : ∀ u i a, c'.sys.fdTable u i = some a → c.sys.fdTable u i = some a ∨
    ∃ source, c'.made[c'.serial a]? =
        some ⟨⟨u, (c'.sys.mem a).file, (c'.sys.mem a).caps⟩, source⟩ ∧
      Arrival c u (c'.sys.mem a).file (c'.sys.mem a).caps source

namespace Follows

variable {c c' : Config}

lemma quiet {sys : System} (sound : Sound { c with sys := sys })
    (slots : ∀ u i a, sys.fdTable u i = some a → c.sys.fdTable u i = some a) :
    Follows c { c with sys := sys } :=
  ⟨sound, fun u i a after => .inl (slots u i a after)⟩

lemma drop (follows : Follows c c') {t a : Nat} {i : Fin maxFds}
    (slot : c'.sys.fdTable t i = some a) :
    Follows c { c' with sys := (c'.sys.kfree a).setSlot t i none } := by
  refine ⟨follows.sound.drop slot, fun u j b after => ?_⟩
  exact follows.arrivals u j b (of_setSlot_none after).1

lemma fill (sound : Sound c) {t a file : Nat} {i : Fin maxFds} {caps : BitVec 32}
    {source : Option Nat} (fresh : c.sys.live a = false) (free : c.sys.fdTable t i = none)
    (arrival : Arrival c t file caps source) :
    Follows c (c.note ((c.sys.store a ⟨capEntryMagic, file, caps⟩).setSlot t i (some a)) t a
      source) := by
  refine ⟨sound.fill fresh free (arrival.passes sound), fun u j b after => ?_⟩
  dsimp only [Config.note] at after
  rw [setSlot_eq] at after
  split at after
  · rename_i here
    obtain ⟨rfl, rfl⟩ := here
    cases after
    refine .inr ⟨source, by simp [Config.note], ?_⟩
    simpa [Config.note, store] using arrival
  · exact .inl after

end Follows

lemma Sound.alloc (sound : Sound c) (t filp : Option Nat) (caps : BitVec 32)
    (memory source : Option Nat) (fresh : ∀ a, memory = some a → c.sys.live a = false)
    (arrival : ∀ u file, t = some u → filp = some file → Arrival c u file caps source) :
    (∃ sys, c.sys.capFdAlloc t filp caps memory = (-1, sys) ∧ Follows c { c with sys := sys }) ∨
      ∃ (i : Fin maxFds) (sys : System) (u a : Nat), t = some u ∧ memory = some a ∧
        c.sys.capFdAlloc t filp caps memory = ((i.val : Int), sys) ∧
        Follows c (c.note sys u a source) ∧
        ∀ v j b, c.sys.fdTable v j = some b → sys.fdTable v j = some b := by
  rcases c.sys.capFdAlloc_cases t filp caps memory with
    failed | ⟨a, entry, is, failed⟩ | ⟨u, file, a, i, isTask, isFile, is, free, made⟩
  · exact .inl ⟨c.sys, failed, .quiet sound fun _ _ _ slot => slot⟩
  · exact .inl ⟨_, failed, .quiet (sound.scribble (fresh a is) entry) fun _ _ _ slot => slot⟩
  refine .inr ⟨i, _, u, a, isTask, is, made, ?_, fun v j b slot => ?_⟩
  · exact .fill sound (fresh a is) free (arrival u file isTask isFile)
  · rw [setSlot_eq, if_neg]
    · exact slot
    · rintro ⟨rfl, rfl⟩
      exact absurd (free.symm.trans slot) nofun

/-! ## Each call -/

variable {op : Op} {sys : System}

lemma Config.exec_failed
    (failed : c.sys.exec op = (-1, sys)) : c.exec op = { c with sys := sys } := by
  rw [Config.exec, failed]
  exact if_pos (Int.negSucc_lt_zero 0)

lemma Config.exec_done {n : Nat}
    (done : c.sys.exec op = ((n : Int), sys)) : c.exec op = c.record op n sys := by
  rw [Config.exec, done]

lemma natCast_not_neg (n : Nat) : ¬(n : Int) < 0 := by omega

namespace Sound

variable {c : Config}

variable (sound : Sound c)
include sound

lemma unchanged : Follows c { c with sys := c.sys } := ⟨sound, fun _ _ _ slot => .inl slot⟩

lemma exec_refused (failed : c.sys.exec op = (-1, c.sys)) : Follows c (c.exec op) := by
  rw [Config.exec_failed failed]
  exact sound.unchanged

lemma exec_alloc (t filp : Option Nat) (caps : BitVec 32)
    (memory : Option Nat) (fresh : c.Fresh (.alloc t filp caps memory)) :
    Follows c (c.exec (.alloc t filp caps memory)) := by
  have call : c.sys.exec (.alloc t filp caps memory) = c.sys.capFdAlloc t filp caps memory := rfl
  rcases sound.alloc t filp caps memory none fresh fun _ _ _ _ => .original with
    ⟨sys, failed, follows⟩ | ⟨i, sys, u, a, rfl, rfl, made, follows, _⟩
  · rw [Config.exec_failed (call.trans failed)]
    exact follows
  · rw [Config.exec_done (call.trans made), Config.record, if_neg (natCast_not_neg _)]
    exact follows

lemma exec_close (t : Option Nat) (fd : Int) : Follows c (c.exec (.close t fd)) := by
  cases got : c.sys.capGet t fd with
  | none =>
    apply sound.exec_refused
    simp only [exec, capFdClose, got]
  | some found =>
    obtain ⟨u, i, a⟩ := found
    have done : c.sys.exec (.close t fd) = (0, (c.sys.kfree a).setSlot u i none) := by
      simp only [exec, capFdClose, got]
    rw [Config.exec, done]
    exact sound.unchanged.drop (capGet_some got).2

lemma exec_closeAll (t : Option Nat) : Follows c (c.exec (.closeAll t)) := by
  cases t with
  | none => exact ⟨sound, fun _ _ _ slot => .inl slot⟩
  | some t =>
    obtain ⟨closed, kept⟩ := sound.closeAll t (List.finRange maxFds)
    exact .quiet closed kept

lemma exec_derive (current : Option Nat) (oldFd : Int) (newCaps : BitVec 32)
    (memory : Option Nat) (fresh : c.Fresh (.derive current oldFd newCaps memory)) :
    Follows c (c.exec (.derive current oldFd newCaps memory)) := by
  cases got : c.sys.capGet current oldFd with
  | none =>
    apply sound.exec_refused
    simp only [exec, fdDerive, got]
  | some found =>
    obtain ⟨t, i, entry⟩ := found
    obtain ⟨rfl, slot⟩ := capGet_some got
    have call : c.sys.exec (.derive (some t) oldFd newCaps memory) =
        if newCaps &&& ~~~(c.sys.mem entry).caps ≠ 0 then (-1, c.sys)
        else c.sys.capFdAlloc (some t) (some (c.sys.mem entry).file) newCaps memory := by
      simp only [exec, fdDerive, got]
    by_cases within : newCaps &&& ~~~(c.sys.mem entry).caps = 0
    · rw [if_neg (not_not.mpr within)] at call
      have arrival : ∀ u file, some t = some u → some (c.sys.mem entry).file = some file →
          Arrival c u file newCaps (some (c.serial entry)) := by
        intro u file isTask isFile
        cases isTask
        cases isFile
        exact .passed slot rfl within fun other => absurd rfl other
      rcases sound.alloc (some t) _ newCaps memory _ fresh arrival with
        ⟨sys, failed, follows⟩ | ⟨j, sys, u, a, isTask, is, made, follows, _⟩
      · rw [Config.exec_failed (call.trans failed)]
        exact follows
      · cases isTask
        cases is
        rw [Config.exec_done (call.trans made), Config.record, if_neg (natCast_not_neg _)]
        simp only [got]
        exact follows
    · rw [if_pos within] at call
      exact sound.exec_refused call

lemma exec_send (current : Option Nat) (fd : Int) (target memory : Option Nat)
    (fresh : c.Fresh (.send current fd target memory)) :
    Follows c (c.exec (.send current fd target memory)) := by
  cases got : c.sys.capGet current fd with
  | none =>
    apply sound.exec_refused
    simp only [exec, fdSend, got]
  | some found =>
    obtain ⟨t, i, entry⟩ := found
    obtain ⟨rfl, slot⟩ := capGet_some got
    by_cases send : (c.sys.mem entry).caps &&& capSend = 0
    · apply sound.exec_refused
      simp only [exec, fdSend, got, if_pos send]
    cases target with
    | none =>
      apply sound.exec_refused
      simp only [exec, fdSend, got, if_neg send]
    | some target =>
      have arrival : ∀ u file, some target = some u → some (c.sys.mem entry).file = some file →
          Arrival c u file (c.sys.mem entry).caps (some (c.serial entry)) := by
        intro u file isTask isFile
        cases isFile
        exact .passed slot rfl (caps_within_refl _) fun _ => send
      rcases sound.alloc (some target) _ (c.sys.mem entry).caps memory _ fresh arrival with
        ⟨sys, failed, follows⟩ | ⟨j, sys, u, a, isTask, is, made, follows, kept⟩
      · have call : c.sys.exec (.send (some t) fd (some target) memory) = (-1, sys) := by
          simp only [exec, fdSend, got, if_neg send, failed]
          exact if_pos (Int.negSucc_lt_zero 0)
        rw [Config.exec_failed call]
        exact follows
      · cases isTask
        cases is
        have call : c.sys.exec (.send (some t) fd (some target) (some a)) =
            (0, (sys.kfree entry).setSlot t i none) := by
          simp only [exec, fdSend, got, if_neg send, made]
          exact if_neg (natCast_not_neg _)
        have result : c.exec (.send (some t) fd (some target) (some a)) =
            c.note ((sys.kfree entry).setSlot t i none) target a (some (c.serial entry)) := by
          rw [Config.exec, call]
          simp only [Config.record, got]
          rfl
        rw [result]
        exact follows.drop (kept t i entry slot)

lemma exec (op : Op) (fresh : c.Fresh op) : Follows c (c.exec op) := by
  cases op with
  | alloc t filp caps memory => exact sound.exec_alloc t filp caps memory fresh
  | close t fd => exact sound.exec_close t fd
  | closeAll t => exact sound.exec_closeAll t
  | derive current oldFd newCaps memory =>
    exact sound.exec_derive current oldFd newCaps memory fresh
  | send current fd target memory => exact sound.exec_send current fd target memory fresh

omit sound

lemma of_empty (empty : c.Empty) : Sound c := by
  have none : ∀ t i a, c.sys.fdTable t i ≠ some a := by
    intro t i a slot
    rw [empty.1] at slot
    cases slot
  refine ⟨fun t i a slot => absurd slot (none t i a), fun t i a slot => absurd slot (none t i a),
    fun t i a slot => absurd slot (none t i a), fun t i u j a slot => absurd slot (none t i a), ?_⟩
  rw [empty.2]
  exact linked_nil _

lemma of_reaches (reaches : Reaches c) : Sound c := by
  induction reaches with
  | start empty => exact .of_empty empty
  | call op _ fresh ih => exact (ih.exec op fresh).sound

end Sound

/-- The entry of every descriptor descends from an original one for the same file, within the
capabilities of that; and a call makes a descriptor of a task from one of another task only if that
had `CAP_SEND` at that moment. -/
theorem no_amplification {c : Config} (reaches : Reaches c) :
    (∀ t i a, c.sys.fdTable t i = some a → ∃ e o r,
      c.made[c.serial a]? = some e ∧ e.value = ⟨t, (c.sys.mem a).file, (c.sys.mem a).caps⟩ ∧
      c.made[o]? = some r ∧ r.source = none ∧ Descends c.made o (c.serial a) ∧
      r.value.file = (c.sys.mem a).file ∧ (c.sys.mem a).caps &&& ~~~r.value.caps = 0) ∧
    ∀ op, c.Fresh op → ∀ u i a, (c.exec op).sys.fdTable u i = some a →
      c.sys.fdTable u i ≠ some a → ∃ e, (c.exec op).made[(c.exec op).serial a]? = some e ∧
        (e.source = none ∨ ∃ t j b, c.sys.fdTable t j = some b ∧ e.source = some (c.serial b) ∧
          (t ≠ u → (c.sys.mem b).caps &&& capSend ≠ 0)) := by
  have sound := Sound.of_reaches reaches
  refine ⟨fun t i a slot => ?_, fun op fresh u i a after before => ?_⟩
  · obtain ⟨source, noted⟩ := sound.noted t i a slot
    obtain ⟨o, r, root, original, descends, file, caps⟩ :=
      sound.linked.exists_root Within.refl Within.trans Passes.within noted
    exact ⟨_, o, r, noted, rfl, root, original, descends, file, caps⟩
  · rcases (sound.exec op fresh).arrivals u i a after with old | ⟨source, noted, arrival⟩
    · exact absurd old before
    · refine ⟨_, noted, ?_⟩
      cases arrival with
      | original => exact .inl rfl
      | @passed t b j slot _ _ send => exact .inr ⟨t, j, b, slot, rfl, send⟩

def empty : Config := ⟨⟨fun _ => {}, fun _ => false, fun _ _ => none⟩, [], fun _ => 0⟩

def opened : Config := empty.exec (.alloc (some 1) (some 7) 0xB (some 100))

def derived : Config := opened.exec (.derive (some 1) 0 0x9 (some 101))

/-- Task 1 opened file 7 to read, write and send, derived a descriptor to read and send, and sent
that to task 2. -/
def sent : Config := derived.exec (.send (some 1) 1 (some 2) (some 102))

def firstFd : Fin maxFds := ⟨0, by decide⟩

lemma reaches_sent : Reaches sent := by
  have start : Reaches empty := .start ⟨fun _ _ => rfl, rfl⟩
  refine .call _ (.call _ (.call _ start ?_) ?_) ?_ <;> intro a memory <;> cases memory <;> rfl

theorem no_amplification_sent : sent.sys.fdTable 2 firstFd = some 102 ∧ ∃ e o r,
    sent.made[sent.serial 102]? = some e ∧
      e.value = ⟨2, (sent.sys.mem 102).file, (sent.sys.mem 102).caps⟩ ∧
      sent.made[o]? = some r ∧ r.source = none ∧ Descends sent.made o (sent.serial 102) ∧
      r.value.file = (sent.sys.mem 102).file ∧
      (sent.sys.mem 102).caps &&& ~~~r.value.caps = 0 := by
  have slot : sent.sys.fdTable 2 firstFd = some 102 := by decide
  exact ⟨slot, (no_amplification reaches_sent).1 2 firstFd 102 slot⟩

end AuroraOS.Cap
