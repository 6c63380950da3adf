import AuroraOS.Lib.PhaseRing
import AuroraOS.Nvme.Model

/-!
# Completions arrive once and in order

Driver and controller have positions in a ring with a phase tag, counted without wrapping
(`InStep`), so the driver takes an entry exactly when it is posted and not consumed.
-/

namespace AuroraOS.Nvme

open Lib Function List Option

def Cqe.tag (e : Cqe) : Bool := e.status.getLsbD 0

def phaseByte (tag : Bool) : BitVec 8 := if tag then 1 else 0

lemma Cqe.phase_eq (e : Cqe) : e.phase = phaseByte e.tag := by
  apply BitVec.eq_of_getLsbD_eq
  intro i inside
  have bit : e.phase.getLsbD i = (e.tag && decide (i = 0)) := by
    rw [Cqe.phase, BitVec.getLsbD_setWidth, BitVec.getLsbD_and, Cqe.tag]
    rcases Nat.eq_zero_or_pos i with rfl | positive
    · simp
    · have high : (1#16).getLsbD i = false := by
        have all : ∀ k : Fin 8, 0 < (k : Nat) → (1#16).getLsbD k = false := by decide
        exact all ⟨i, inside⟩ positive
      simp [Nat.pos_iff_ne_zero.mp positive]
  rw [bit]
  have byte : ∀ (b : Bool) (k : Fin 8),
      (b && decide ((k : Nat) = 0)) = (phaseByte b).getLsbD k := by decide
  exact byte e.tag ⟨i, inside⟩

lemma phaseByte_inj {a b : Bool} : phaseByte a = phaseByte b ↔ a = b := by
  cases a <;> cases b <;> decide

lemma phaseByte_not (tag : Bool) : phaseByte tag ^^^ 1 = phaseByte (!tag) := by
  cases tag <;> decide

lemma Cqe.tag_zero : Cqe.zero.tag = false := by decide

lemma Cqe.tag_tagged (e : Cqe) (tag : Bool) : (e.tagged tag).tag = tag := by
  rw [Cqe.tag, Cqe.tagged]
  cases tag <;> simp

/-! ## The positions of both sides -/

/-- The call that is running, against the number of consumed entries. -/
def CallOk (s : System) : Prop :=
  match s.pc with
  | .idle | .poll _ _ => s.returned.length = s.consumed
  | .copy head _ => s.returned.length = s.consumed ∧ head = s.queue.cqHead ∧
      s.consumed < s.posted.length
  | .advance head result => s.returned.length = s.consumed ∧ head = s.queue.cqHead ∧
      s.consumed < s.posted.length ∧ ∀ e, result = some e → s.posted[s.consumed]? = some e
  | .ring result => s.returned.length + 1 = s.consumed ∧
      ∀ e, result = some e → s.posted[s.returned.length]? = some e

/-- The k-th call that returned 0 delivered the k-th completion. -/
def Delivered (s : System) : Prop :=
  ∀ (k : Nat) (e : Cqe), s.returned[k]? = some (some e) → s.posted[k]? = some e

structure InStep (n : Nat) (s : System) : Prop where
  size : s.queue.numEntries.toNat = n
  head : s.queue.cqHead.toNat = s.consumed % n
  phase : s.queue.phase = phaseByte (passTag n s.consumed)
  tail : s.tail = s.posted.length % n
  tag : s.tag = passTag n s.posted.length
  behind : s.consumed ≤ s.posted.length
  near : s.posted.length ≤ s.consumed + n
  tags : Tagged n (fun j => (s.entries j).tag) s.posted.length
  stored : ∀ i, s.consumed ≤ i → i < s.posted.length → s.posted[i]? = some (s.entries (i % n))
  call : CallOk s
  delivered : Delivered s

section Steps

variable {n : Nat} {s : System}

lemma inStep_initial (kmalloc : Nat → BitVec 64) (qid numEntries : BitVec 16)
    (doorbell : BitVec 32) :
    InStep numEntries.toNat (initial kmalloc qid numEntries doorbell) where
  size := rfl
  head := (Nat.zero_mod _).symm
  phase := by
    rw [show (initial kmalloc qid numEntries doorbell).consumed = 0 from rfl, passTag_zero]
    rfl
  tail := (Nat.zero_mod _).symm
  tag := (passTag_zero _).symm
  behind := Nat.le_refl 0
  near := Nat.zero_le _
  tags := Tagged.start fun _ _ => Cqe.tag_zero
  stored _ _ impossible := absurd impossible (Nat.not_lt_zero _)
  call := rfl
  delivered _ _ impossible := nomatch impossible

variable (inv : InStep n s)
include inv

lemma InStep.hit_iff (positive : 0 < n) :
    (s.entries s.queue.cqHead.toNat).phase = s.queue.phase ↔ s.consumed < s.posted.length := by
  rw [Cqe.phase_eq, inv.phase, phaseByte_inj, inv.head]
  exact inv.tags.hit_iff positive inv.behind inv.near

lemma InStep.post (positive : 0 < n) (e : Cqe)
    (room : s.posted.length < s.consumed + n) : InStep n (post s e) := by
  have lengths : (Nvme.post s e).posted.length = s.posted.length + 1 := length_append
  have earlier (k : Nat) (inside : k < s.posted.length) :
      (Nvme.post s e).posted[k]? = s.posted[k]? := getElem?_append_left inside
  have later (k : Nat) (x : Cqe) (placed : s.posted[k]? = some x) :
      (Nvme.post s e).posted[k]? = some x := by
    rw [earlier k (List.getElem?_eq_some_iff.mp placed).1]
    exact placed
  have tailIs : (s.tail + 1) % s.queue.numEntries.toNat = (s.posted.length + 1) % n := by
    rw [inv.size, inv.tail, mod_succ]
  refine ⟨inv.size, inv.head, inv.phase, ?_, ?_, ?_, ?_, ?_, ?_, ?_, ?_⟩
  · rw [lengths]
    exact tailIs
  · have turned := passTag_succ (i := s.posted.length) positive
    rw [← inv.tag, mod_succ, ← tailIs, ← lengths] at turned
    exact turned.symm
  · rw [lengths]
    exact Nat.le_succ_of_le inv.behind
  · rw [lengths]
    exact room
  · rw [lengths]
    apply inv.tags.write positive
    · simp only [Nvme.post, ← inv.tail, update_self, Cqe.tag_tagged]
      exact inv.tag
    · intro j other
      rw [← inv.tail] at other
      simp only [Nvme.post, update_of_ne other]
  · intro i low high
    rw [lengths] at high
    change s.consumed ≤ i at low
    change _ = some (update s.entries s.tail (e.tagged s.tag) (i % n))
    rcases Nat.lt_or_eq_of_le (Nat.le_of_lt_succ high) with before | rfl
    · have other : i % n ≠ s.tail := by
        rw [inv.tail]
        intro same
        have multiple : n ∣ s.posted.length - i := (Nat.modEq_iff_dvd' (by omega)).mp same
        have zero := Nat.eq_zero_of_dvd_of_lt multiple (by omega)
        omega
      rw [earlier i before, update_of_ne other]
      exact inv.stored i low before
    · rw [← inv.tail, update_self]
      exact getElem?_concat_length
  · have call := inv.call
    have longer : s.posted.length < (Nvme.post s e).posted.length := lengths ▸ Nat.lt_succ_self _
    cases pc : s.pc <;> simp only [CallOk, pc, show (Nvme.post s e).pc = _ from pc] at call ⊢
    case idle | poll => exact call
    case copy => exact ⟨call.1, call.2.1, call.2.2.trans longer⟩
    case advance =>
      exact ⟨call.1, call.2.1, call.2.2.1.trans longer, fun x is => later _ x (call.2.2.2 x is)⟩
    case ring => exact ⟨call.1, fun x is => later _ x (call.2 x is)⟩
  · exact fun k x placed => later k x (inv.delivered k x placed)

lemma InStep.goto {pc : Pc} (call : CallOk { s with pc := pc }) : InStep n { s with pc := pc } :=
  ⟨inv.size, inv.head, inv.phase, inv.tail, inv.tag, inv.behind, inv.near, inv.tags, inv.stored,
    call, inv.delivered⟩

lemma InStep.advanced_head (positive : 0 < n) :
    (s.queue.advanced s.queue.cqHead).cqHead.toNat = (s.consumed + 1) % n ∧
      (s.queue.advanced s.queue.cqHead).phase = phaseByte (passTag n (s.consumed + 1)) := by
  have size := inv.size
  have small : n < 2 ^ 16 := size ▸ s.queue.numEntries.isLt
  have headIs : (BitVec.ofNat 16 ((s.queue.cqHead.toNat + 1) % s.queue.numEntries.toNat)).toNat =
      (s.consumed + 1) % n := by
    rw [size, inv.head, mod_succ, BitVec.toNat_ofNat]
    exact Nat.mod_eq_of_lt ((Nat.mod_lt _ positive).trans small)
  refine ⟨headIs, ?_⟩
  have zero : BitVec.ofNat 16 ((s.queue.cqHead.toNat + 1) % s.queue.numEntries.toNat) = 0 ↔
      (s.consumed + 1) % n = 0 := by
    rw [← headIs, ← BitVec.toNat_inj]
    exact Iff.rfl
  rw [passTag_succ positive, mod_succ]
  simp only [NvmeQueue.advanced, zero, inv.phase, phaseByte_not]
  split <;> rfl

lemma InStep.advance {s' : System} (positive : 0 < n)
    (step : advance s = some s') : InStep n s' := by
  have call := inv.call
  unfold Nvme.advance at step
  unfold CallOk at call
  split at step
  · cases step
  · next pc =>
      obtain rfl := some.inj step
      rw [pc] at call
      exact inv.goto call
  · next pc =>
      rw [pc] at call
      dsimp only at step
      split at step
      · next hit =>
          obtain rfl := some.inj step
          exact inv.goto ⟨call, rfl, (inv.hit_iff positive).mp hit⟩
      · obtain rfl := some.inj step
        exact inv.goto call
  · next head wanted pc =>
      obtain rfl := some.inj step
      rw [pc] at call
      obtain ⟨count, rfl, more⟩ := call
      refine inv.goto ⟨count, rfl, more, ?_⟩
      intro e is
      split at is
      · obtain rfl := some.inj is
        rw [inv.head]
        exact inv.stored s.consumed le_rfl more
      · cases is
  · next head result pc =>
      obtain rfl := some.inj step
      rw [pc] at call
      obtain ⟨count, rfl, more, copied⟩ := call
      obtain ⟨head, phase⟩ := inv.advanced_head positive
      refine ⟨inv.size, head, phase, inv.tail, inv.tag, more, ?_, inv.tags, ?_, ?_, inv.delivered⟩
      · have near := inv.near
        change s.posted.length ≤ s.consumed + 1 + n
        omega
      · intro i low high
        exact inv.stored i (Nat.le_of_succ_le low) high
      · exact ⟨congrArg (· + 1) count, fun e is => count.symm ▸ copied e is⟩
  · next result pc =>
      obtain rfl := some.inj step
      rw [pc] at call
      obtain ⟨count, copied⟩ := call
      refine ⟨inv.size, inv.head, inv.phase, inv.tail, inv.tag, inv.behind, inv.near, inv.tags,
        inv.stored, ?_, ?_⟩
      · exact (length_append ..).trans count
      intro k e placed
      rcases lt_or_ge k s.returned.length with before | last
      · rw [getElem?_append_left before] at placed
        exact inv.delivered k e placed
      · have bound := (List.getElem?_eq_some_iff.mp placed).1
        rw [length_append] at bound
        obtain rfl : k = s.returned.length := le_antisymm (Nat.le_of_lt_succ bound) last
        rw [getElem?_append_right (Nat.le_refl _), Nat.sub_self] at placed
        exact copied e (some.inj placed)

omit inv in
lemma advance_posted {s' : System} (step : Nvme.advance s = some s') : s'.posted = s.posted := by
  unfold Nvme.advance at step
  split at step
  · cases step
  · cases step
    rfl
  · dsimp only at step
    split at step <;> cases step <;> rfl
  · cases step
    rfl
  · cases step
    rfl
  · cases step
    rfl

lemma InStep.step {s' : System} (positive : 0 < n) (step : Step s s') : InStep n s' := by
  cases step with
  | call wanted idle =>
    have call := inv.call
    unfold CallOk at call
    rw [idle] at call
    exact inv.goto call
  | advance s' step => exact inv.advance positive step
  | post e room =>
    rw [inv.size] at room
    exact inv.post positive e room

omit inv

lemma Reachable.inStep {n : BitVec 16} (reach : Reachable n s) (positive : 0 < n.toNat) :
    InStep n.toNat s := by
  obtain ⟨kmalloc, qid, doorbell, -, run⟩ := reach
  induction run with
  | refl => exact inStep_initial kmalloc qid n doorbell
  | tail _ step ih => exact ih.step positive step

end Steps

/-- **Completions in order.**  The k-th call of `nvme_wait_completion` that returned 0 delivered the
k-th completion that the controller posted, and no poll succeeds when every posted completion has
been consumed. -/
theorem completions_in_order {n : BitVec 16} {s : System} (entries : 2 ≤ n.toNat)
    (reach : Reachable n s) :
    (∀ (k : Nat) (e : Cqe), s.returned[k]? = some (some e) → s.posted[k]? = some e) ∧
    s.returned.length ≤ s.posted.length ∧
    (∀ s', advance s = some s' → s.returned.length < s'.returned.length →
      s.returned.length < s.posted.length) ∧
    (s.consumed = s.posted.length → ∀ timeout wanted, s.pc = .poll (timeout + 1) wanted →
      advance s = some { s with pc := .poll timeout wanted }) := by
  have positive : 0 < n.toNat := by omega
  have inv := reach.inStep positive
  have few : ∀ t : System, InStep n.toNat t → t.returned.length ≤ t.posted.length := by
    intro t invT
    have call := invT.call
    have behind := invT.behind
    unfold CallOk at call
    split at call <;> omega
  refine ⟨inv.delivered, few s inv, ?_, ?_⟩
  · intro s' step more
    have after := few s' (inv.advance positive step)
    rw [advance_posted step] at after
    omega
  · intro all timeout wanted pc
    have miss : ¬(s.entries s.queue.cqHead.toNat).phase = s.queue.phase := by
      rw [inv.hit_iff positive, all]
      exact lt_irrefl _
    rw [advance, pc]
    exact if_neg miss

/-- A completion that is posted, and the call that takes it. -/
def deliver (s : System) (e : Cqe) : Option System :=
  (advance { post s e with pc := .poll 1000000 true }).bind fun s =>
    (advance s).bind fun s => (advance s).bind advance

lemma reach_deliver {s s' : System} {e : Cqe} (ran : deliver s e = some s') (idle : s.pc = .idle)
    (room : s.posted.length < s.consumed + s.queue.numEntries.toNat) :
    Relation.ReflTransGen Step s s' := by
  obtain ⟨s₁, one, ran⟩ := Option.bind_eq_some_iff.mp ran
  obtain ⟨s₂, two, ran⟩ := Option.bind_eq_some_iff.mp ran
  obtain ⟨s₃, three, four⟩ := Option.bind_eq_some_iff.mp ran
  have taken := (Relation.ReflTransGen.single (Step.post e room)).tail (Step.call true idle)
  exact (((taken.tail (.advance _ one)).tail (.advance _ two)).tail (.advance _ three)).tail
    (.advance _ four)

/-- Three completions on a queue of two entries, the third one with the other phase. -/
theorem completions_in_order_wrapped : ∃ s, Reachable 2 s ∧
    s.returned = [some ⟨7, 0, 1, 1, 5, 1⟩, some ⟨8, 0, 2, 1, 6, 1⟩, some ⟨9, 0, 1, 1, 7, 0⟩] ∧
    ∀ (k : Nat) (e : Cqe), s.returned[k]? = some (some e) → s.posted[k]? = some e := by
  have first := reach_deliver (s := initial (fun _ => 4096) 1 2 0) (e := ⟨7, 0, 1, 1, 5, 0⟩) rfl rfl
    (by decide)
  have second := first.trans (reach_deliver (e := ⟨8, 0, 2, 1, 6, 0⟩) rfl rfl (by decide))
  have third := second.trans (reach_deliver (e := ⟨9, 0, 1, 1, 7, 0⟩) rfl rfl (by decide))
  have reach : Reachable 2 _ := ⟨fun _ => 4096, 1, 0, by decide, third⟩
  exact ⟨_, reach, by decide, (completions_in_order (by decide) reach).1⟩

end AuroraOS.Nvme
