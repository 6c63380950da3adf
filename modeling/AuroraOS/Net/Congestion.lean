import Mathlib.Data.BitVec

/-!
# TCP congestion control

Model of `kernel/net/tcp_cong.c`.  `tcp_cong_socket_init` takes the first slot that looks free,
while all other functions use the slot that the socket id gives.
-/

namespace AuroraOS.Net.Congestion

open List Function

abbrev U32 := BitVec 32

def tcpMss : U32 := 1460
def tcpInitialCwnd : U32 := 2 * tcpMss
def tcpInitialSsthresh : U32 := 65535
def tcpRtoInitial : U32 := 1000
def tcpRtoMin : U32 := 200
def tcpRtoMax : U32 := 60000

inductive CongState
  | slowStart
  | avoidance
  | recovery
deriving DecidableEq, Repr

/-- `struct tcp_cong_data`, without the fields that nothing reads. -/
structure CongData where
  cwnd : U32 := 0
  ssthresh : U32 := 0
  rtt : U32 := 0
  rttvar : U32 := 0
  srto : U32 := 0
  rttSeq : U32 := 0
  rttTs : U32 := 0
  rttMeasuring : Bool := false
  dupAckCount : BitVec 32 := 0
  lastAck : U32 := 0
  recoverSeq : U32 := 0
  congState : CongState := .slowStart
  windowScale : Nat := 0
deriving DecidableEq

namespace CongData

variable (cd : CongData)

def inUse : Bool := !(cd.cwnd == 0 && cd.ssthresh == 0 && cd.srto == 0)

def initial : CongData where
  cwnd := tcpInitialCwnd
  ssthresh := tcpInitialSsthresh
  srto := tcpRtoInitial

def updateRtt (measuredRtt : U32) : CongData :=
  if measuredRtt = 0 then cd
  else
    let cd :=
      if cd.rtt = 0 then { cd with rtt := measuredRtt, rttvar := measuredRtt / 2 }
      else
        let diff := measuredRtt - cd.rtt
        let diff := if diff.slt 0 then -diff else diff
        { cd with
          rttvar := (3 * cd.rttvar + diff) / 4
          rtt := (7 * cd.rtt + measuredRtt) / 8 }
    let srto := cd.rtt + 4 * cd.rttvar
    let srto := if srto < tcpRtoMin then tcpRtoMin else srto
    { cd with srto := if tcpRtoMax < srto then tcpRtoMax else srto }

def countAck (ackSeq : U32) : CongData :=
  if ackSeq = cd.lastAck then { cd with dupAckCount := cd.dupAckCount + 1 }
  else if cd.lastAck < ackSeq then { cd with dupAckCount := 0, lastAck := ackSeq }
  else cd

def slowStart : CongData :=
  if cd.cwnd < cd.ssthresh then
    let cwnd := if cd.cwnd ≤ BitVec.allOnes 32 - tcpMss then cd.cwnd + tcpMss else cd.cwnd
    { cd with cwnd := if cd.ssthresh < cwnd then cd.ssthresh else cwnd }
  else { cd with congState := .avoidance }

/-- An ACK in congestion avoidance; the product of the segment sizes is computed in 64 bits. -/
def avoidance : CongData :=
  let increment := BitVec.ofNat 32 (tcpMss.toNat * tcpMss.toNat / cd.cwnd.toNat)
  { cd with cwnd := cd.cwnd + if increment = 0 then 1 else increment }

def halved : U32 := if cd.cwnd / 2 < 2 * tcpMss then 2 * tcpMss else cd.cwnd / 2

def fastRetransmit (ackSeq : U32) : CongData :=
  { cd with
    ssthresh := cd.halved
    cwnd := cd.halved + 3 * tcpMss
    congState := .recovery
    recoverSeq := ackSeq }

def onAck (ackSeq : U32) : CongData :=
  if cd.cwnd = 0 then cd
  else
    let cd := cd.countAck ackSeq
    let state := cd.congState
    let cd := if state = .slowStart then cd.slowStart else cd
    let cd := if cd.congState = .avoidance then cd.avoidance else cd
    let cd := if 3 ≤ cd.dupAckCount.toInt ∧ state ≠ .recovery then cd.fastRetransmit ackSeq else cd
    let cd := if state = .recovery ∧ 3 ≤ cd.dupAckCount.toInt then
      { cd with cwnd := cd.cwnd + tcpMss } else cd
    if state = .recovery ∧ cd.recoverSeq < ackSeq then
      { cd with cwnd := cd.ssthresh, congState := .avoidance, dupAckCount := 0 }
    else cd

def onTimeout : CongData :=
  if cd.cwnd = 0 then cd
  else
    let srto := cd.srto * 2
    { cd with
      ssthresh := cd.halved
      cwnd := tcpMss
      srto := if tcpRtoMax < srto then tcpRtoMax else srto
      congState := .slowStart
      dupAckCount := 0
      rttMeasuring := false }

def setWindowScale (shiftCnt : Int) : CongData :=
  if 0 ≤ shiftCnt ∧ shiftCnt ≤ 14 then { cd with windowScale := shiftCnt.toNat } else cd

def startRttMeasure (seq : U32) : CongData :=
  if cd.rttMeasuring then cd else { cd with rttSeq := seq, rttMeasuring := true, rttTs := 0 }

def completeRttMeasure (measuredRtt : U32) : CongData :=
  if cd.rttMeasuring then { cd.updateRtt measuredRtt with rttMeasuring := false } else cd

def effectiveWindow (rcvWindow : BitVec 16) : U32 :=
  let scaledRwnd : U32 := rcvWindow.setWidth 32 <<< cd.windowScale
  let effWin := if scaledRwnd < cd.cwnd then scaledRwnd else cd.cwnd
  if effWin < tcpMss then tcpMss else effWin

end CongData

/-! ## The table -/

def maxTcpCongSockets : Nat := 16

abbrev Slot := Fin maxTcpCongSockets

abbrev Table := Slot → CongData

def findSlot (sock : Nat) : Slot := ⟨sock % maxTcpCongSockets, Nat.mod_lt _ (by decide)⟩

def initSlot (t : Table) (sock : Nat) : Slot :=
  match (finRange maxTcpCongSockets).find? fun i => !(t i).inUse with
  | some i => i
  | none => findSlot sock

inductive Op
  | socketInit (sock : Nat)
  | onAck (sock : Nat) (ackSeq : U32)
  | onTimeout (sock : Nat)
  | setWindowScale (sock : Nat) (shiftCnt : Int)
  | startRttMeasure (sock : Nat) (seq : U32)
  | completeRttMeasure (sock : Nat) (measuredRtt : U32)

namespace Op

def sock : Op → Nat
  | socketInit sock => sock
  | onAck sock _ => sock
  | onTimeout sock => sock
  | setWindowScale sock _ => sock
  | startRttMeasure sock _ => sock
  | completeRttMeasure sock _ => sock

def apply : Op → CongData → CongData
  | socketInit _, _ => .initial
  | onAck _ ackSeq, cd => cd.onAck ackSeq
  | onTimeout _, cd => cd.onTimeout
  | setWindowScale _ shiftCnt, cd => cd.setWindowScale shiftCnt
  | startRttMeasure _ seq, cd => cd.startRttMeasure seq
  | completeRttMeasure _ measuredRtt, cd => cd.completeRttMeasure measuredRtt

def slot (t : Table) : Op → Slot
  | socketInit sock => initSlot t sock
  | op => findSlot op.sock

end Op

def Table.step (t : Table) (op : Op) : Table :=
  update t (op.slot t) (op.apply (t (op.slot t)))

def run (ops : List Op) : Table := ops.foldl Table.step fun _ => {}

def getRto (t : Table) (sock : Nat) : U32 := (t (findSlot sock)).srto

def getEffectiveWindow (t : Table) (sock : Nat) (rcvWindow : BitVec 16) : U32 :=
  (t (findSlot sock)).effectiveWindow rcvWindow

/-! ## Sockets of their own -/

/-- The data of a socket that only its own calls work on. -/
def solo (ops : List Op) (sock : Nat) : CongData :=
  ops.foldl (fun cd op => if op.sock = sock then op.apply cd else cd) {}

/-- A call works on the data that the socket's own initialisation and calls left, and changes the
windows, the threshold and the timeout of no other socket. -/
structure Separate (ops : List Op) : Prop where
  own : ∀ pre post, ops = pre ++ post → ∀ sock, sock < maxTcpCongSockets →
    run pre (findSlot sock) = solo pre sock
  others : ∀ pre op post, ops = pre ++ op :: post → ∀ sock, sock < maxTcpCongSockets →
    sock ≠ op.sock →
      (run (pre ++ [op]) (findSlot sock)).cwnd = (run pre (findSlot sock)).cwnd ∧
      (run (pre ++ [op]) (findSlot sock)).ssthresh = (run pre (findSlot sock)).ssthresh ∧
      getRto (run (pre ++ [op])) sock = getRto (run pre) sock ∧
      ∀ rcvWindow, getEffectiveWindow (run (pre ++ [op])) sock rcvWindow =
        getEffectiveWindow (run pre) sock rcvWindow

/-- The slots below that of the socket are in use and its own is free, or all are in use. -/
def Placed (t : Table) (sock : Nat) : Prop :=
  ((∀ i, i < findSlot sock → (t i).inUse = true) ∧ (t (findSlot sock)).inUse = false) ∨
    ∀ i, (t i).inUse = true

def InOrder (ops : List Op) : Prop :=
  ∀ pre sock post, ops = pre ++ .socketInit sock :: post → Placed (run pre) sock

variable {t : Table} {sock sock' : Nat} {op : Op} {ops pre post : List Op}

lemma findSlot_inj (low : sock < maxTcpCongSockets) (low' : sock' < maxTcpCongSockets) :
    findSlot sock = findSlot sock' ↔ sock = sock' := by
  unfold findSlot
  rw [Fin.mk.injEq, Nat.mod_eq_of_lt low, Nat.mod_eq_of_lt low']

lemma firstFree_eq {i : Slot} :
    ((finRange maxTcpCongSockets).find? fun i => !(t i).inUse) = some i ↔
      (t i).inUse = false ∧ ∀ j, j < i → (t j).inUse = true := by
  have first := find?_ofFn_eq_some_of_injective (f := fun i : Slot => i)
    (p := fun i => !(t i).inUse) (i := i) injective_id
  rw [finRange, first]
  simp

lemma initSlot_eq_iff : initSlot t sock = findSlot sock ↔ Placed t sock := by
  unfold initSlot
  cases found : (finRange maxTcpCongSockets).find? fun i => !(t i).inUse with
  | none =>
    refine ⟨fun _ => .inr fun i => ?_, fun _ => rfl⟩
    simpa using find?_eq_none.mp found i (mem_finRange i)
  | some i =>
    obtain ⟨free, below⟩ := firstFree_eq.mp found
    constructor
    · rintro rfl
      exact .inl ⟨below, free⟩
    rintro (⟨before, own⟩ | all)
    · rcases lt_trichotomy i (findSlot sock) with less | same | more
      · exact absurd (before i less) (by rw [free]; decide)
      · exact same
      · exact absurd (below _ more) (by rw [own]; decide)
    · exact absurd (all i) (by rw [free]; decide)

lemma inUse_initSlot (elsewhere : initSlot t sock ≠ findSlot sock) :
    (t (initSlot t sock)).inUse = false := by
  unfold initSlot at elsewhere ⊢
  cases found : (finRange maxTcpCongSockets).find? fun i => !(t i).inUse with
  | none =>
    rw [found] at elsewhere
    exact absurd rfl elsewhere
  | some i => exact (firstFree_eq.mp found).1

/-! ## Runs -/

lemma run_concat (pre : List Op) (op : Op) : run (pre ++ [op]) = (run pre).step op :=
  foldl_concat ..

lemma solo_concat (pre : List Op) (op : Op) (sock : Nat) : solo (pre ++ [op]) sock =
    if op.sock = sock then op.apply (solo pre sock) else solo pre sock :=
  foldl_concat ..

lemma InOrder.slot (inOrder : InOrder ops) (split : ops = pre ++ op :: post) :
    op.slot (run pre) = findSlot op.sock := by
  cases op with
  | socketInit sock => exact initSlot_eq_iff.mpr (inOrder pre sock post split)
  | onAck | onTimeout | setWindowScale | startRttMeasure | completeRttMeasure => rfl

lemma step_eq_solo (low : op.sock < maxTcpCongSockets)
    (own : ∀ sock, sock < maxTcpCongSockets → run pre (findSlot sock) = solo pre sock)
    (slot : op.slot (run pre) = findSlot op.sock) (sock : Nat) (low' : sock < maxTcpCongSockets) :
    run (pre ++ [op]) (findSlot sock) = solo (pre ++ [op]) sock := by
  rw [run_concat, solo_concat, Table.step, slot]
  by_cases same : op.sock = sock
  · subst same
    rw [update_self, if_pos rfl, own _ low]
  · have other : findSlot sock ≠ findSlot op.sock := fun slots =>
      same ((findSlot_inj low' low).mp slots).symm
    rw [update_of_ne other, if_neg same, own sock low']

lemma run_eq_solo (low : ∀ op ∈ ops, op.sock < maxTcpCongSockets) (inOrder : InOrder ops)
    (split : ops = pre ++ post) (sock : Nat) (low' : sock < maxTcpCongSockets) :
    run pre (findSlot sock) = solo pre sock := by
  induction pre using reverseRecOn generalizing post sock with
  | nil => rfl
  | append_singleton pre op ih =>
    rw [append_assoc, singleton_append] at split
    have mem : op ∈ ops := by
      rw [split]
      exact mem_append_right _ mem_cons_self
    exact step_eq_solo (low op mem) (ih split) (inOrder.slot split) sock low'

lemma InOrder.separate (low : ∀ op ∈ ops, op.sock < maxTcpCongSockets)
    (inOrder : InOrder ops) : Separate ops := by
  refine ⟨fun pre post split => run_eq_solo low inOrder split,
    fun pre op post split sock low' other => ?_⟩
  have before := run_eq_solo low inOrder split sock low'
  have behind : ops = (pre ++ [op]) ++ post := by rw [split, append_assoc]; rfl
  have after := run_eq_solo low inOrder behind sock low'
  rw [solo_concat, if_neg (Ne.symm other), ← before] at after
  rw [getRto, getRto, after]
  refine ⟨rfl, rfl, rfl, fun rcvWindow => ?_⟩
  rw [getEffectiveWindow, getEffectiveWindow, after]

/-- An initialisation that takes another slot changes the window of the socket there. -/
lemma Separate.inOrder (separate : Separate ops) : InOrder ops := by
  intro pre sock post split
  by_contra misplaced
  have elsewhere : initSlot (run pre) sock ≠ findSlot sock :=
    fun same => misplaced (initSlot_eq_iff.mp same)
  obtain ⟨victim, isVictim⟩ : ∃ victim, victim = initSlot (run pre) sock := ⟨_, rfl⟩
  have itself : findSlot victim = victim := Fin.ext (Nat.mod_eq_of_lt victim.isLt)
  have other : victim.val ≠ sock := by
    rintro rfl
    exact elsewhere (isVictim ▸ itself.symm)
  have window := (separate.others pre _ post split victim victim.isLt other).1
  have free := inUse_initSlot elsewhere
  rw [run_concat, itself, Table.step, Op.slot, ← isVictim, update_self] at window
  rw [← isVictim, CongData.inUse, ← window] at free
  cases free

/-- The sockets are separate exactly if every initialisation finds its own slot to be the first
free one, or no slot free. -/
theorem separate_iff (low : ∀ op ∈ ops, op.sock < maxTcpCongSockets) : Separate ops ↔ InOrder ops :=
  ⟨Separate.inOrder, InOrder.separate low⟩

/-- Two sockets that start in the order of their slots, with the numbers of one at the end. -/
def twoSockets : List Op :=
  [.socketInit 0, .socketInit 1, .onAck 0 0xFFFFFFFF, .onTimeout 1, .onAck 0 0]

/-- Two sockets, with different timeouts at the end. -/
theorem separate_iff_first : (∀ op ∈ twoSockets, op.sock < maxTcpCongSockets) ∧
    Separate twoSockets ∧ getRto (run twoSockets) 0 = 1000 ∧ getRto (run twoSockets) 1 = 2000 := by
  have low : ∀ op ∈ twoSockets, op.sock < maxTcpCongSockets := by
    intro op mem
    simp only [twoSockets, mem_cons, not_mem_nil, or_false] at mem
    rcases mem with rfl | rfl | rfl | rfl | rfl <;> decide
  refine ⟨low, (separate_iff low).mpr fun pre sock post split => ?_, by decide, by decide⟩
  rcases pre with _ | ⟨_, _ | ⟨_, _ | ⟨_, _ | ⟨_, _ | ⟨_, pre⟩⟩⟩⟩⟩
  · cases split
    exact .inl ⟨fun i below => absurd below (Nat.not_lt_zero _), rfl⟩
  · cases split
    exact .inl (by decide)
  · cases split
  · cases split
  · cases split
  · simp [twoSockets] at split

/-- Socket 1 is initialised first: slot 0 gets the data, and the timeout of socket 1 is 0. -/
theorem init_elsewhere : (∀ op ∈ [Op.socketInit 1], op.sock < maxTcpCongSockets) ∧
    getRto (run [.socketInit 1]) 1 = 0 ∧ getRto (run [.socketInit 1]) 0 = tcpRtoInitial ∧
    ¬ Separate [.socketInit 1] := by
  refine ⟨?_, by decide, by decide, fun separate => ?_⟩
  · intro op mem
    rw [mem_singleton.mp mem]
    decide
  · have own := separate.own [.socketInit 1] [] rfl 1 (by decide)
    exact absurd (congrArg CongData.cwnd own) (by decide)

/-! ## Shifted sequence numbers -/

inductive Event
  | ack (ackSeq : U32)
  | timeout

def Event.shift (k : U32) : Event → Event
  | ack ackSeq => ack (ackSeq + k)
  | timeout => timeout

namespace CongData

variable (cd : CongData) (k : U32)

def handle (cd : CongData) : Event → CongData
  | .ack ackSeq => cd.onAck ackSeq
  | .timeout => cd.onTimeout

def react (events : List Event) : CongData := events.foldl handle cd

def shift : CongData := { cd with lastAck := cd.lastAck + k, recoverSeq := cd.recoverSeq + k }

end CongData

structure Alike (cd cd' : CongData) : Prop where
  cwnd : cd.cwnd = cd'.cwnd
  ssthresh : cd.ssthresh = cd'.ssthresh
  dupAckCount : cd.dupAckCount = cd'.dupAckCount
  congState : cd.congState = cd'.congState

/-- The shift carries an acknowledgement over the end of the sequence numbers if and only if it
does so to the numbers that it is compared with: the last one, and in recovery `recover_seq`. -/
def Event.Together (k : U32) (cd : CongData) : Event → Prop
  | ack ackSeq => cd.lastAck.uaddOverflow k = ackSeq.uaddOverflow k ∧
      (cd.congState = .recovery → cd.recoverSeq.uaddOverflow k = ackSeq.uaddOverflow k)
  | timeout => True

section Shift

variable {k x y ackSeq : U32} {cd : CongData} {event : Event} {events before after : List Event}

lemma add_lt_add_iff (same : x.uaddOverflow k = y.uaddOverflow k) : x + k < y + k ↔ x < y := by
  simp only [BitVec.uaddOverflow, ge_iff_le, decide_eq_decide] at same
  rw [BitVec.lt_def, BitVec.lt_def, BitVec.toNat_add, BitVec.toNat_add]
  omega

lemma ite_shift {p q : Prop} [Decidable p] [Decidable q] {yes no yes' no' : CongData}
    (same : p ↔ q) (first : yes = yes'.shift k) (second : no = no'.shift k) :
    (if p then yes else no) = (if q then yes' else no').shift k := by
  rw [first, second, apply_ite (CongData.shift · k)]
  exact if_congr same rfl rfl

lemma countAck_shift (same : cd.lastAck.uaddOverflow k = ackSeq.uaddOverflow k) :
    (cd.shift k).countAck (ackSeq + k) = (cd.countAck ackSeq).shift k :=
  ite_shift (add_left_inj k) rfl (ite_shift (add_lt_add_iff same) rfl rfl)

lemma slowStart_shift : (cd.shift k).slowStart = cd.slowStart.shift k :=
  ite_shift Iff.rfl rfl rfl

lemma countAck_congState (cd : CongData) (ackSeq : U32) :
    (cd.countAck ackSeq).congState = cd.congState ∧
    (cd.countAck ackSeq).recoverSeq = cd.recoverSeq := by
  unfold CongData.countAck
  split
  · exact ⟨rfl, rfl⟩
  · split <;> exact ⟨rfl, rfl⟩

/-- An event that is carried over the end together with the state commutes with the shift. -/
lemma handle_shift (together : event.Together k cd) :
    (cd.shift k).handle (event.shift k) = (cd.handle event).shift k := by
  cases event with
  | timeout => exact ite_shift Iff.rfl rfl rfl
  | ack ackSeq =>
    obtain ⟨last, recover⟩ := together
    obtain ⟨state, seq⟩ := countAck_congState cd ackSeq
    rw [← state, ← seq] at recover
    have counted := countAck_shift last
    rw [CongData.handle, Event.shift, CongData.handle, CongData.onAck, CongData.onAck]
    refine ite_shift Iff.rfl rfl ?_
    rw [counted]
    generalize cd.countAck ackSeq = cd₁ at recover
    extract_lets b₁ phase' b₂ b₃ b₄ b₅ a₁ phase a₂ a₃ a₄ a₅
    have slow : b₂ = a₂.shift k := ite_shift Iff.rfl slowStart_shift rfl
    have avoid : b₃ = a₃.shift k := ite_shift (by rw [slow]; rfl) (by rw [slow]; rfl) slow
    have retransmit : b₄ = a₄.shift k := ite_shift (by rw [avoid]; rfl) (by
      rw [avoid]
      simp only [CongData.fastRetransmit, CongData.halved, CongData.shift]
      rfl) avoid
    have grow : b₅ = a₅.shift k :=
      ite_shift (by rw [retransmit]; rfl) (by rw [retransmit]; rfl) retransmit
    have kept (recovers : phase = .recovery) : a₅.recoverSeq = cd₁.recoverSeq := by
      have still : cd₁.congState = .recovery := recovers
      simp only [a₅, a₄, a₃, a₂, a₁, phase, still, reduceCtorEq, if_false, ne_eq,
        not_true_eq_false, and_false]
      split <;> rfl
    refine ite_shift ?_ (by rw [grow]; rfl) grow
    rw [grow]
    exact and_congr_right fun recovers =>
      add_lt_add_iff ((congrArg (BitVec.uaddOverflow · k) (kept recovers)).trans (recover recovers))

/-- Every event is carried over the end together with the state that it meets. -/
def Together (k : U32) (cd : CongData) (events : List Event) : Prop :=
  ∀ before event after, events = before ++ event :: after → event.Together k (cd.react before)

lemma react_shift (together : Together k cd events) (split : events = before ++ after) :
    (cd.shift k).react (before.map (Event.shift k)) = (cd.react before).shift k := by
  induction before using reverseRecOn generalizing after with
  | nil => rfl
  | append_singleton before event ih =>
    rw [append_assoc, singleton_append] at split
    rw [CongData.react, CongData.react, map_append, foldl_append, foldl_append, map_singleton]
    have earlier := ih split
    rw [CongData.react, CongData.react] at earlier
    rw [earlier]
    exact handle_shift (together before event after split)

/-- A shift of all sequence numbers leaves the windows, the count of duplicates and the phase alone
where the acknowledgements are carried over the end of the sequence numbers together with the
numbers they are compared with. -/
theorem alike_of_together (together : Together k cd events) (split : events = before ++ after) :
    Alike ((cd.shift k).react (before.map (Event.shift k))) (cd.react before) := by
  rw [react_shift together split]
  exact ⟨rfl, rfl, rfl, rfl⟩

end Shift

/-- Three duplicates that start a recovery, the acknowledgement that ends it, and a timeout. -/
def recovering : List Event := [.ack 0xFFFFFFF0, .ack 0xFFFFFFF0, .ack 0xFFFFFFF0, .ack 0xFFFFFFF8,
  .timeout]

def nearEnd : CongData := { CongData.initial with lastAck := 0xFFFFFFF0 }

/-- The shift by 32 carries all numbers of the run over the end. -/
theorem alike_of_together_initial : Together 32 nearEnd recovering ∧
    (nearEnd.react (recovering.take 3)).congState = .recovery ∧
    recovering.map (Event.shift 32) = [.ack 16, .ack 16, .ack 16, .ack 24, .timeout] ∧
    Alike ((nearEnd.shift 32).react (recovering.map (Event.shift 32)))
      (nearEnd.react recovering) := by
  have together : Together 32 nearEnd recovering := by
    intro before event after split
    rcases before with _ | ⟨_, _ | ⟨_, _ | ⟨_, _ | ⟨_, _ | ⟨_, before⟩⟩⟩⟩⟩
    case cons.cons.cons.cons.cons => simp [recovering] at split
    all_goals cases split
    case cons.cons.cons.cons.nil => trivial
    all_goals exact ⟨rfl, by decide⟩
  exact ⟨together, by decide, rfl, alike_of_together together (append_nil _).symm⟩

/-- A socket that is started, gets a duplicate and then a new acknowledgement: when its numbers
start at the end of the sequence numbers, the new one counts as old. -/
theorem shift_over_end :
    ¬ Alike (((run [.socketInit 0] (findSlot 0)).shift (-1)).react [.ack (0 + -1), .ack (1 + -1)])
      ((run [.socketInit 0] (findSlot 0)).react [.ack 0, .ack 1]) := by
  intro alike
  exact absurd alike.dupAckCount (by decide)

end AuroraOS.Net.Congestion
