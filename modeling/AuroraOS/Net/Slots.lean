import AuroraOS.Net.Safety

/-!
# The slots of TCP sockets

`tcp_socket_create` and a SYN for a listener take the first slot that is not in use; nothing ever
clears `in_use`.
-/

namespace AuroraOS.Net

open Lib List
open Tcp (Ip Port Seq Flags NetIf Slot TcpState maxTcpSockets)

/-- The slots in use stay in use, and nothing is written to a slot that is not. -/
structure Kept (s s' : Stack) : Prop where
  used : ∀ i, (s.tcpSockets i).inUse = true → (s'.tcpSockets i).inUse = true
  unused : ∀ i, (s'.tcpSockets i).inUse = false → s'.tcpSockets i = s.tcpSockets i

namespace Kept

variable {s s' s'' : Stack}

lemma of_eq (same : s'.tcpSockets = s.tcpSockets) : Kept s s' :=
  ⟨fun i used => by rw [same]; exact used, fun i _ => by rw [same]⟩

lemma trans (first : Kept s s') (second : Kept s' s'') : Kept s s'' := by
  refine ⟨fun i used => second.used i (first.used i used), fun i unused => ?_⟩
  have same := second.unused i unused
  rw [same] at unused ⊢
  exact first.unused i unused

lemma setTcp (i : Slot) {t : TcpSocket} (used : t.inUse = true) : Kept s (s.setTcp i t) := by
  constructor
  · intro j usedBefore
    rcases eq_or_ne j i with rfl | other
    · rwa [Stack.setTcp_self]
    · rwa [Stack.setTcp_of_ne s other]
  · intro j unused
    rcases eq_or_ne j i with rfl | other
    · rw [Stack.setTcp_self, used] at unused
      cases unused
    · exact Stack.setTcp_of_ne s other t

end Kept

namespace Stack

variable {s : Stack} {frame : List UInt8} {data : Nat} {len : Int}

lemma same_kept : Yields (.ok s) (Kept s) := .ok (.of_eq rfl)

lemma check_kept {c : Prop} [Decidable c] {x : Checked Stack} (rest : Yields x (Kept s)) :
    Yields (if c then .ok s else x) (Kept s) :=
  .ite (fun _ => same_kept) fun _ => rest

/-! ## Sending -/

variable {i l : Slot}

lemma kept_tcpSendPacket (env : Env) (used : (s.tcpSockets i).inUse = true)
    (flags : Flags) (bytes : List UInt8) : Kept s (s.tcpSendPacket env i flags bytes).2 := by
  unfold tcpSendPacket
  dsimp only
  split
  · exact .of_eq rfl
  split
  · exact .of_eq rfl
  have passed : Kept s (s.ipSend env (s.tcpSockets i).remoteIp ipProtoTcp
      (((s.tcpSockets i).segment flags bytes).bytes env.sum)).2 :=
    .of_eq (s.ipSend_same ..).1
  split
  · exact passed.trans (.setTcp i used)
  · exact passed

/-! ## Frames -/

lemma arpHandlePacket_kept : Yields (s.arpHandlePacket frame data len) (Kept s) := by
  unfold arpHandlePacket
  refine check_kept <| .after fun htype => ?_
  refine check_kept <| .after fun ptype => ?_
  refine check_kept <| .after fun hlen => .after fun plen => ?_
  refine check_kept <| .after fun oper => ?_
  refine .ite (fun _ => .after fun tpa => ?_) fun _ => .ite (fun _ => ?_) fun _ => same_kept
  · split
    · exact same_kept
    · exact check_kept <| .after fun sha => .after fun spa => .ok (.of_eq rfl)
  · exact .after fun spa => .after fun sha => .ok (.of_eq rfl)

variable {srcIp : Nat}

lemma icmpHandlePacket_kept (env : Env) :
    Yields (s.icmpHandlePacket env frame srcIp data len) (Kept s) := by
  unfold icmpHandlePacket
  refine check_kept <| .after fun csum => ?_
  refine check_kept <| .after fun type => .after fun code => ?_
  refine .ite (fun _ => .ite (fun _ => same_kept) fun _ => ?_) fun _ => same_kept
  refine .after fun bytes => .after fun sum => .after fun src => .ok (.of_eq ?_)
  exact (s.ipSend_same ..).1

lemma udpHandlePacket_kept : Yields (s.udpHandlePacket frame srcIp data len) (Kept s) := by
  unfold udpHandlePacket
  refine check_kept <| .after fun dstPort => .after fun srcPort => ?_
  split
  · exact same_kept
  · exact .after fun rxBuf => .after fun src => .ok (.of_eq rfl)

variable {sock : TcpSocket}

lemma copyData_inUse (used : sock.inUse = true) (payload : Nat) :
    Yields (copyData frame sock payload len) fun t => t.inUse = true := by
  unfold copyData
  exact .ite (fun _ => .after fun bytes => .after fun rxBuf => .ok used) fun _ => .ok used

lemma handleSegment_inUse (used : sock.inUse = true) (flags : Flags) (seq : Seq) (payload : Nat) :
    Yields (handleSegment frame sock flags seq payload len) fun out => out.1.inUse = true := by
  unfold handleSegment
  split
  case h_3 =>
    refine .ite (fun _ => .ok used) fun _ => .ite (fun _ => .ok used) fun _ => ?_
    refine .ite (fun _ => .bind ?_ fun t usedToo => .ok usedToo)
      fun _ => .ok used
    exact (copyData_inUse used payload).bind fun t usedToo => .ok usedToo
  all_goals
    repeat' first
      | exact .ok used
      | refine .ite (fun _ => ?_) fun _ => ?_

lemma addPending_inUse {listener : TcpSocket} (used : listener.inUse = true) (newId : Nat) :
    Yields (addPending listener newId) fun t => t.inUse = true := by
  unfold addPending
  exact .ite (fun _ => .after fun ids => .ok used) fun _ => .ok used

lemma enqueue_kept (env : Env) (iss : Seq) (newId : Nat) (flags : Flags)
    {t : TcpSocket} (taken : t.inUse = true) (used : (s.tcpSockets l).inUse = true) :
    Yields
      (do let listener ← addPending ((s.setTcp i t).tcpSockets l) newId
          return (({ s.setTcp i t with iss := iss }.setTcp l listener).tcpSendPacket env i
            flags []).2)
      (Kept s) := by
  have opened : Kept s { s.setTcp i t with iss := iss } :=
    (Kept.setTcp i taken).trans (.of_eq rfl)
  have present : ({ s.setTcp i t with iss := iss }.tcpSockets i).inUse = true := by
    have is : (s.setTcp i t).tcpSockets i = t := s.setTcp_self i t
    exact (congrArg TcpSocket.inUse is).trans taken
  refine (addPending_inUse (opened.used l used) newId).bind fun listener usedToo => .ok ?_
  have queued : Kept { s.setTcp i t with iss := iss }
      ({ s.setTcp i t with iss := iss }.setTcp l listener) := .setTcp l usedToo
  exact opened.trans (queued.trans (kept_tcpSendPacket env (queued.used i present) _ _))

lemma openPassive_kept (env : Env) (srcIp : Ip) (srcPort dstPort : Port) (seq : Seq)
    (used : (s.tcpSockets l).inUse = true) :
    Yields (s.openPassive env srcIp srcPort dstPort seq l) (Kept s) := by
  unfold openPassive
  dsimp only
  refine .ite (fun _ => .ok (.of_eq rfl)) fun _ => ?_
  have numbered : Kept s { s with nextId := s.bumpId } := .of_eq rfl
  split
  · exact .ok numbered
  · intro s' done
    exact numbered.trans (enqueue_kept env _ _ _ rfl (numbered.used l used) s' done)

lemma dispatch_inUse {srcIp dstIp : Ip} {srcPort dstPort : Port}
    (found : s.dispatch srcIp srcPort dstIp dstPort = some i) :
    (s.tcpSockets i).inUse = true := by
  unfold dispatch at found
  split at found
  · rename_i j first
    cases found
    have is := findSlot_some first
    simp only [Bool.and_eq_true] at is
    exact is.1.1.1.1
  · have is := findSlot_some found
    simp only [Bool.and_eq_true] at is
    exact is.1.1.1.1

lemma tcpHandlePacket_kept (env : Env) {dstIp : Nat} :
    Yields (s.tcpHandlePacket env frame srcIp dstIp data len) (Kept s) := by
  unfold tcpHandlePacket
  refine check_kept <| .after fun offsetFlags => ?_
  refine check_kept <| .after fun srcPort => .after fun dstPort => ?_
  refine .after fun seq => .after fun srcAddr => .after fun dstAddr => ?_
  split
  · rename_i i found
    have used := dispatch_inUse found
    refine (handleSegment_inUse used _ _ _).bind fun out usedToo => .ok ?_
    have stored : Kept s (s.setTcp i out.1) := .setTcp i usedToo
    split
    · exact stored.trans (kept_tcpSendPacket env (stored.used i used) _ _)
    · exact stored
  · split
    · exact same_kept
    · rename_i l found
      refine .ite (fun _ => ?_) fun _ => same_kept
      have used := findSlot_some found
      simp only [Bool.and_eq_true] at used
      exact openPassive_kept env _ _ _ _ used.1.1

lemma ipHandlePacket_kept (env : Env) :
    Yields (s.ipHandlePacket env frame data len) (Kept s) := by
  unfold ipHandlePacket
  refine check_kept <| .after fun versionIhl => ?_
  refine check_kept <| .after fun totalLen => ?_
  refine check_kept <| .after fun csum => ?_
  refine check_kept <| .after fun dstIp => ?_
  refine check_kept <| .after fun protocol => ?_
  refine .ite (fun _ => icmpHandlePacket_kept env) fun _ => ?_
  exact .ite (fun _ => udpHandlePacket_kept) fun _ =>
    .ite (fun _ => tcpHandlePacket_kept env) fun _ => same_kept

lemma processEthFrame_kept (env : Env) : Yields (s.processEthFrame env frame) (Kept s) := by
  unfold processEthFrame
  refine check_kept <| .after fun ethertype => ?_
  refine .ite (fun _ => arpHandlePacket_kept) fun _ => ?_
  exact .ite (fun _ => ipHandlePacket_kept env) fun _ => same_kept

/-! ## Socket calls -/

lemma withSocket_kept {sock : Int} {f : Slot → TcpSocket → Checked (Int × Stack)}
    (call : ∀ i, (s.tcpSockets i).inUse = true →
      Yields (f i (s.tcpSockets i)) fun out => Kept s out.2) :
    Yields ((s.withSocket sock f).map (·.2)) (Kept s) := by
  refine .map ?_
  unfold withSocket
  split
  · rename_i i found
    have used := findSlot_some found
    rw [Bool.and_eq_true] at used
    exact call i used.1
  · exact .ok (.of_eq rfl)

lemma kept_tcpSocketCreate : Kept s s.tcpSocketCreate.2 := by
  unfold tcpSocketCreate
  split
  · exact (Kept.setTcp _ rfl).trans (.of_eq rfl)
  · exact .of_eq rfl

lemma startClose_kept (env : Env) (used : (s.tcpSockets i).inUse = true) (state : TcpState) :
    Yields (s.startClose env i (s.tcpSockets i) state) fun out => Kept s out.2 := by
  have stored : Kept s (s.setTcp i { s.tcpSockets i with state := state }) := .setTcp i used
  exact .ok (stored.trans (kept_tcpSendPacket env (stored.used i used) _ _))

lemma tcpConnect_kept (env : Env) (sock : Int) (dstIp : Ip) (dstPort : Port) :
    Yields ((s.tcpConnect env sock dstIp dstPort).map (·.2)) (Kept s) := by
  refine withSocket_kept fun i used => .ite (fun _ => .ok (.of_eq rfl)) fun _ => ?_
  split
  · exact .ok (.of_eq rfl)
  · have opened {t : TcpSocket} (taken : t.inUse = true) (iss : Seq) :
        Kept s { s.setTcp i t with iss := iss } := (Kept.setTcp i taken).trans (.of_eq rfl)
    refine .ok ((opened (by exact used) _).trans (kept_tcpSendPacket env ?_ _ _))
    exact (opened (by exact used) _).used i used

lemma call_kept (env : Env) (call : Call) : Yields (s.call env call) (Kept s) := by
  have same {n : Int} : Yields (.ok (n, s)) fun out => Kept s out.2 := .ok (.of_eq rfl)
  cases call with
  | create => exact .ok kept_tcpSocketCreate
  | bind sock port => exact withSocket_kept fun i used => .ok (.setTcp i used)
  | connect sock dstIp dstPort => exact tcpConnect_kept env sock dstIp dstPort
  | send sock bytes =>
    refine withSocket_kept fun i used => .ite (fun _ => same) fun _ => ?_
    exact .ite (fun _ => same) fun _ => .ok (kept_tcpSendPacket env used _ _)
  | recv sock maxLen =>
    refine withSocket_kept fun i used => .ite (fun _ => same) fun _ => ?_
    refine .after fun bytes => .ite (fun _ => ?_) fun _ => .ok (.setTcp i used)
    exact .after fun rest => .after fun rxBuf => .ok (.setTcp i used)
  | close sock =>
    refine withSocket_kept fun i used => ?_
    split
    · exact startClose_kept env used _
    · exact startClose_kept env used _
    · exact same
    · exact same
  | shutdown sock =>
    refine withSocket_kept fun i used => ?_
    split
    · exact startClose_kept env used _
    · exact startClose_kept env used _
    · exact same
  | listen sock backlog => exact withSocket_kept fun i used => .ok (.setTcp i used)
  | accept sock =>
    refine withSocket_kept fun i used => .ite (fun _ => same) fun _ => ?_
    refine .ite (fun _ => same) fun _ => .after fun accepted => ?_
    exact .after fun rest => .after fun ids => .ok (.setTcp i used)
  | udpSend srcPort dstIp dstPort bytes => exact .ok (.of_eq (s.udpSend_same ..).1)
  | udpRecvfrom port maxLen =>
    refine .map ?_
    unfold udpRecvfrom
    refine .ite (fun _ => .ok (.of_eq rfl)) fun _ => ?_
    split
    · exact .ok (.of_eq rfl)
    · exact .after fun bytes => .ok (.of_eq rfl)
  | configure netIfs => exact .ok (.of_eq rfl)

end Stack

/-! ## Runs -/

inductive Event
  | frame (env : Env) (bytes : List UInt8)
  | call (env : Env) (call : Call)

def Stack.event (s : Stack) : Event → Checked Stack
  | .frame env bytes => s.processEthFrame env bytes
  | .call env call => s.call env call

/-- What is known of a slot beside the socket in it: that its connection has been closed by both
ends, and that its owner has closed it. -/
structure Past where
  ended : Bool := false
  closed : Bool := false
deriving DecidableEq

/-- The event is a `tcp_close` of the socket in this slot that returns 0. -/
def closes (s : Stack) (i : Slot) : Event → Bool
  | .call env (.close sock) =>
    s.tcpFindSocket sock == some i && (s.tcpClose env sock).toOption.any fun out => out.1 == 0
  | _ => false

/-- The past of the slots after an event from `s` to `s'`.  A connection has been closed by both
ends in `TIME_WAIT`, and once it was closed from `LAST_ACK`; a socket that is used again after
either is open again. -/
def track (s s' : Stack) (event : Event) (past : Slot → Past) : Slot → Past := fun i =>
  let state := (s'.tcpSockets i).state
  { ended := match state with
      | .timeWait => true
      | .closed => (past i).ended || (s.tcpSockets i).state == .lastAck
      | _ => false
    closed := match state with
      | .listen | .synSent | .synReceived | .established => false
      | _ => (past i).closed || closes s i event }

def run : List Event → Stack × (Slot → Past) → Checked (Stack × (Slot → Past))
  | [], now => .ok now
  | event :: rest, (s, past) => do
    let s' ← s.event event
    run rest (s', track s s' event past)

/-- The sockets that are open: neither closed by their owner nor by both ends. -/
def openSockets (s : Stack) (past : Slot → Past) : Nat :=
  (finRange maxTcpSockets).countP fun i => (s.tcpSockets i).inUse && past i == {}

/-- A slot whose connection was closed by both ends becomes available again, and with fewer than
`MAX_TCP_SOCKETS` sockets open one more can be created. -/
structure Recycles (now : Stack × (Slot → Past)) : Prop where
  again : ∀ i, (now.2 i).ended = true →
    ∃ events later, run events now = .ok later ∧ (later.1.tcpSockets i).inUse = false
  creates : openSockets now.1 now.2 < maxTcpSockets → now.1.tcpSocketCreate.1 ≠ -1

/-- No connection has been closed by both ends, and no socket has been closed by its owner if all
slots are in use. -/
structure Recyclable (now : Stack × (Slot → Past)) : Prop where
  none : ∀ i, (now.2 i).ended = false
  full : (∀ i, (now.1.tcpSockets i).inUse = true) → ∀ i, (now.2 i).closed = false

lemma Kept.event {s : Stack} (event : Event) : Yields (s.event event) (Kept s) := by
  cases event with
  | frame env bytes => exact Stack.processEthFrame_kept env
  | call env call => exact Stack.call_kept env call

lemma Kept.run (events : List Event) (now : Stack × (Slot → Past)) :
    Yields (run events now) fun later => Kept now.1 later.1 := by
  induction events generalizing now with
  | nil => exact .ok (.of_eq rfl)
  | cons event rest ih =>
    refine (Kept.event event).bind fun s' kept => ?_
    intro later done
    exact kept.trans (ih _ later done)

/-- A slot that is not in use is closed, and none that is not has been closed by both ends. -/
structure Tidy (now : Stack × (Slot → Past)) : Prop where
  closed : ∀ i, (now.1.tcpSockets i).inUse = false → (now.1.tcpSockets i).state = .closed
  ended : ∀ i, (now.2 i).ended = true → (now.1.tcpSockets i).inUse = true

lemma Tidy.step {s s' : Stack} {past : Slot → Past} (tidy : Tidy (s, past))
    (kept : Kept s s') (event : Event) : Tidy (s', track s s' event past) := by
  have closed (i : Slot) (unused : (s'.tcpSockets i).inUse = false) :
      (s'.tcpSockets i) = s.tcpSockets i ∧ (s.tcpSockets i).state = .closed := by
    have same := kept.unused i unused
    rw [same] at unused
    exact ⟨same, tidy.closed i unused⟩
  refine ⟨fun i unused => ?_, fun i is => ?_⟩
  · rw [(closed i unused).1]
    exact (closed i unused).2
  by_contra unused
  rw [Bool.not_eq_true] at unused
  obtain ⟨same, was⟩ := closed i unused
  simp only [track, same, was] at is
  rw [Bool.or_eq_true] at is
  rcases is with is | is
  · have used := tidy.ended i is
    rw [same, used] at unused
    cases unused
  · cases is

lemma Tidy.run (events : List Event) {now : Stack × (Slot → Past)} (tidy : Tidy now) :
    Yields (run events now) Tidy := by
  induction events generalizing now with
  | nil => exact .ok tidy
  | cons event rest ih =>
    exact (Kept.event event).bind fun s' kept => ih (tidy.step kept event)

/-- `tcp_socket_create` fails exactly when every slot is in use. -/
lemma tcpSocketCreate_fails (s : Stack) :
    s.tcpSocketCreate.1 = -1 ↔ ∀ i, (s.tcpSockets i).inUse = true := by
  unfold Stack.tcpSocketCreate
  split
  · rename_i i found
    refine iff_of_false (by simp only; omega) fun all => ?_
    have unused := Stack.findSlot_some found
    rw [all i] at unused
    cases unused
  · rename_i none
    refine iff_of_true rfl fun i => ?_
    simpa using find?_eq_none.mp none i (mem_finRange i)

lemma openSockets_eq {s : Stack} {past : Slot → Past} (all : ∀ i, (s.tcpSockets i).inUse = true) :
    openSockets s past < maxTcpSockets ↔ ∃ i, past i ≠ {} := by
  have most : openSockets s past ≤ maxTcpSockets := countP_le_length.trans_eq (length_finRange ..)
  have every : openSockets s past = maxTcpSockets ↔ ∀ i, past i = {} := by
    have count := @countP_eq_length _ (finRange maxTcpSockets)
      fun i => (s.tcpSockets i).inUse && past i == {}
    rw [length_finRange] at count
    rw [openSockets, count]
    simp [all]
  rw [← not_forall, ← every]
  omega

/-- A slot that is closed by both ends is never given back, and neither is one whose owner has
closed it; as long as there is none, the slots in use are the open ones. -/
theorem recycles_iff {s : Stack} (fresh : s.Fresh) (events : List Event)
    {now : Stack × (Slot → Past)} (done : run events (s, fun _ => {}) = .ok now) :
    Recycles now ↔ Recyclable now := by
  have start : Tidy (s, fun _ => {}) :=
    ⟨fun i _ => by rw [fresh.tcp i], fun i is => by cases is⟩
  have tidy := start.run events now done
  constructor
  · intro recycles
    refine ⟨fun i => ?_, fun all i => ?_⟩
    · by_contra is
      rw [Bool.not_eq_false] at is
      obtain ⟨more, later, runs, unused⟩ := recycles.again i is
      rw [(Kept.run more now later runs).used i (tidy.ended i is)] at unused
      cases unused
    · by_contra is
      have few : openSockets now.1 now.2 < maxTcpSockets :=
        (openSockets_eq all).mpr ⟨i, fun same => is (by rw [same])⟩
      exact recycles.creates few ((tcpSocketCreate_fails now.1).mpr all)
  · rintro ⟨none, full⟩
    refine ⟨fun i is => absurd ((none i).symm.trans is) (by decide), fun few fails => ?_⟩
    have all := (tcpSocketCreate_fails now.1).mp fails
    obtain ⟨i, some⟩ := (openSockets_eq all).mp few
    have ended := none i
    have closed := full all i
    generalize now.2 i = past at some ended closed
    cases past
    subst ended closed
    exact some rfl

def answer (flags : UInt8) : List UInt8 :=
  replicate 12 0xFF ++ [8, 0] ++
    [0x45, 0, 0, 40, 0, 0, 0, 0, 64, 6, 98, 192, 10, 0, 2, 2, 10, 0, 2, 15] ++
    [0, 80, 192, 1, 0, 0, 0, 7, 0, 0, 0, 0, 0x50, flags, 0, 0, 0, 0, 0, 0]

def closedThenFifteen : List Event :=
  let env : Env := ⟨true, true, 0⟩
  [.call env .create, .call env (.connect 1 0x0A000202 80), .frame env (answer 0x12),
    .frame env (answer 0x11), .call env (.close 1), .frame env (answer 0x10)] ++
  replicate 15 (.call env .create)

def firstSlot : Slot := ⟨0, by decide⟩

lemma run_closedThenFifteen :
    ∃ now, run closedThenFifteen (freshStack, fun _ => {}) = .ok now ∧
      (now.2 firstSlot).ended = true ∧ openSockets now.1 now.2 = 15 ∧
      now.1.tcpSocketCreate.1 = -1 := by
  have value : (run closedThenFifteen (freshStack, fun _ => {})).toOption.any (fun now =>
      (now.2 firstSlot).ended && openSockets now.1 now.2 == 15 && now.1.tcpSocketCreate.1 == -1) =
        true := by
    decide +kernel
  cases runs : run closedThenFifteen (freshStack, fun _ => {}) with
  | error fault =>
    rw [runs] at value
    cases value
  | ok now =>
    rw [runs] at value
    simp only [Except.toOption, Option.any_some, Bool.and_eq_true, beq_iff_eq] at value
    exact ⟨now, rfl, value.1.1, value.1.2, value.2⟩

/-- The connection in the first slot has been closed by both ends and fifteen sockets are open,
but there is no slot for a sixteenth. -/
theorem closed_slot_stays_taken :
    ∃ now, run closedThenFifteen (freshStack, fun _ => {}) = .ok now ∧
      (now.2 firstSlot).ended = true ∧ openSockets now.1 now.2 = 15 ∧
      now.1.tcpSocketCreate.1 = -1 ∧ ¬Recycles now := by
  obtain ⟨now, done, ended, fifteen, fails⟩ := run_closedThenFifteen
  refine ⟨now, done, ended, fifteen, fails, fun recycles => ?_⟩
  have few : openSockets now.1 now.2 < maxTcpSockets := by
    rw [fifteen]
    decide
  exact recycles.creates few fails

def twoThenClose : List Event :=
  let env : Env := ⟨true, true, 0⟩
  [.call env .create, .call env .create, .call env (.close 1)]

/-- One of two sockets has been closed, and there are slots left. -/
theorem recycles_iff_twoThenClose :
    ∃ now, freshStack.Fresh ∧ run twoThenClose (freshStack, fun _ => {}) = .ok now ∧
      (now.2 firstSlot).closed = true ∧ Recycles now := by
  have fresh : freshStack.Fresh := ⟨fun _ => rfl, fun _ => rfl⟩
  refine ⟨_, fresh, rfl, by decide, (recycles_iff fresh twoThenClose rfl).mpr ⟨by decide, ?_⟩⟩
  exact fun all => absurd (all ⟨2, by decide⟩) (by decide)

end AuroraOS.Net
