import AuroraOS.Tcp.Model

/-!
# Byte streams over an established connection

Two sockets of an established connection, and a network that keeps every packet ever sent and may
deliver any of them, any number of times and in any order.  The data of a segment is taken without a
look at its sequence number.
-/

namespace AuroraOS.Tcp

open Function List

/-! ## Packets -/

section Packets

variable {rest : List UInt8} {v : Nat}

lemma toNat_ofNat (v : Nat) : (UInt8.ofNat v).toNat = v % 256 := UInt8.toNat_ofNat'

lemma beField_be16 : beField (be16 v ++ rest) 0 2 = v % 65536 := by
  simp only [beField, be16, drop_zero, cons_append, take_succ_cons,
    take_zero, foldl_cons, foldl_nil, toNat_ofNat]
  omega

lemma beField_be32 : beField (be32 v ++ rest) 0 4 = v % 2 ^ 32 := by
  simp only [beField, be32, be16, drop_zero, cons_append, nil_append,
    take_succ_cons, take_zero, foldl_cons, foldl_nil, toNat_ofNat]
  omega

end Packets

lemma parseSegment_bytes {g : Segment} (sum : BitVec 16) (small : g.flags.toNat < 64) :
    parseSegment (g.bytes sum) = some g := by
  have two : ∀ v, (be16 v).length = 2 := fun _ => rfl
  have four : ∀ v, (be32 v).length = 4 := fun _ => rfl
  have hdr : tcpHdrSize = 20 := rfl
  have src : beField (g.bytes sum) 0 2 = g.srcPort.toNat := by
    exact beField_be16.trans (Nat.mod_eq_of_lt g.srcPort.isLt)
  have dst : beField (g.bytes sum) 2 2 = g.dstPort.toNat := by
    exact beField_be16.trans (Nat.mod_eq_of_lt g.dstPort.isLt)
  have seq : beField (g.bytes sum) 4 4 = g.seq.toNat := by
    exact beField_be32.trans (Nat.mod_eq_of_lt g.seq.isLt)
  have ack : beField (g.bytes sum) 8 4 = g.ack.toNat := by
    exact beField_be32.trans (Nat.mod_eq_of_lt g.ack.isLt)
  have flags : beField (g.bytes sum) 12 2 = 5 * 4096 + g.flags.toNat := by
    have field : beField (g.bytes sum) 12 2 = (5 * 4096 + g.flags.toNat) % 65536 := by
      exact beField_be16
    omega
  have length : (g.bytes sum).length = 20 + g.payload.length := by
    simp only [Segment.bytes, length_append, two, four]
  have payload : (g.bytes sum).drop 20 = g.payload := rfl
  have offset : (5 * 4096 + g.flags.toNat) / 4096 * 4 = 20 := by omega
  have bits : (5 * 4096 + g.flags.toNat) % 64 = g.flags.toNat := by omega
  unfold parseSegment
  simp only [src, dst, seq, ack, flags, offset, bits, payload]
  rw [if_neg (by omega), if_neg (by omega)]
  simp only [BitVec.ofNat_toNat, BitVec.setWidth_eq]

def payloadOf (packet : List UInt8) : List UInt8 :=
  match parseSegment packet with
  | some g => g.payload
  | none => []

/-! ## A connection -/

inductive Party where
  | client
  | server
deriving DecidableEq

def Party.other : Party → Party
  | .client => .server
  | .server => .client

/-- Two sockets, the packets each has sent so far, the bytes each has given to `tcp_send` and
the bytes each has got from `tcp_recv`. -/
structure Conn where
  sock : Party → TcpSocket
  wire : Party → List (List UInt8)
  passed : Party → List UInt8
  got : Party → List UInt8

namespace Conn

variable (c : Conn) (p : Party)

def update (s : TcpSocket) (packet : Option (List UInt8)) : Conn :=
  { c with
    sock := Function.update c.sock p s
    wire := Function.update c.wire p (c.wire p ++ packet.toList) }

def send (env : Env) (data : List UInt8) : Conn :=
  let (s, packet, chunk) := (c.sock p).send env data
  { c.update p s packet with
    passed := Function.update c.passed p (c.passed p ++ chunk.getD []) }

def recv (maxLen : Nat) : Conn :=
  let (s, bytes) := (c.sock p).recv maxLen
  { c.update p s none with got := Function.update c.got p (c.got p ++ bytes) }

def close (env : Env) : Conn :=
  let (s, packet, _) := (c.sock p).close env
  c.update p s packet

def shutdown (env : Env) : Conn :=
  let (s, packet, _) := (c.sock p).shutdown env
  c.update p s packet

def deliver (env : Env) (packet : List UInt8) : Conn :=
  match parseSegment packet with
  | none => c
  | some g =>
    let (s, answer) := (c.sock p).receive env g
    c.update p s answer

end Conn

/-- Calls at both ends, and deliveries of any packet sent so far; lost packets are those that are
never delivered. -/
inductive ConnStep where
  | send (p : Party) (env : Env) (data : List UInt8)
  | recv (p : Party) (maxLen : Nat)
  | close (p : Party) (env : Env)
  | shutdown (p : Party) (env : Env)
  /-- Delivery to `p` of the `i`-th packet of the other end. -/
  | deliver (p : Party) (env : Env) (i : Nat)

def Conn.step (c : Conn) : ConnStep → Conn
  | .send p env data => c.send p env data
  | .recv p maxLen => c.recv p maxLen
  | .close p env => c.close p env
  | .shutdown p env => c.shutdown p env
  | .deliver p env i =>
    match (c.wire p.other)[i]? with
    | some packet => c.deliver p env packet
    | none => c

def Conn.run (c : Conn) (steps : List ConnStep) : Conn := steps.foldl Conn.step c

/-- An established connection on which no data was sent yet; packets of the handshake may
still be on their way. -/
structure Conn.Established (c : Conn) : Prop where
  state : ∀ p, (c.sock p).state = .established
  rx : ∀ p, (c.sock p).rx = []
  wire : ∀ p, ∀ packet ∈ c.wire p, payloadOf packet = []
  passed : ∀ p, c.passed p = []
  got : ∀ p, c.got p = []

def TakesData (s : TcpSocket) (g : Segment) : Prop :=
  s.state = .established ∧ g.flags.has tcpRst = false ∧ g.flags.has tcpFin = false ∧ g.payload ≠ []

/-- The bytes of the other end's stream that `p` has taken. -/
def Conn.taken (c : Conn) (p : Party) : List UInt8 := c.got p ++ (c.sock p).rx

/-- A segment whose data is taken starts where the bytes taken so far end. -/
def Conn.InOrder (c : Conn) : ConnStep → Prop
  | .deliver p _ i =>
    ∀ packet g, (c.wire p.other)[i]? = some packet → parseSegment packet = some g →
      TakesData (c.sock p) g →
      (((c.wire p.other).take i).flatMap payloadOf).length = (c.taken p).length
  | _ => True

def Conn.AllInOrder (c : Conn) : List ConnStep → Prop
  | [] => True
  | e :: steps => c.InOrder e ∧ (c.step e).AllInOrder steps

/-- `tcp_recv` has returned a prefix of what the other end gave to `tcp_send`. -/
def Conn.PrefixReceived (c : Conn) : Prop := ∀ p : Party, c.got p <+: c.passed p.other

/-! ## What the socket functions do -/

section Socket

variable {s s' : TcpSocket} {env : Env} {g : Segment} {flags : Flags} {data : List UInt8}

lemma sendPacket_spec (s : TcpSocket) (env : Env) (data : List UInt8) (small : flags.toNat < 64) :
    (s.sendPacket env flags data).1.rx = s.rx ∧ (s.sendPacket env flags data).1.state = s.state ∧
      ((s.sendPacket env flags data).2 = none ∨
        ∃ packet, (s.sendPacket env flags data).2 = some packet ∧ payloadOf packet = data) := by
  unfold TcpSocket.sendPacket
  split
  · refine ⟨rfl, rfl, .inr ⟨_, rfl, ?_⟩⟩
    rw [payloadOf, parseSegment_bytes env.sum (by exact small)]
    rfl
  · exact ⟨rfl, rfl, .inl rfl⟩

lemma sendPacket_empty (small : flags.toNat < 64) :
    ((s.sendPacket env flags []).2.toList).flatMap payloadOf = [] := by
  rcases (sendPacket_spec s env [] small).2.2 with none | ⟨packet, some, data⟩
  · simp [none]
  · simp [some, data]

lemma send_spec (s : TcpSocket) (env : Env) (data : List UInt8) : (s.send env data).1.rx = s.rx ∧
    ((s.send env data).2.1.toList).flatMap payloadOf = (s.send env data).2.2.getD [] := by
  have small : (tcpPsh ||| tcpAck).toNat < 64 := by decide
  unfold TcpSocket.send
  split_ifs
  · exact ⟨rfl, rfl⟩
  · exact ⟨rfl, rfl⟩
  have ⟨rx, _, packet⟩ := sendPacket_spec s env (data.take tcpMaxSegment) small
  simp only
  generalize s.sendPacket env (tcpPsh ||| tcpAck) (data.take tcpMaxSegment) = r at *
  obtain ⟨s', out⟩ := r
  rcases packet with none | ⟨packet, some, content⟩
  · cases none
    exact ⟨rx, rfl⟩
  · cases some
    exact ⟨rx, by simpa using content⟩

lemma close_spec :
    (s.close env).1.rx = s.rx ∧ ((s.close env).2.1.toList).flatMap payloadOf = [] := by
  have small : (tcpFin ||| tcpAck).toNat < 64 := by decide
  unfold TcpSocket.close
  split
  · exact ⟨(sendPacket_spec _ _ _ small).1, sendPacket_empty small⟩
  · exact ⟨(sendPacket_spec _ _ _ small).1, sendPacket_empty small⟩
  · exact ⟨rfl, rfl⟩
  · exact ⟨rfl, rfl⟩

lemma shutdown_spec :
    (s.shutdown env).1.rx = s.rx ∧ ((s.shutdown env).2.1.toList).flatMap payloadOf = [] := by
  unfold TcpSocket.shutdown
  split
  · exact ⟨rfl, rfl⟩
  · exact close_spec

lemma handle_rx (s : TcpSocket) (g : Segment) : (s.handle g).1.rx = s.rx ∨ (TakesData s g ∧
        (s.handle g).1.rx = s.rx ++ g.payload.take (tcpRxBufSize - s.rx.length)) := by
  unfold TcpSocket.handle
  split
  case h_3 state =>
      split_ifs with rst fin data
      · exact .inl rfl
      · exact .inl rfl
      · refine .inr ⟨⟨state, by simpa using rst, by simpa using fin, ?_⟩, rfl⟩
        exact length_pos_iff.mp data
      · exact .inl rfl
  case h_7 | h_8 | h_9 | h_10 => exact .inl rfl
  all_goals
    split_ifs
    all_goals exact .inl rfl

lemma receive_spec (s : TcpSocket) (env : Env) (g : Segment) :
    (s.receive env g).1.rx = (s.handle g).1.rx ∧
      ((s.receive env g).2.toList).flatMap payloadOf = [] := by
  have small : tcpAck.toNat < 64 := by decide
  unfold TcpSocket.receive
  generalize s.handle g = r
  obtain ⟨s', answers⟩ := r
  cases answers with
  | true => exact ⟨(sendPacket_spec _ _ _ small).1, sendPacket_empty small⟩
  | false => exact ⟨rfl, rfl⟩

end Socket

/-! ## The invariant -/

/-- The packets carry what was given to `tcp_send`, and each end has taken a prefix of it. -/
structure Streams (c : Conn) : Prop where
  sent : ∀ p, c.passed p = (c.wire p).flatMap payloadOf
  taken : ∀ p : Party, c.taken p <+: c.passed p.other

section Streams

variable {c c' : Conn} {p : Party} {env : Env}

lemma Party.other_ne : p.other ≠ p := by cases p <;> decide

lemma Party.other_other : p.other.other = p := by cases p <;> rfl

lemma Party.eq_other {q : Party} (different : q ≠ p) : q = p.other := by
  cases p <;> cases q <;> first | rfl | exact absurd rfl different

section

variable (streams : Streams c)
include streams

/-- A step of one end: it may send packets, and its taken bytes stay a prefix. -/
lemma Streams.step_of (out : List (List UInt8))
    (others : c'.taken p.other = c.taken p.other ∧ c'.wire p.other = c.wire p.other ∧
      c'.passed p.other = c.passed p.other)
    (wire : c'.wire p = c.wire p ++ out)
    (passed : c'.passed p = c.passed p ++ out.flatMap payloadOf)
    (taken : c'.taken p <+: c.passed p.other) : Streams c' := by
  constructor
  · intro q
    by_cases same : q = p
    · rw [same, wire, passed, flatMap_append, streams.sent p]
    · rw [Party.eq_other same, others.2.1, others.2.2, streams.sent]
  · intro q
    by_cases same : q = p
    · rw [same, others.2.2]
      exact taken
    · rw [Party.eq_other same, others.1, Party.other_other, passed]
      have before := streams.taken p.other
      rw [Party.other_other] at before
      exact before.trans (prefix_append _ _)

omit streams in
lemma update_other (s : TcpSocket) (packet : Option (List UInt8)) :
    (c.update p s packet).taken p.other = c.taken p.other ∧
      (c.update p s packet).wire p.other = c.wire p.other := by
  constructor
  · simp only [Conn.taken, Conn.update, update_of_ne Party.other_ne]
  · simp only [Conn.update, update_of_ne Party.other_ne]

lemma Streams.quiet {s : TcpSocket} {packet : Option (List UInt8)}
    (rx : s.rx = (c.sock p).rx) (empty : packet.toList.flatMap payloadOf = []) :
    Streams (c.update p s packet) := by
  have ⟨other, wire⟩ := update_other (c := c) (p := p) s packet
  apply streams.step_of _ ⟨other, wire, rfl⟩ (update_self ..)
  · rw [empty, append_nil]
    rfl
  · have same : (c.update p s packet).taken p = c.taken p := by
      simp only [Conn.taken, Conn.update, update_self, rx]
    rw [same]
    exact streams.taken p

lemma Streams.send (data : List UInt8) : Streams (c.send p env data) := by
  have ⟨rx, content⟩ := send_spec (c.sock p) env data
  have different := Party.other_ne (p := p)
  apply streams.step_of (p := p) ((c.sock p).send env data).2.1.toList
  · simp only [Conn.taken, Conn.send, Conn.update, update_of_ne different, and_self]
  · exact update_self ..
  · rw [content]
    exact update_self ..
  · have same : (c.send p env data).taken p = c.taken p := by
      simp only [Conn.taken, Conn.send, Conn.update, update_self, rx]
    rw [same]
    exact streams.taken p

lemma Streams.recv (maxLen : Nat) : Streams (c.recv p maxLen) := by
  have different := Party.other_ne (p := p)
  apply streams.step_of (p := p) []
  · simp only [Conn.taken, Conn.recv, Conn.update, update_of_ne different, and_self]
  · exact update_self ..
  · rw [flatMap_nil, append_nil]
    rfl
  · have same : (c.recv p maxLen).taken p = c.taken p := by
      simp only [Conn.taken, Conn.recv, TcpSocket.recv, Conn.update, update_self,
        append_assoc, take_append_drop]
    rw [same]
    exact streams.taken p

lemma Streams.extend {i : Nat} {packet : List UInt8} (sent : (c.wire p.other)[i]? = some packet)
    (position : (((c.wire p.other).take i).flatMap payloadOf).length = (c.taken p).length)
    (n : Nat) : c.taken p ++ (payloadOf packet).take n <+: c.passed p.other := by
  have inside := List.getElem?_eq_some_iff.mp sent
  obtain ⟨bound, here⟩ := inside
  have split : c.passed p.other = ((c.wire p.other).take i).flatMap payloadOf ++
      (payloadOf packet ++ ((c.wire p.other).drop (i + 1)).flatMap payloadOf) := by
    rw [streams.sent, ← flatMap_cons, ← here, ← drop_eq_getElem_cons bound,
      ← flatMap_append, take_append_drop]
  have front : c.taken p = ((c.wire p.other).take i).flatMap payloadOf := by
    have before : ((c.wire p.other).take i).flatMap payloadOf <+: c.passed p.other :=
      split ▸ prefix_append _ _
    exact ((prefix_of_prefix_length_le (streams.taken p) before position.ge).eq_of_length
      position.symm)
  rw [split, front]
  apply (prefix_append_right_inj _).mpr
  exact ( take_prefix n _).trans (prefix_append _ _)

lemma Streams.deliver {i : Nat} {packet : List UInt8}
    (sent : (c.wire p.other)[i]? = some packet) (inOrder : c.InOrder (.deliver p env i)) :
    Streams (c.deliver p env packet) := by
  unfold Conn.deliver
  cases parsed : parseSegment packet with
  | none => exact streams
  | some g =>
    have ⟨rx, answer⟩ := receive_spec (c.sock p) env g
    rcases handle_rx (c.sock p) g with same | ⟨takes, grown⟩
    · exact streams.quiet (rx.trans same) answer
    have ⟨other, wire⟩ := update_other (c := c) (p := p) ((c.sock p).receive env g).1
      ((c.sock p).receive env g).2
    apply streams.step_of _ ⟨other, wire, rfl⟩ (update_self ..)
    · rw [answer, append_nil]
      rfl
    · have content : payloadOf packet = g.payload := by rw [payloadOf, parsed]
      have longer := streams.extend sent (inOrder packet g sent parsed takes)
        (tcpRxBufSize - (c.sock p).rx.length)
      simpa only [Conn.taken, Conn.update, update_self, rx, grown, content,
        append_assoc] using longer

lemma Streams.step {e : ConnStep} (inOrder : c.InOrder e) : Streams (c.step e) := by
  cases e with
  | send p env data => exact streams.send data
  | recv p maxLen => exact streams.recv maxLen
  | close p env => exact streams.quiet close_spec.1 close_spec.2
  | shutdown p env => exact streams.quiet shutdown_spec.1 shutdown_spec.2
  | deliver p env i =>
    unfold Conn.step
    cases sent : (c.wire p.other)[i]? with
    | none => simpa only [sent] using streams
    | some packet => simpa only [sent] using streams.deliver sent inOrder

lemma Streams.run {steps : List ConnStep} (inOrder : c.AllInOrder steps) :
    Streams (c.run steps) := by
  induction steps generalizing c with
  | nil => exact streams
  | cons e steps ih => exact ih (streams.step inOrder.1) inOrder.2

end

lemma Conn.Established.streams (established : c.Established) : Streams c := by
  constructor
  · intro p
    rw [established.passed p, eq_comm, flatMap_eq_nil_iff]
    exact established.wire p
  · intro p
    rw [Conn.taken, established.got p, established.rx p]
    exact nil_prefix

end Streams

/-- As long as each segment whose data a socket takes starts at the position of the stream that
the socket has reached, `tcp_recv` returns a prefix of what the other end gave to `tcp_send`. -/
theorem stream_kept {c : Conn} (established : c.Established) (steps : List ConnStep)
    (inOrder : c.AllInOrder steps) : (c.run steps).PrefixReceived := by
  intro p
  have streams := established.streams.run inOrder
  exact (prefix_append _ _).trans (streams.taken p)

/-! ## A duplicated segment -/

def fresh : Conn where
  sock
    | .client =>
      { id := 1, inUse := true, state := .established, localIp := 1, localPort := 1000
        remoteIp := 2, remotePort := 80, isn := 0x10000, seqNum := 0x10001
        ackNum := 0x20001, rcvNxt := 0x20001 }
    | .server =>
      { id := 2, inUse := true, state := .established, localIp := 2, localPort := 80
        remoteIp := 1, remotePort := 1000, isn := 0x20000, seqNum := 0x20001
        ackNum := 0x10001, rcvNxt := 0x10001 }
  wire _ := []
  passed _ := []
  got _ := []

lemma fresh_established : fresh.Established where
  state p := by cases p <;> rfl
  rx p := by cases p <;> rfl
  wire _ _ mem := by cases mem
  passed _ := rfl
  got _ := rfl

def goodEnv : Env := ⟨true, 0⟩

def duplicated : Conn :=
  fresh.run [.send .client goodEnv [104], .deliver .server goodEnv 0, .deliver .server goodEnv 0,
    .recv .server 16]

/-- The server gets the byte twice. -/
theorem duplicate_not_kept :
    fresh.Established ∧ duplicated.got .server = [104, 104] ∧ duplicated.passed .client = [104] ∧
      ¬ duplicated.PrefixReceived := by
  have got : duplicated.got .server = [104, 104] := by decide
  have passed : duplicated.passed .client = [104] := by decide
  refine ⟨fresh_established, got, passed, fun ordered => ?_⟩
  have first := ordered .server
  exact absurd first (by decide)

/-- The client sends one byte to the server. -/
theorem stream_kept_fresh : (fresh.run [.send .client goodEnv [104], .deliver .server goodEnv 0,
      .recv .server 16]).PrefixReceived :=
  stream_kept fresh_established _
    ⟨trivial, fun _ _ _ _ _ => rfl, trivial, trivial⟩

end AuroraOS.Tcp
