import Mathlib.Algebra.Group.Nat.Defs
import Mathlib.Data.List.FinRange

/-!
# TCP sockets

Model of the TCP layer of `kernel/net/net.c`: segments as bytes, one socket
(`TcpSocket.sendPacket`, `TcpSocket.handle`), and the socket table of a host with the local
calls and `tcp_handle_packet`.  The outcome of handing a packet to the IP layer is an input
(`Env`).  The receive buffer is the list of the bytes in it, the queue of pending connections
the list of its ids.
-/

namespace AuroraOS.Tcp

abbrev Ip := BitVec 32
abbrev Port := BitVec 16
abbrev Seq := BitVec 32
abbrev Flags := BitVec 8

def tcpFin : Flags := 0x01
def tcpSyn : Flags := 0x02
def tcpRst : Flags := 0x04
def tcpPsh : Flags := 0x08
def tcpAck : Flags := 0x10

def maxTcpSockets : Nat := 16
def tcpRxBufSize : Nat := 4096
def tcpMaxSegment : Nat := 1460
def tcpBacklogMax : Nat := 8

def Flags.has (flags mask : Flags) : Bool := flags &&& mask != 0

def Flags.hasAll (flags mask : Flags) : Bool := flags &&& mask == mask

/-! ## Segments -/

structure Segment where
  srcPort : Port
  dstPort : Port
  seq : Seq
  ack : Seq
  flags : Flags
  payload : List UInt8
deriving DecidableEq

def beField (data : List UInt8) (off n : Nat) : Nat :=
  ((data.drop off).take n).foldl (fun v b => 256 * v + b.toNat) 0

def be16 (v : Nat) : List UInt8 := [UInt8.ofNat (v / 256), UInt8.ofNat v]

def be32 (v : Nat) : List UInt8 := be16 (v / 65536) ++ be16 v

def tcpHdrSize : Nat := 20

/-- The start of `tcp_handle_packet`: `none` for a packet that is dropped. -/
def parseSegment (data : List UInt8) : Option Segment :=
  if data.length < tcpHdrSize then none
  else
    let offsetFlags := beField data 12 2
    let dataOffset := offsetFlags / 4096 * 4
    if dataOffset < tcpHdrSize ∨ data.length < dataOffset then none
    else
      some
        { srcPort := BitVec.ofNat 16 (beField data 0 2)
          dstPort := BitVec.ofNat 16 (beField data 2 2)
          seq := BitVec.ofNat 32 (beField data 4 4)
          ack := BitVec.ofNat 32 (beField data 8 4)
          flags := BitVec.ofNat 8 (offsetFlags % 64)
          payload := data.drop dataOffset }

/-- The packet that `tcp_send_packet` builds; nothing reads its checksum `sum`. -/
def Segment.bytes (g : Segment) (sum : BitVec 16) : List UInt8 :=
  be16 g.srcPort.toNat ++ be16 g.dstPort.toNat ++ be32 g.seq.toNat ++ be32 g.ack.toNat ++
    be16 (5 * 4096 + g.flags.toNat) ++ be16 8192 ++ be16 sum.toNat ++ be16 0 ++ g.payload

/-! ## One socket -/

inductive TcpState where
  | closed
  | listen
  | synSent
  | synReceived
  | established
  | finWait1
  | finWait2
  | closeWait
  | lastAck
  | timeWait
deriving DecidableEq

/-- `struct tcp_socket`; `rx` is `rx_buf[0 .. rx_len)`, `pending` is
`pending_ids[0 .. pending_count)`. -/
structure TcpSocket where
  id : Nat := 0
  inUse : Bool := false
  state : TcpState := .closed
  localIp : Ip := 0
  localPort : Port := 0
  remoteIp : Ip := 0
  remotePort : Port := 0
  isn : Seq := 0
  seqNum : Seq := 0
  ackNum : Seq := 0
  rcvNxt : Seq := 0
  rx : List UInt8 := []
  backlog : Nat := 0
  pending : List Nat := []
deriving DecidableEq

/-- What the layers below do with one packet: whether it could be handed over, and the checksum
computed for it. -/
structure Env where
  ok : Bool
  sum : BitVec 16

namespace TcpSocket

variable (s : TcpSocket)

def segment (flags : Flags) (data : List UInt8) : Segment where
  srcPort := s.localPort
  dstPort := s.remotePort
  seq := s.seqNum
  ack := s.ackNum
  flags := flags
  payload := data

def sendPacket (env : Env) (flags : Flags) (data : List UInt8) : TcpSocket × Option (List UInt8) :=
  if env.ok then
    let seqNum := if flags.has (tcpSyn ||| tcpFin) then s.seqNum + 1 else s.seqNum
    ({ s with seqNum := seqNum + BitVec.ofNat 32 data.length },
      some ((s.segment flags data).bytes env.sum))
  else (s, none)

/-- `tcp_send` on a socket: the bytes it sent, or `none` for a negative result. -/
def send (env : Env) (data : List UInt8) : TcpSocket × Option (List UInt8) × Option (List UInt8) :=
  if s.state ≠ .established ∧ s.state ≠ .closeWait then (s, none, none)
  else if data = [] then (s, none, some [])
  else
    let chunk := data.take tcpMaxSegment
    match s.sendPacket env (tcpPsh ||| tcpAck) chunk with
    | (s, some packet) => (s, some packet, some chunk)
    | (s, none) => (s, none, none)

def recv (maxLen : Nat) : TcpSocket × List UInt8 :=
  ({ s with rx := s.rx.drop maxLen }, s.rx.take maxLen)

def close (env : Env) : TcpSocket × Option (List UInt8) × Bool :=
  match s.state with
  | .established =>
    let (s, packet) := { s with state := .finWait1 }.sendPacket env (tcpFin ||| tcpAck) []
    (s, packet, true)
  | .closeWait =>
    let (s, packet) := { s with state := .lastAck }.sendPacket env (tcpFin ||| tcpAck) []
    (s, packet, true)
  | .closed => (s, none, true)
  | _ => (s, none, false)

def shutdown (env : Env) : TcpSocket × Option (List UInt8) × Bool :=
  match s.state with
  | .closed => (s, none, false)
  | _ => s.close env

def handle (g : Segment) : TcpSocket × Bool :=
  match s.state with
  | .synSent =>
    if g.flags.hasAll (tcpSyn ||| tcpAck) then
      ({ s with ackNum := g.seq + 1, rcvNxt := g.seq + 1, state := .established }, true)
    else if g.flags.has tcpRst then ({ s with state := .closed }, false)
    else (s, false)
  | .synReceived =>
    if g.flags.has tcpRst then ({ s with state := .closed }, false)
    else if g.flags.has tcpAck then ({ s with ackNum := g.seq, state := .established }, false)
    else (s, false)
  | .established =>
    if g.flags.has tcpRst then ({ s with state := .closed }, false)
    else if g.flags.has tcpFin then
      ({ s with ackNum := g.seq + 1, state := .closeWait }, true)
    else if 0 < g.payload.length then
      let ackNum := g.seq + BitVec.ofNat 32 g.payload.length
      ({ s with
        rx := s.rx ++ g.payload.take (tcpRxBufSize - s.rx.length)
        ackNum := ackNum
        rcvNxt := ackNum }, true)
    else (s, false)
  | .finWait1 =>
    if g.flags.has tcpRst then ({ s with state := .closed }, false)
    else if g.flags.hasAll (tcpFin ||| tcpAck) then
      ({ s with ackNum := g.seq + 1, state := .timeWait }, true)
    else if g.flags.has tcpAck then ({ s with state := .finWait2 }, false)
    else (s, false)
  | .finWait2 =>
    if g.flags.has tcpRst then ({ s with state := .closed }, false)
    else if g.flags.has tcpFin then ({ s with ackNum := g.seq + 1, state := .timeWait }, true)
    else (s, false)
  | .lastAck =>
    if g.flags.has tcpRst then ({ s with state := .closed }, false)
    else if g.flags.has tcpAck then ({ s with state := .closed }, false)
    else (s, false)
  | .closeWait | .timeWait | .closed | .listen => (s, false)

def receive (env : Env) (g : Segment) : TcpSocket × Option (List UInt8) :=
  let (s, answers) := s.handle g
  if answers then s.sendPacket env tcpAck [] else (s, none)

end TcpSocket

/-! ## Hosts -/

structure NetIf where
  ip : Ip
  up : Bool
  hasDev : Bool

abbrev Slot := Fin maxTcpSockets

structure Host where
  sockets : Slot → TcpSocket
  nextId : Nat
  iss : Seq
  netIfs : List NetIf

def Host.boot (netIfs : List NetIf) : Host where
  sockets _ := {}
  nextId := 1
  iss := 0
  netIfs := netIfs

namespace Host

variable (h : Host)

def set (i : Slot) (s : TcpSocket) : Host := { h with sockets := Function.update h.sockets i s }

def findSlot (p : TcpSocket → Bool) : Option Slot :=
  (List.finRange maxTcpSockets).find? fun i => p (h.sockets i)

def firstUp : Option NetIf := h.netIfs.find? fun n => n.up && n.hasDev

def netIfFindByIp (ip : Ip) : Option NetIf :=
  match h.netIfs.find? fun n => n.ip == ip with
  | some n => some n
  | none => h.firstUp

/-- Whether `tcp_send_packet` finds an interface and the layers below take the packet. -/
def sends (env : Env) (s : TcpSocket) : Env :=
  match h.netIfFindByIp s.remoteIp with
  | some n => { env with ok := n.hasDev && env.ok }
  | none => { env with ok := false }

def getIss : Seq :=
  let iss := h.iss + 0x10000
  if iss = 0 then 0x10000 else iss

def bumpId : Nat := if 2 ^ 31 ≤ h.nextId + 1 then 1 else h.nextId + 1

def findSocket (sock : Nat) : Option Slot := h.findSlot fun s => s.inUse && s.id == sock

def findByAddr (srcIp : Ip) (srcPort : Port) (dstIp : Ip) (dstPort : Port) : Option Slot :=
  h.findSlot fun s =>
    s.inUse && s.localIp == dstIp && s.localPort == dstPort && s.remoteIp == srcIp &&
      s.remotePort == srcPort

def findListener (port : Port) : Option Slot :=
  h.findSlot fun s => s.inUse && s.state == .listen && s.localPort == port

/-- The socket that `tcp_handle_packet` gives a segment to. -/
def dispatch (srcIp dstIp : Ip) (g : Segment) : Option Slot :=
  match h.findByAddr srcIp g.srcPort dstIp g.dstPort with
  | some i => some i
  | none =>
    h.findSlot fun s =>
      s.inUse && s.localPort == g.dstPort && s.state == .synSent && s.remoteIp == srcIp &&
        s.remotePort == g.srcPort

end Host

/-- What a call or a packet leads to: the host, the result of the call and a packet sent. -/
structure Out where
  host : Host
  ret : Int
  packet : Option (List UInt8) := none

namespace Host

variable (h : Host) (env : Env)

def tcpSocketCreate : Out :=
  match h.findSlot fun s => !s.inUse with
  | some i =>
    { host := { h.set i { id := h.nextId, inUse := true } with nextId := h.bumpId }
      ret := h.nextId }
  | none => { host := h, ret := -1 }

def withSocket (sock : Nat) (f : Slot → TcpSocket → Out) : Out :=
  match h.findSocket sock with
  | some i => f i (h.sockets i)
  | none => { host := h, ret := -1 }

def tcpBind (sock : Nat) (port : Port) : Out :=
  h.withSocket sock fun i s =>
    let localIp := match h.firstUp with
      | some n => n.ip
      | none => s.localIp
    { host := h.set i { s with localPort := port, localIp := localIp }, ret := 0 }

def tcpConnect (sock : Nat) (dstIp : Ip) (dstPort : Port) : Out :=
  h.withSocket sock fun i s =>
    if s.state ≠ .closed then { host := h, ret := -1 }
    else
      match h.netIfFindByIp dstIp with
      | none => { host := h, ret := -1 }
      | some n =>
        let localPort :=
          if s.localPort = 0 then BitVec.ofNat 16 (49152 + sock % 16384) else s.localPort
        let s : TcpSocket :=
          { s with
            localIp := n.ip
            localPort := localPort
            remoteIp := dstIp
            remotePort := dstPort
            isn := h.getIss
            seqNum := h.getIss
            ackNum := 0
            rcvNxt := 0
            state := .synSent }
        let (s, packet) := s.sendPacket (h.sends env s) tcpSyn []
        { host := { h.set i s with iss := h.getIss }, ret := 0, packet := packet }

def tcpSend (sock : Nat) (data : List UInt8) : Out :=
  h.withSocket sock fun i s =>
    match s.send (h.sends env s) data with
    | (s, packet, some chunk) => { host := h.set i s, ret := chunk.length, packet := packet }
    | (s, packet, none) => { host := h.set i s, ret := -1, packet := packet }

def tcpRecv (sock maxLen : Nat) : Out :=
  h.withSocket sock fun i s =>
    let (s, bytes) := s.recv maxLen
    { host := h.set i s, ret := bytes.length }

def tcpClose (sock : Nat) : Out :=
  h.withSocket sock fun i s =>
    let (s, packet, done) := s.close (h.sends env s)
    { host := h.set i s, ret := if done then 0 else -1, packet := packet }

def tcpShutdown (sock : Nat) : Out :=
  h.withSocket sock fun i s =>
    let (s, packet, done) := s.shutdown (h.sends env s)
    { host := h.set i s, ret := if done then 0 else -1, packet := packet }

/-- `tcp_listen`; the backlog is an `int`. -/
def tcpListen (sock : Nat) (backlog : Int) : Out :=
  h.withSocket sock fun i s =>
    { host := h.set i
        { s with backlog := min backlog.toNat tcpBacklogMax, state := .listen, pending := [] }
      ret := 0 }

def tcpAccept (sock : Nat) : Out :=
  h.withSocket sock fun i s =>
    if s.state ≠ .listen then { host := h, ret := -1 }
    else
      match s.pending with
      | [] => { host := h, ret := -1 }
      | accepted :: rest => { host := h.set i { s with pending := rest }, ret := accepted }

def openPassive (srcIp : Ip) (g : Segment) (l : Slot) : Out :=
  let listener := h.sockets l
  if listener.backlog ≤ listener.pending.length then { host := h, ret := 0 }
  else
    let h' := { h with nextId := h.bumpId }
    match h'.findSlot fun s => !s.inUse with
    | none => { host := h', ret := 0 }
    | some i =>
      let s : TcpSocket :=
        { id := h.nextId
          inUse := true
          state := .synReceived
          localIp := listener.localIp
          localPort := g.dstPort
          remoteIp := srcIp
          remotePort := g.srcPort
          isn := h.getIss
          seqNum := h.getIss
          ackNum := g.seq + 1
          rcvNxt := g.seq + 1 }
      let pending :=
        if listener.pending.length < tcpBacklogMax then listener.pending ++ [h.nextId]
        else listener.pending
      let h'' := (h'.set i s).set l { listener with pending := pending }
      let (s, packet) := s.sendPacket (h.sends env s) (tcpSyn ||| tcpAck) []
      { host := { h''.set i s with iss := h.getIss }, ret := 0, packet := packet }

def tcpHandlePacket (srcIp dstIp : Ip) (data : List UInt8) : Out :=
  match parseSegment data with
  | none => { host := h, ret := 0 }
  | some g =>
    match h.dispatch srcIp dstIp g with
    | some i =>
      let (s, packet) := (h.sockets i).receive (h.sends env (h.sockets i)) g
      { host := h.set i s, ret := 0, packet := packet }
    | none =>
      match h.findListener g.dstPort with
      | some l =>
        if g.flags.has tcpSyn && !g.flags.has tcpAck then h.openPassive env srcIp g l
        else { host := h, ret := 0 }
      | none => { host := h, ret := 0 }

end Host

inductive Call where
  | create
  | bind (sock : Nat) (port : Port)
  | connect (sock : Nat) (dstIp : Ip) (dstPort : Port)
  | send (sock : Nat) (data : List UInt8)
  | recv (sock maxLen : Nat)
  | close (sock : Nat)
  | shutdown (sock : Nat)
  | listen (sock : Nat) (backlog : Int)
  | accept (sock : Nat)
  | packet (srcIp dstIp : Ip) (data : List UInt8)

def Host.step (h : Host) (env : Env) : Call → Out
  | .create => h.tcpSocketCreate
  | .bind sock port => h.tcpBind sock port
  | .connect sock dstIp dstPort => h.tcpConnect env sock dstIp dstPort
  | .send sock data => h.tcpSend env sock data
  | .recv sock maxLen => h.tcpRecv sock maxLen
  | .close sock => h.tcpClose env sock
  | .shutdown sock => h.tcpShutdown env sock
  | .listen sock backlog => h.tcpListen sock backlog
  | .accept sock => h.tcpAccept sock
  | .packet srcIp dstIp data => h.tcpHandlePacket env srcIp dstIp data

end AuroraOS.Tcp
