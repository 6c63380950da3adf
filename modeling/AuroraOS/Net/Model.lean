import AuroraOS.Lib.Checked
import AuroraOS.Lib.SlotTable
import AuroraOS.Tcp.Model

/-!
# The network stack

Model of the receive path of `kernel/net/net.c`, from `process_eth_frame` through the ARP, IPv4,
ICMP, UDP and TCP handlers, and of the socket calls, at the level of the buffers: a frame is a
list of bytes and a pointer into it an offset, the receive buffers and queues have their fixed
sizes and `int` counters, and every access to either is checked.

What `kmalloc` and the devices do with a packet that is sent is an input (`Env`); the buffers in
which the send side builds it are left out.  So are the IPv6 handler, which uses none of these
tables, and DHCP, which only sets the interfaces.
-/

namespace AuroraOS.Net

open Lib List Function
open Tcp (Ip Port Seq Flags TcpState NetIf Slot tcpFin tcpSyn tcpRst tcpPsh tcpAck
  maxTcpSockets tcpRxBufSize tcpMaxSegment tcpBacklogMax tcpHdrSize)

def ethIpv4 : Nat := 0x0800
def ethArp : Nat := 0x0806
def arpRequest : Nat := 1
def arpReply : Nat := 2
def arpHtypeEth : Nat := 1
def ipProtoIcmp : Nat := 1
def ipProtoTcp : Nat := 6
def ipProtoUdp : Nat := 17
def icmpEchoRequest : Nat := 8

def ethHdrSize : Nat := 14
def arpHdrSize : Nat := 28
def ipv4HdrSize : Nat := 20
def icmpHdrSize : Nat := 8
def udpHdrSize : Nat := 8

def arpCacheSize : Nat := 16
def maxUdpSockets : Nat := 16
def udpRxBufSize : Nat := 2048

def toSize (n : Int) : Nat := (n % 2 ^ 64).toNat

structure ArpEntry where
  ip : Ip := 0
  mac : List UInt8 := []
  age : BitVec 32 := 0
  valid : Bool := false

structure UdpSocket where
  localPort : Port := 0
  inUse : Bool := false
  rxBuf : Nat → UInt8 := fun _ => 0
  rxLen : Int := 0
  rxSrcIp : Ip := 0
  rxSrcPort : Port := 0

structure TcpSocket where
  id : Nat := 0
  inUse : Bool := false
  state : TcpState := .closed
  localIp : Ip := 0
  localPort : Port := 0
  remoteIp : Ip := 0
  remotePort : Port := 0
  isn : Seq := 0
  seqNum : Seq := 0
  ackNum : Seq := 0
  rcvNxt : Seq := 0
  rxBuf : Nat → UInt8 := fun _ => 0
  rxLen : Int := 0
  backlog : Int := 0
  pendingCount : Int := 0
  pendingIds : Nat → Nat := fun _ => 0

def TcpSocket.segment (sock : TcpSocket) (flags : Flags) (data : List UInt8) : Tcp.Segment where
  srcPort := sock.localPort
  dstPort := sock.remotePort
  seq := sock.seqNum
  ack := sock.ackNum
  flags := flags
  payload := data

inductive Packet
  | arpRequest (targetIp : Ip)
  | arpReply (srcIp : Ip) (dstMac : List UInt8) (dstIp : Ip)
  | ip (dstIp : Ip) (protocol : Nat) (payload : List UInt8)

structure Stack where
  netIfs : List NetIf
  arpCache : Fin arpCacheSize → ArpEntry
  arpAgeCounter : BitVec 32
  udpSockets : Fin maxUdpSockets → UdpSocket
  tcpSockets : Slot → TcpSocket
  nextId : Nat
  iss : Seq
  sent : List Packet

/-- Whether `kmalloc` has memory for a packet, whether the layers below take it, and the
checksum computed for it. -/
structure Env where
  memory : Bool
  accepted : Bool
  sum : BitVec 16

/-! ## Checksums -/

def checksumLoop (buf : List UInt8) : Nat → Nat → BitVec 32 → Checked (BitVec 32)
  | _, 0, sum => .ok sum
  | p, 1, sum => do
    let b ← load buf p
    return sum + BitVec.ofNat 32 b.toNat
  | p, len + 2, sum => do
    let lo ← load buf p
    let hi ← load buf (p + 1)
    checksumLoop buf (p + 2) len (sum + BitVec.ofNat 32 (lo.toNat + 256 * hi.toNat))

def foldCarry (sum : BitVec 32) : BitVec 32 :=
  if sum >>> 16 = 0 then sum else (sum &&& 0xFFFF#32) + (sum >>> 16)

/-- `checksum_calc`; the carries are gone after two turns. -/
def checksumCalc (buf : List UInt8) (p : Nat) (len : Int) : Checked (BitVec 16) := do
  let sum ← checksumLoop buf p len.toNat 0
  return ~~~((foldCarry (foldCarry sum)).setWidth 16)

/-! ## Interfaces and ARP -/

namespace Stack

variable (s : Stack) (env : Env)

def setTcp (i : Slot) (sock : TcpSocket) : Stack :=
  { s with tcpSockets := update s.tcpSockets i sock }

def setUdp (i : Fin maxUdpSockets) (sock : UdpSocket) : Stack :=
  { s with udpSockets := update s.udpSockets i sock }

def setArp (i : Fin arpCacheSize) (entry : ArpEntry) : Stack :=
  { s with arpCache := update s.arpCache i entry }

def emit (packet : Packet) : Stack := { s with sent := s.sent ++ [packet] }

def firstUp : Option NetIf := s.netIfs.find? fun n => n.up && n.hasDev

def netIfFindByIp (ip : Ip) : Option NetIf :=
  match s.netIfs.find? fun n => n.ip == ip with
  | some n => some n
  | none => s.firstUp

/-- `arp_cache_find`, which makes the entry the youngest one. -/
def arpCacheFind (ip : Ip) : Option (List UInt8) × Stack :=
  match (finRange arpCacheSize).find? fun i =>
      (s.arpCache i).valid && (s.arpCache i).ip == ip with
  | some i =>
    let age := s.arpAgeCounter + 1
    (some (s.arpCache i).mac,
      { s.setArp i { s.arpCache i with age := age } with arpAgeCounter := age })
  | none => (none, s)

/-- The search of `arp_cache_add`: the first entry that is not valid, or the oldest one. -/
def arpTarget (cache : Fin arpCacheSize → ArpEntry) :
    List (Fin arpCacheSize) → Fin arpCacheSize → BitVec 32 → Fin arpCacheSize :=
  victim (fun i => (cache i).valid) fun i => (cache i).age

def arpCacheAdd (ip : Ip) (mac : List UInt8) : Stack :=
  let first : Fin arpCacheSize := ⟨0, by decide⟩
  let target :=
    arpTarget s.arpCache (finRange arpCacheSize) first (s.arpCache first).age
  let age := s.arpAgeCounter + 1
  { s.setArp target ⟨ip, mac, age, true⟩ with arpAgeCounter := age }

/-- `arp_lookup`, which asks on every interface for an address it does not know. -/
def arpLookup (ip : Ip) : Stack :=
  match s.arpCacheFind ip with
  | (some _, s) => s
  | (none, s) =>
    { s with
      sent := s.sent ++ (s.netIfs.filter fun n => n.up && n.hasDev).map fun _ => .arpRequest ip }

variable (frame : List UInt8)

def loadIp (p : Nat) : Checked Ip := do
  let v ← loadBe frame p 4
  return BitVec.ofNat 32 v

def arpHandlePacket (data : Nat) (len : Int) : Checked Stack := do
  if len < arpHdrSize then return s
  let htype ← loadBe frame data 2
  if htype ≠ arpHtypeEth then return s
  let ptype ← loadBe frame (data + 2) 2
  if ptype ≠ ethIpv4 then return s
  let hlen ← load frame (data + 4)
  let plen ← load frame (data + 5)
  if hlen ≠ 6 ∨ plen ≠ 4 then return s
  let oper ← loadBe frame (data + 6) 2
  if oper = arpRequest then
    let tpa ← loadIp frame (data + 24)
    match s.netIfFindByIp tpa with
    | none => return s
    | some iface =>
      if !iface.hasDev then return s
      let sha ← loadRange frame (data + 8) 6
      let spa ← loadIp frame (data + 14)
      return s.emit (.arpReply iface.ip sha spa)
  else if oper = arpReply then
    let spa ← loadIp frame (data + 14)
    let sha ← loadRange frame (data + 8) 6
    return s.arpCacheAdd spa sha
  else return s

/-! ## Sending -/

/-- `ip_send`; `true` is a result that is not negative. -/
def ipSend (dstIp : Ip) (protocol : Nat) (data : List UInt8) : Bool × Stack :=
  match (s.netIfFindByIp dstIp).or s.netIfs.head? with
  | none => (false, s)
  | some iface =>
    if !iface.hasDev then (false, s)
    else
      let s := s.arpLookup dstIp
      if env.accepted then (true, s.emit (.ip dstIp protocol data)) else (false, s)

/-- `tcp_send_packet` for a socket of the table; `true` is a result that is not negative. -/
def tcpSendPacket (i : Slot) (flags : Flags) (data : List UInt8) : Bool × Stack :=
  let sock := s.tcpSockets i
  match s.netIfFindByIp sock.remoteIp with
  | none => (false, s)
  | some iface =>
    if !iface.hasDev || !env.memory then (false, s)
    else
      let packet := (sock.segment flags data).bytes env.sum
      let (taken, s) := s.ipSend env sock.remoteIp ipProtoTcp packet
      if taken then
        let seqNum := if flags.has (tcpSyn ||| tcpFin) then sock.seqNum + 1 else sock.seqNum
        (true, s.setTcp i { sock with seqNum := seqNum + BitVec.ofNat 32 data.length })
      else (false, s)

def udpSend (srcPort : Port) (dstIp : Ip) (dstPort : Port) (data : List UInt8) : Bool × Stack :=
  match s.netIfFindByIp dstIp with
  | none => (false, s)
  | some iface =>
    if !iface.hasDev || !env.memory then (false, s)
    else
      let packet := Tcp.be16 srcPort.toNat ++ Tcp.be16 dstPort.toNat ++
        Tcp.be16 (udpHdrSize + data.length) ++ Tcp.be16 env.sum.toNat ++ data
      s.ipSend env dstIp ipProtoUdp (packet.take ((udpHdrSize + data.length) % 2 ^ 16))

/-! ## ICMP and UDP -/

def icmpHandlePacket (srcIp data : Nat) (len : Int) : Checked Stack := do
  if len < icmpHdrSize then return s
  let csum ← checksumCalc frame data len
  if csum ≠ 0 ∧ csum ≠ 0xFFFF then return s
  let type ← load frame data
  let code ← load frame (data + 1)
  if type.toNat = icmpEchoRequest ∧ code = 0 then
    if !env.memory then return s
    let bytes ← loadRange frame data (toSize len)
    -- The type and the code are cleared, and the checksum is computed over zeros in its place.
    let cleared := [0, 0, 0, 0] ++ bytes.drop 4
    let sum ← checksumCalc cleared 0 len
    let reply := [0, 0, UInt8.ofNat sum.toNat, UInt8.ofNat (sum.toNat / 256)] ++ bytes.drop 4
    let src ← loadIp frame srcIp
    return (s.ipSend env src ipProtoIcmp reply).2
  else return s

def copyDatagram (sock : UdpSocket) (p : Nat) (copyLen : Int) : Checked (Nat → UInt8) :=
  if copyLen > 0 then do
    let bytes ← loadRange frame p (toSize copyLen)
    storeRange udpRxBufSize sock.rxBuf 0 bytes
  else .ok sock.rxBuf

def udpDeliver (srcIp data : Nat) (dataLen : Int) (srcPort : Port)
    (i : Fin maxUdpSockets) : Checked Stack := do
  let sock := s.udpSockets i
  let copyLen := if dataLen > udpRxBufSize then (udpRxBufSize : Int) else dataLen
  let rxBuf ← copyDatagram frame sock (data + udpHdrSize) copyLen
  let src ← loadIp frame srcIp
  return s.setUdp i
    { sock with rxBuf := rxBuf, rxLen := copyLen, rxSrcIp := src, rxSrcPort := srcPort }

def udpHandlePacket (srcIp data : Nat) (len : Int) : Checked Stack := do
  if len < udpHdrSize then return s
  let dstPort ← loadBe frame (data + 2) 2
  let srcPort ← loadBe frame data 2
  let dataLen := len - udpHdrSize
  match (finRange maxUdpSockets).find? fun i =>
      (s.udpSockets i).inUse && (s.udpSockets i).localPort == BitVec.ofNat 16 dstPort with
  | none => return s
  | some i => s.udpDeliver frame srcIp data dataLen (BitVec.ofNat 16 srcPort) i

def udpRecvfrom (port : Port) (maxLen : Int) : Checked (Int × List UInt8 × Stack) :=
  if maxLen < 0 then .ok (-1, [], s)
  else
    match (finRange maxUdpSockets).find? fun i =>
        (s.udpSockets i).inUse && (s.udpSockets i).localPort == port &&
          decide ((s.udpSockets i).rxLen > 0) with
    | none => .ok (-1, [], s)
    | some i => do
      let sock := s.udpSockets i
      let copyLen := if sock.rxLen > maxLen then maxLen else sock.rxLen
      let bytes ← loadCells udpRxBufSize sock.rxBuf 0 (toSize copyLen)
      return (copyLen, bytes, s.setUdp i { sock with rxLen := 0 })

/-! ## TCP -/

def findSlot (p : TcpSocket → Bool) : Option Slot :=
  (finRange maxTcpSockets).find? fun i => p (s.tcpSockets i)

def tcpFindSocket (sock : Int) : Option Slot := s.findSlot fun t => t.inUse && (t.id : Int) == sock

def tcpFindByAddr (srcIp : Ip) (srcPort : Port) (dstIp : Ip) (dstPort : Port) : Option Slot :=
  s.findSlot fun t =>
    t.inUse && t.localIp == dstIp && t.localPort == dstPort && t.remoteIp == srcIp &&
      t.remotePort == srcPort

def tcpFindListener (port : Port) : Option Slot :=
  s.findSlot fun t => t.inUse && t.state == .listen && t.localPort == port

/-- The socket that `tcp_handle_packet` gives a segment to. -/
def dispatch (srcIp : Ip) (srcPort : Port) (dstIp : Ip) (dstPort : Port) : Option Slot :=
  match s.tcpFindByAddr srcIp srcPort dstIp dstPort with
  | some i => some i
  | none =>
    s.findSlot fun t =>
      t.inUse && t.localPort == dstPort && t.state == .synSent && t.remoteIp == srcIp &&
        t.remotePort == srcPort

def getIss : Seq :=
  let iss := s.iss + 0x10000
  if iss = 0 then 0x10000 else iss

def bumpId : Nat := if 2 ^ 31 ≤ s.nextId + 1 then 1 else s.nextId + 1

def addPending (listener : TcpSocket) (newId : Nat) : Checked TcpSocket :=
  if listener.pendingCount < tcpBacklogMax then do
    let ids ← storeRange tcpBacklogMax listener.pendingIds listener.pendingCount [newId]
    return { listener with pendingIds := ids, pendingCount := listener.pendingCount + 1 }
  else .ok listener

def openPassive (srcIp : Ip) (srcPort dstPort : Port) (seq : Seq) (l : Slot) : Checked Stack := do
  let listener := s.tcpSockets l
  if listener.pendingCount ≥ listener.backlog then return s
  let newId := s.nextId
  let s := { s with nextId := s.bumpId }
  match s.findSlot fun t => !t.inUse with
  | none => return s
  | some i =>
    let iss := s.getIss
    let sock : TcpSocket :=
      { id := newId
        inUse := true
        state := .synReceived
        localIp := listener.localIp
        localPort := dstPort
        remoteIp := srcIp
        remotePort := srcPort
        isn := iss
        seqNum := iss
        ackNum := seq + 1
        rcvNxt := seq + 1 }
    let s := { s.setTcp i sock with iss := iss }
    let listener ← addPending (s.tcpSockets l) newId
    return ((s.setTcp l listener).tcpSendPacket env i (tcpSyn ||| tcpAck) []).2

def copyData (sock : TcpSocket) (payload : Nat) (copyLen : Int) : Checked TcpSocket :=
  if copyLen > 0 then do
    let bytes ← loadRange frame payload (toSize copyLen)
    let rxBuf ← storeRange tcpRxBufSize sock.rxBuf sock.rxLen bytes
    return { sock with rxBuf := rxBuf, rxLen := sock.rxLen + copyLen }
  else .ok sock

def acceptData (sock : TcpSocket) (seq : Seq) (payload : Nat)
    (payloadLen : Int) : Checked TcpSocket := do
  let copyLen :=
    if payloadLen > tcpRxBufSize - sock.rxLen then tcpRxBufSize - sock.rxLen else payloadLen
  let sock ← copyData frame sock payload copyLen
  let ackNum := seq + BitVec.ofInt 32 payloadLen
  return { sock with ackNum := ackNum, rcvNxt := ackNum }

def handleSegment (sock : TcpSocket) (flags : Flags) (seq : Seq)
    (payload : Nat) (payloadLen : Int) : Checked (TcpSocket × Bool) :=
  match sock.state with
  | .synSent =>
    if flags.hasAll (tcpSyn ||| tcpAck) then
      .ok ({ sock with ackNum := seq + 1, rcvNxt := seq + 1, state := .established }, true)
    else if flags.has tcpRst then .ok ({ sock with state := .closed }, false)
    else .ok (sock, false)
  | .synReceived =>
    if flags.has tcpRst then .ok ({ sock with state := .closed }, false)
    else if flags.has tcpAck then .ok ({ sock with ackNum := seq, state := .established }, false)
    else .ok (sock, false)
  | .established =>
    if flags.has tcpRst then .ok ({ sock with state := .closed }, false)
    else if flags.has tcpFin then
      .ok ({ sock with ackNum := seq + 1, state := .closeWait }, true)
    else if payloadLen > 0 then do
      let sock ← acceptData frame sock seq payload payloadLen
      return (sock, true)
    else .ok (sock, false)
  | .finWait1 =>
    if flags.has tcpRst then .ok ({ sock with state := .closed }, false)
    else if flags.hasAll (tcpFin ||| tcpAck) then
      .ok ({ sock with ackNum := seq + 1, state := .timeWait }, true)
    else if flags.has tcpAck then .ok ({ sock with state := .finWait2 }, false)
    else .ok (sock, false)
  | .finWait2 =>
    if flags.has tcpRst then .ok ({ sock with state := .closed }, false)
    else if flags.has tcpFin then
      .ok ({ sock with ackNum := seq + 1, state := .timeWait }, true)
    else .ok (sock, false)
  | .lastAck =>
    if flags.has tcpRst then .ok ({ sock with state := .closed }, false)
    else if flags.has tcpAck then .ok ({ sock with state := .closed }, false)
    else .ok (sock, false)
  | .closeWait | .timeWait | .closed | .listen => .ok (sock, false)

def tcpHandlePacket (srcIp dstIp data : Nat) (len : Int) : Checked Stack := do
  if len < tcpHdrSize then return s
  let offsetFlags ← loadBe frame (data + 12) 2
  let dataOffset := offsetFlags / 4096 * 4
  let flags : Flags := BitVec.ofNat 8 (offsetFlags % 64)
  if dataOffset < tcpHdrSize ∨ (dataOffset : Int) > len then return s
  let srcPort ← loadBe frame data 2
  let dstPort ← loadBe frame (data + 2) 2
  let seq ← loadBe frame (data + 4) 4
  let srcPort := BitVec.ofNat 16 srcPort
  let dstPort := BitVec.ofNat 16 dstPort
  let seq := BitVec.ofNat 32 seq
  let payloadLen := len - dataOffset
  let payload := data + dataOffset
  let src ← loadIp frame srcIp
  let dst ← loadIp frame dstIp
  match s.dispatch src srcPort dst dstPort with
  | some i =>
    let (sock, answers) ← handleSegment frame (s.tcpSockets i) flags seq payload payloadLen
    let s := s.setTcp i sock
    return if answers then (s.tcpSendPacket env i tcpAck []).2 else s
  | none =>
    match s.tcpFindListener dstPort with
    | none => return s
    | some l =>
      if flags.has tcpSyn && !flags.has tcpAck then s.openPassive env src srcPort dstPort seq l
      else return s

/-! ## IPv4 and Ethernet -/

def ipHandlePacket (data : Nat) (len : Int) : Checked Stack := do
  if len < ipv4HdrSize then return s
  let versionIhl ← load frame data
  let ihl := versionIhl.toNat % 16 * 4
  if ihl < ipv4HdrSize ∨ (ihl : Int) > len then return s
  let totalLen ← loadBe frame (data + 2) 2
  if totalLen < ihl ∨ (totalLen : Int) > len % 2 ^ 16 then return s
  let csum ← checksumCalc frame data ihl
  if csum ≠ 0 ∧ csum ≠ 0xFFFF then return s
  let dstIp ← loadIp frame (data + 16)
  if !(s.netIfs.any fun n => n.ip == dstIp) then return s
  let payload := data + ihl
  let payloadLen : Int := totalLen - ihl
  let protocol ← load frame (data + 9)
  if protocol.toNat = ipProtoIcmp then
    s.icmpHandlePacket env frame (data + 12) payload payloadLen
  else if protocol.toNat = ipProtoUdp then
    s.udpHandlePacket frame (data + 12) payload payloadLen
  else if protocol.toNat = ipProtoTcp then
    s.tcpHandlePacket env frame (data + 12) (data + 16) payload payloadLen
  else return s

def processEthFrame : Checked Stack := do
  let len : Int := frame.length
  if len < ethHdrSize then return s
  let ethertype ← loadBe frame 12 2
  let payload := ethHdrSize
  let payloadLen := len - ethHdrSize
  if ethertype = ethArp then s.arpHandlePacket frame payload payloadLen
  else if ethertype = ethIpv4 then s.ipHandlePacket env frame payload payloadLen
  else return s

/-! ## Socket calls -/

def withSocket (sock : Int) (f : Slot → TcpSocket → Checked (Int × Stack)) :
    Checked (Int × Stack) :=
  match s.tcpFindSocket sock with
  | some i => f i (s.tcpSockets i)
  | none => .ok (-1, s)

def tcpSocketCreate : Int × Stack :=
  match s.findSlot fun t => !t.inUse with
  | some i =>
    (s.nextId, { s.setTcp i { id := s.nextId, inUse := true } with nextId := s.bumpId })
  | none => (-1, s)

def tcpBind (sock : Int) (port : Port) : Checked (Int × Stack) :=
  s.withSocket sock fun i t =>
    let localIp := match s.firstUp with
      | some n => n.ip
      | none => t.localIp
    .ok (0, s.setTcp i { t with localPort := port, localIp := localIp })

def tcpConnect (sock : Int) (dstIp : Ip) (dstPort : Port) : Checked (Int × Stack) :=
  s.withSocket sock fun i t =>
    if t.state ≠ .closed then .ok (-1, s)
    else
      match s.netIfFindByIp dstIp with
      | none => .ok (-1, s)
      | some n =>
        let iss := s.getIss
        let t : TcpSocket :=
          { t with
            localIp := n.ip
            localPort :=
              if t.localPort = 0 then BitVec.ofInt 16 (49152 + sock.tmod 16384) else t.localPort
            remoteIp := dstIp
            remotePort := dstPort
            isn := iss
            seqNum := iss
            ackNum := 0
            rcvNxt := 0
            state := .synSent }
        .ok (0, ({ s.setTcp i t with iss := iss }.tcpSendPacket env i tcpSyn []).2)

def tcpSend (sock : Int) (data : List UInt8) : Checked (Int × Stack) :=
  s.withSocket sock fun i t =>
    if t.state ≠ .established ∧ t.state ≠ .closeWait then .ok (-1, s)
    else if data.length = 0 then .ok (0, s)
    else
      let chunk := data.take tcpMaxSegment
      let (taken, s) := s.tcpSendPacket env i (tcpPsh ||| tcpAck) chunk
      .ok (if taken then chunk.length else -1, s)

def tcpRecv (sock : Int) (maxLen : Int) : Checked (Int × Stack) :=
  s.withSocket sock fun i t => do
    if t.rxLen ≤ 0 then return (0, s)
    let copyLen := if t.rxLen > maxLen then maxLen else t.rxLen
    let _ ← loadCells tcpRxBufSize t.rxBuf 0 (toSize copyLen)
    if copyLen < t.rxLen then
      let remaining := t.rxLen - copyLen
      let rest ← loadCells tcpRxBufSize t.rxBuf copyLen remaining.toNat
      let rxBuf ← storeRange tcpRxBufSize t.rxBuf 0 rest
      return (copyLen, s.setTcp i { t with rxBuf := rxBuf, rxLen := remaining })
    else return (copyLen, s.setTcp i { t with rxLen := 0 })

def startClose (i : Slot) (t : TcpSocket) (state : TcpState) : Checked (Int × Stack) :=
  .ok (0, ((s.setTcp i { t with state := state }).tcpSendPacket env i (tcpFin ||| tcpAck) []).2)

def tcpClose (sock : Int) : Checked (Int × Stack) :=
  s.withSocket sock fun i t =>
    match t.state with
    | .established => s.startClose env i t .finWait1
    | .closeWait => s.startClose env i t .lastAck
    | .closed => .ok (0, s)
    | _ => .ok (-1, s)

def tcpShutdown (sock : Int) : Checked (Int × Stack) :=
  s.withSocket sock fun i t =>
    match t.state with
    | .established => s.startClose env i t .finWait1
    | .closeWait => s.startClose env i t .lastAck
    | _ => .ok (-1, s)

def tcpListen (sock backlog : Int) : Checked (Int × Stack) :=
  s.withSocket sock fun i t =>
    let backlog := if backlog < 0 then 0 else backlog
    let backlog := if backlog > tcpBacklogMax then (tcpBacklogMax : Int) else backlog
    .ok (0, s.setTcp i { t with backlog := backlog, state := .listen, pendingCount := 0 })

def tcpAccept (sock : Int) : Checked (Int × Stack) :=
  s.withSocket sock fun i t => do
    if t.state ≠ .listen then return (-1, s)
    if t.pendingCount ≤ 0 then return (-1, s)
    let accepted ← loadCells tcpBacklogMax t.pendingIds 0 1
    let pendingCount := t.pendingCount - 1
    let rest ← loadCells tcpBacklogMax t.pendingIds 1 pendingCount.toNat
    let ids ← storeRange tcpBacklogMax t.pendingIds 0 rest
    return (accepted.headD 0, s.setTcp i { t with pendingIds := ids, pendingCount := pendingCount })

end Stack

inductive Call
  | create
  | bind (sock : Int) (port : Port)
  | connect (sock : Int) (dstIp : Ip) (dstPort : Port)
  | send (sock : Int) (data : List UInt8)
  | recv (sock : Int) (maxLen : Int)
  | close (sock : Int)
  | shutdown (sock : Int)
  | listen (sock backlog : Int)
  | accept (sock : Int)
  | udpSend (srcPort : Port) (dstIp : Ip) (dstPort : Port) (data : List UInt8)
  | udpRecvfrom (port : Port) (maxLen : Int)
  | configure (netIfs : List NetIf)

/-- The length of the buffer of a call is not negative. -/
def Call.Admissible : Call → Prop
  | recv _ maxLen => 0 ≤ maxLen
  | udpRecvfrom _ maxLen => 0 ≤ maxLen
  | _ => True

def Stack.call (s : Stack) (env : Env) : Call → Checked Stack
  | .create => .ok s.tcpSocketCreate.2
  | .bind sock port => (s.tcpBind sock port).map (·.2)
  | .connect sock dstIp dstPort => (s.tcpConnect env sock dstIp dstPort).map (·.2)
  | .send sock data => (s.tcpSend env sock data).map (·.2)
  | .recv sock maxLen => (s.tcpRecv sock maxLen).map (·.2)
  | .close sock => (s.tcpClose env sock).map (·.2)
  | .shutdown sock => (s.tcpShutdown env sock).map (·.2)
  | .listen sock backlog => (s.tcpListen sock backlog).map (·.2)
  | .accept sock => (s.tcpAccept sock).map (·.2)
  | .udpSend srcPort dstIp dstPort data => .ok (s.udpSend env srcPort dstIp dstPort data).2
  | .udpRecvfrom port maxLen => (s.udpRecvfrom port maxLen).map (·.2.2)
  | .configure netIfs => .ok { s with netIfs := netIfs }

end AuroraOS.Net
