import AuroraOS.Net.Model

/-!
# Frames stay within their buffers

Every handler gets an offset and a length of a part of the frame that is there, and passes on a
smaller one; the receive buffers and queues keep counters within their sizes (`Stack.Ok`).  So
no access of any handler is outside its buffer, whatever the frame holds.
-/

namespace AuroraOS.Net

open Lib Function List Stack
open Tcp (Ip Port Seq Flags NetIf Slot tcpRxBufSize tcpBacklogMax tcpHdrSize)

structure TcpSocket.Ok (t : TcpSocket) : Prop where
  rx : 0 ≤ t.rxLen ∧ t.rxLen ≤ tcpRxBufSize
  pending : 0 ≤ t.pendingCount ∧ t.pendingCount ≤ t.backlog
  backlog : t.backlog ≤ tcpBacklogMax

structure UdpSocket.Ok (t : UdpSocket) : Prop where
  rx : 0 ≤ t.rxLen ∧ t.rxLen ≤ udpRxBufSize

structure Stack.Ok (s : Stack) : Prop where
  tcp : ∀ i, (s.tcpSockets i).Ok
  udp : ∀ i, (s.udpSockets i).Ok

lemma TcpSocket.Ok.new {t : TcpSocket} (rx : t.rxLen = 0) (pending : t.pendingCount = 0)
    (backlog : t.backlog = 0) : t.Ok := by
  refine ⟨?_, ?_, ?_⟩
  · rw [rx]
    decide
  · rw [pending, backlog]
    decide
  · rw [backlog]
    decide

lemma TcpSocket.Ok.congr {t t' : TcpSocket} (ok : t.Ok) (rx : t'.rxLen = t.rxLen)
    (pending : t'.pendingCount = t.pendingCount) (backlog : t'.backlog = t.backlog) : t'.Ok := by
  refine ⟨?_, ?_, ?_⟩
  · rw [rx]
    exact ok.rx
  · rw [pending, backlog]
    exact ok.pending
  · rw [backlog]
    exact ok.backlog

lemma toSize_of_nonneg {n : Int} (low : 0 ≤ n) (high : n < 2 ^ 64) : toSize n = n.toNat := by
  unfold toSize
  omega

namespace Stack

variable (s : Stack)

@[simp] lemma setTcp_self (i : Slot) (t : TcpSocket) : (s.setTcp i t).tcpSockets i = t :=
  update_self ..

lemma setTcp_of_ne {i j : Slot} (other : j ≠ i) (t : TcpSocket) :
    (s.setTcp i t).tcpSockets j = s.tcpSockets j :=
  update_of_ne other ..

@[simp] lemma setUdp_self (i : Fin maxUdpSockets) (t : UdpSocket) :
    (s.setUdp i t).udpSockets i = t :=
  update_self ..

lemma setUdp_of_ne {i j : Fin maxUdpSockets} (other : j ≠ i) (t : UdpSocket) :
    (s.setUdp i t).udpSockets j = s.udpSockets j :=
  update_of_ne other ..

/-! ## Sending -/

lemma arpLookup_same (ip : Ip) : (s.arpLookup ip).tcpSockets = s.tcpSockets ∧
    (s.arpLookup ip).udpSockets = s.udpSockets := by
  unfold arpLookup arpCacheFind
  cases (finRange arpCacheSize).find? fun i =>
      (s.arpCache i).valid && (s.arpCache i).ip == ip with
  | none => exact ⟨rfl, rfl⟩
  | some i => exact ⟨rfl, rfl⟩

lemma ipSend_same (env : Env) (dstIp : Ip) (protocol : Nat) (data : List UInt8) :
    (s.ipSend env dstIp protocol data).2.tcpSockets = s.tcpSockets ∧
      (s.ipSend env dstIp protocol data).2.udpSockets = s.udpSockets := by
  unfold ipSend
  split
  · exact ⟨rfl, rfl⟩
  · split
    · exact ⟨rfl, rfl⟩
    · split <;> exact s.arpLookup_same dstIp

lemma udpSend_same (env : Env) (srcPort : Port) (dstIp : Ip) (dstPort : Port)
    (data : List UInt8) : (s.udpSend env srcPort dstIp dstPort data).2.tcpSockets = s.tcpSockets ∧
      (s.udpSend env srcPort dstIp dstPort data).2.udpSockets = s.udpSockets := by
  unfold udpSend
  split
  · exact ⟨rfl, rfl⟩
  · split
    · exact ⟨rfl, rfl⟩
    · exact s.ipSend_same ..

end Stack

namespace Stack.Ok

variable {s : Stack}

variable (ok : s.Ok)
include ok

lemma setTcp (i : Slot) {t : TcpSocket} (new : t.Ok) : (s.setTcp i t).Ok := by
  refine ⟨fun j => ?_, ok.udp⟩
  rcases eq_or_ne j i with rfl | other
  · rw [setTcp_self]
    exact new
  · rw [setTcp_of_ne s other]
    exact ok.tcp j

lemma setUdp (i : Fin maxUdpSockets) {t : UdpSocket} (new : t.Ok) : (s.setUdp i t).Ok := by
  refine ⟨ok.tcp, fun j => ?_⟩
  rcases eq_or_ne j i with rfl | other
  · rw [setUdp_self]
    exact new
  · rw [setUdp_of_ne s other]
    exact ok.udp j

lemma congr {s' : Stack} (tcp : s'.tcpSockets = s.tcpSockets)
    (udp : s'.udpSockets = s.udpSockets) : s'.Ok :=
  ⟨fun i => tcp ▸ ok.tcp i, fun i => udp ▸ ok.udp i⟩

lemma withIss (iss : Seq) : Ok { s with iss := iss } :=
  ok.congr rfl rfl

lemma withNextId (nextId : Nat) : Ok { s with nextId := nextId } :=
  ok.congr rfl rfl

lemma ipSend (env : Env) (dstIp : Ip) (protocol : Nat) (data : List UInt8) :
    (s.ipSend env dstIp protocol data).2.Ok :=
  ok.congr (s.ipSend_same ..).1 (s.ipSend_same ..).2

lemma tcpSendPacket (env : Env) (i : Slot) (flags : Flags) (data : List UInt8) :
    (s.tcpSendPacket env i flags data).2.Ok := by
  unfold Stack.tcpSendPacket
  dsimp only
  split
  · exact ok
  split
  · exact ok
  split
  · exact (ok.ipSend env _ _ _).setTcp i ((ok.tcp i).congr rfl rfl rfl)
  · exact ok.ipSend env _ _ _

end Stack.Ok

/-! ## Checksums -/

lemma checksumLoop_ensures (buf : List UInt8) (p len : Nat) (sum : BitVec 32)
    (inside : p + len ≤ buf.length) : Ensures (checksumLoop buf p len sum) fun _ => True := by
  induction p, len, sum using checksumLoop.induct with
  | case1 p sum => exact .ok trivial
  | case2 p sum =>
    unfold checksumLoop
    exact (load_ensures (by omega)).bind fun _ _ => .ok trivial
  | case3 p len sum ih =>
    unfold checksumLoop
    refine (load_ensures (by omega)).bind fun lo _ => ?_
    exact (load_ensures (by omega)).bind fun hi _ => ih lo hi (by omega)

lemma checksumCalc_ensures {buf : List UInt8} {p : Nat} {len : Int}
    (inside : p + len.toNat ≤ buf.length) : Ensures (checksumCalc buf p len) fun _ => True :=
  (checksumLoop_ensures buf p len.toNat 0 inside).bind fun _ _ => .ok trivial

/-! ## The handlers -/

def Part (frame : List UInt8) (p : Nat) (len : Int) : Prop := (p : Int) + len ≤ frame.length

namespace Stack

variable {s : Stack} {frame : List UInt8} {data : Nat} {len : Int}

lemma loadIp_ensures {p : Nat} (inside : p + 4 ≤ frame.length) :
    Ensures (loadIp frame p) fun _ => True :=
  (loadBe_ensures inside).bind fun _ _ => .ok trivial

lemma arpHandlePacket_ensures (ok : s.Ok) (part : Part frame data len) :
    Ensures (s.arpHandlePacket frame data len) Ok := by
  unfold arpHandlePacket Part at *
  refine .ite (fun _ => .ok ok) fun long => ?_
  simp only [arpHdrSize] at long
  refine (loadBe_ensures (by omega)).bind fun htype _ => ?_
  refine .ite (fun _ => .ok ok) fun _ => ?_
  refine (loadBe_ensures (by omega)).bind fun ptype _ => ?_
  refine .ite (fun _ => .ok ok) fun _ => ?_
  refine (load_ensures (by omega)).bind fun hlen _ => ?_
  refine (load_ensures (by omega)).bind fun plen _ => ?_
  refine .ite (fun _ => .ok ok) fun _ => ?_
  refine (loadBe_ensures (by omega)).bind fun oper _ => ?_
  refine .ite (fun _ => ?_) fun _ => .ite (fun _ => ?_) fun _ => .ok ok
  · refine (loadIp_ensures (by omega)).bind fun tpa _ => ?_
    split
    · exact .ok ok
    · refine .ite (fun _ => .ok ok) fun _ => ?_
      refine (loadRange_ensures (by omega)).bind fun sha _ => ?_
      exact (loadIp_ensures (by omega)).bind fun spa _ => .ok (ok.congr rfl rfl)
  · refine (loadIp_ensures (by omega)).bind fun spa _ => ?_
    exact (loadRange_ensures (by omega)).bind fun sha _ => .ok (ok.congr rfl rfl)

variable {srcIp payload : Nat}

lemma icmpHandlePacket_ensures (ok : s.Ok) (env : Env)
    (src : srcIp + 4 ≤ frame.length) (part : Part frame data len)
    (small : len < 2 ^ 64) : Ensures (s.icmpHandlePacket env frame srcIp data len) Ok := by
  unfold icmpHandlePacket Part at *
  refine .ite (fun _ => .ok ok) fun long => ?_
  simp only [icmpHdrSize] at long
  refine (checksumCalc_ensures (by omega)).bind fun csum _ => ?_
  refine .ite (fun _ => .ok ok) fun _ => ?_
  refine (load_ensures (by omega)).bind fun type _ => ?_
  refine (load_ensures (by omega)).bind fun code _ => ?_
  refine .ite (fun _ => .ite (fun _ => .ok ok) fun _ => ?_) fun _ => .ok ok
  have size : toSize len = len.toNat := toSize_of_nonneg (by omega) small
  refine (loadRange_ensures (by omega)).bind fun bytes got => ?_
  have whole : 0 + len.toNat ≤ ([0, 0, 0, 0] ++ bytes.drop 4).length := by
    rw [length_append, length_drop, got.2, size]
    simp only [length_cons]
    omega
  refine (checksumCalc_ensures whole).bind fun sum _ => ?_
  exact (loadIp_ensures src).bind fun src _ => .ok (ok.ipSend env _ _ _)

lemma copyDatagram_ensures (sock : UdpSocket) {p : Nat} (part : Part frame p len)
    (nonneg : 0 ≤ len) (fits : len ≤ udpRxBufSize) :
    Ensures (copyDatagram frame sock p len) fun _ => True := by
  unfold copyDatagram Part at *
  refine .ite (fun _ => ?_) fun _ => .ok trivial
  have size : toSize len = len.toNat := by
    simp only [udpRxBufSize] at fits
    exact toSize_of_nonneg nonneg (by omega)
  refine (loadRange_ensures (by omega)).bind fun bytes got => ?_
  refine (storeRange_ensures (Int.le_refl 0) ?_).mono fun _ _ => trivial
  omega

lemma clamped {room : Int} (nonneg : 0 ≤ len) (some : 0 ≤ room) : ∃ copyLen,
    (if len > room then room else len) = copyLen ∧ 0 ≤ copyLen ∧ copyLen ≤ len ∧
      copyLen ≤ room := by
  split <;> exact ⟨_, rfl, by omega⟩

lemma udpDeliver_ensures (ok : s.Ok) (src : srcIp + 4 ≤ frame.length)
    (part : Part frame (data + udpHdrSize) len) (nonneg : 0 ≤ len) (srcPort : Port)
    (i : Fin maxUdpSockets) : Ensures (s.udpDeliver frame srcIp data len srcPort i) Ok := by
  obtain ⟨copyLen, clamp, low, inside, fits⟩ := clamped nonneg (Int.natCast_nonneg udpRxBufSize)
  unfold udpDeliver
  rw [clamp]
  have copied : Part frame (data + udpHdrSize) copyLen := by
    unfold Part at *
    omega
  refine (copyDatagram_ensures _ copied low fits).bind fun rxBuf _ => ?_
  exact (loadIp_ensures src).bind fun src _ => .ok (ok.setUdp i ⟨low, fits⟩)

lemma udpHandlePacket_ensures (ok : s.Ok) (src : srcIp + 4 ≤ frame.length)
    (part : Part frame data len) : Ensures (s.udpHandlePacket frame srcIp data len) Ok := by
  unfold udpHandlePacket
  refine .ite (fun _ => .ok ok) fun long => ?_
  have whole := part
  unfold Part at whole
  simp only [udpHdrSize] at long
  refine (loadBe_ensures (by omega)).bind fun dstPort _ => ?_
  refine (loadBe_ensures (by omega)).bind fun srcPort _ => ?_
  split
  · exact .ok ok
  · refine udpDeliver_ensures ok src ?_ ?_ _ _
    · simp only [Part]
      omega
    · simp only [udpHdrSize]
      omega

/-! ## TCP -/

variable {sock : TcpSocket}

lemma copyData_ensures (ok : sock.Ok)
    (part : Part frame payload len) (nonneg : 0 ≤ len) (fits : sock.rxLen + len ≤ tcpRxBufSize) :
    Ensures (copyData frame sock payload len) TcpSocket.Ok := by
  have rx := ok.rx
  unfold copyData Part at *
  refine .ite (fun _ => ?_) fun _ => .ok ok
  have size : toSize len = len.toNat := by
    simp only [tcpRxBufSize] at fits
    exact toSize_of_nonneg nonneg (by omega)
  refine (loadRange_ensures (by omega)).bind fun bytes got => ?_
  have room : sock.rxLen.toNat + bytes.length ≤ tcpRxBufSize := by
    omega
  refine (storeRange_ensures rx.1 room).bind fun rxBuf _ => .ok ?_
  exact ⟨⟨Int.add_nonneg rx.1 nonneg, fits⟩, ok.pending, ok.backlog⟩

lemma acceptData_ensures (ok : sock.Ok) (seq : Seq)
    (part : Part frame payload len) (positive : 0 < len) :
    Ensures (acceptData frame sock seq payload len) TcpSocket.Ok := by
  have rx := ok.rx
  obtain ⟨copyLen, clamp, low, inside, fits⟩ := clamped positive.le
    (show 0 ≤ tcpRxBufSize - sock.rxLen by omega)
  unfold acceptData
  rw [clamp]
  have copied : Part frame payload copyLen := by
    unfold Part at *
    omega
  refine (copyData_ensures ok copied low (by omega)).bind fun sock' ok' => ?_
  exact .ok (ok'.congr rfl rfl rfl)

lemma handleSegment_ensures (ok : sock.Ok) (flags : Flags) (seq : Seq)
    (part : Part frame payload len) :
    Ensures (handleSegment frame sock flags seq payload len) fun out => out.1.Ok := by
  have same : ∀ {t : TcpSocket} {answers : Bool}, t.rxLen = sock.rxLen →
      t.pendingCount = sock.pendingCount → t.backlog = sock.backlog →
      Ensures (.ok (t, answers)) fun out => out.1.Ok :=
    fun rx pending backlog => .ok (ok.congr rx pending backlog)
  unfold handleSegment
  split
  case h_3 =>
    refine .ite (fun _ => same rfl rfl rfl) fun _ => .ite (fun _ => same rfl rfl rfl) fun _ => ?_
    refine .ite (fun positive => ?_) fun _ => same rfl rfl rfl
    exact (acceptData_ensures ok seq part positive).bind fun sock' ok' => .ok ok'
  all_goals
    repeat' first
      | exact same rfl rfl rfl
      | refine .ite (fun _ => ?_) fun _ => ?_

lemma addPending_ensures {listener : TcpSocket} (ok : listener.Ok)
    (room : listener.pendingCount < listener.backlog) (newId : Nat) :
    Ensures (addPending listener newId) TcpSocket.Ok := by
  have pending := ok.pending
  have backlog := ok.backlog
  unfold addPending
  refine .ite (fun _ => ?_) fun _ => .ok ok
  have fits : listener.pendingCount.toNat + [newId].length ≤ tcpBacklogMax := by
    rw [length_singleton]
    omega
  refine (storeRange_ensures pending.1 fits).bind fun ids _ => .ok ?_
  exact ⟨ok.rx, ⟨by dsimp only; omega, room⟩, backlog⟩

variable (ok : s.Ok)
include ok

lemma openPassive_ensures (env : Env) (srcIp : Ip) (srcPort dstPort : Port)
    (seq : Seq) {l : Slot} (used : (s.tcpSockets l).inUse = true) :
    Ensures (s.openPassive env srcIp srcPort dstPort seq l) Ok := by
  unfold openPassive
  dsimp only
  refine .ite (fun _ => .ok ok) fun room => ?_
  split
  · exact .ok (ok.congr rfl rfl)
  rename_i i found
  have free : (s.tcpSockets i).inUse = false := by
    simpa using find?_some found
  -- The listener is in use, so the new socket is another one.
  have other : l ≠ i := by
    rintro rfl
    rw [used] at free
    cases free
  have same (sock : TcpSocket) : update s.tcpSockets i sock l = s.tcpSockets l :=
    update_of_ne other _ _
  have atListener (sock : TcpSocket) : (update s.tcpSockets i sock l).Ok := by
    rw [same]
    exact ok.tcp l
  have hasRoom (sock : TcpSocket) : (update s.tcpSockets i sock l).pendingCount <
      (update s.tcpSockets i sock l).backlog := by
    rw [same]
    omega
  refine (addPending_ensures (atListener _) (hasRoom _) _).bind fun listener ok' => .ok ?_
  refine Ok.tcpSendPacket (Ok.setTcp (Ok.withIss ?_ _) l ok') env i _ _
  exact (ok.withNextId _).setTcp i (.new rfl rfl rfl)

omit ok in
lemma findSlot_some {p : TcpSocket → Bool} {i : Slot} (found : s.findSlot p = some i) :
    p (s.tcpSockets i) = true := by
  simpa using find?_some found

lemma tcpHandlePacket_ensures (env : Env) {dstIp : Nat}
    (src : srcIp + 4 ≤ frame.length) (dst : dstIp + 4 ≤ frame.length)
    (part : Part frame data len) :
    Ensures (s.tcpHandlePacket env frame srcIp dstIp data len) Ok := by
  have whole := part
  unfold Part at whole
  unfold tcpHandlePacket
  refine .ite (fun _ => .ok ok) fun long => ?_
  simp only [tcpHdrSize] at long
  refine (loadBe_ensures (by omega)).bind fun offsetFlags _ => ?_
  refine .ite (fun _ => .ok ok) fun header => ?_
  refine (loadBe_ensures (by omega)).bind fun srcPort _ => ?_
  refine (loadBe_ensures (by omega)).bind fun dstPort _ => ?_
  refine (loadBe_ensures (by omega)).bind fun seq _ => ?_
  refine (loadIp_ensures src).bind fun srcAddr _ => ?_
  refine (loadIp_ensures dst).bind fun dstAddr _ => ?_
  have payload :
      Part frame (data + offsetFlags / 4096 * 4) (len - (offsetFlags / 4096 * 4 : Nat)) := by
    unfold Part
    omega
  split
  · rename_i i _
    refine (handleSegment_ensures (ok.tcp i) _ _ payload).bind fun out okSock => .ok ?_
    have stored := ok.setTcp i okSock
    split
    · exact stored.tcpSendPacket env i _ _
    · exact stored
  · split
    · exact .ok ok
    · rename_i l found
      refine .ite (fun _ => ?_) fun _ => .ok ok
      have used := findSlot_some found
      simp only [Bool.and_eq_true] at used
      exact openPassive_ensures ok env _ _ _ _ used.1.1

/-! ## IPv4 and Ethernet -/

lemma ipHandlePacket_ensures (env : Env) (part : Part frame data len)
    (small : len < 2 ^ 16) : Ensures (s.ipHandlePacket env frame data len) Ok := by
  unfold ipHandlePacket Part at *
  refine .ite (fun _ => .ok ok) fun long => ?_
  simp only [ipv4HdrSize] at long
  refine (load_ensures (by omega)).bind fun versionIhl _ => ?_
  generalize versionIhl.toNat % 16 * 4 = ihl
  refine .ite (fun _ => .ok ok) fun header => ?_
  refine (loadBe_ensures (by omega)).bind fun totalLen _ => ?_
  refine .ite (fun _ => .ok ok) fun total => ?_
  refine (checksumCalc_ensures (by omega)).bind fun csum _ => ?_
  refine .ite (fun _ => .ok ok) fun _ => ?_
  refine (loadIp_ensures (by omega)).bind fun dstIp _ => ?_
  refine .ite (fun _ => .ok ok) fun _ => ?_
  refine (load_ensures (by omega)).bind fun protocol _ => ?_
  -- The total length is within the frame, so the payload is.
  have payload : Part frame (data + ihl) ((totalLen : Int) - ihl) := by
    unfold Part
    omega
  refine .ite (fun _ => ?_) fun _ => .ite (fun _ => ?_) fun _ => .ite (fun _ => ?_) fun _ => .ok ok
  · exact icmpHandlePacket_ensures ok env (by omega) payload (by omega)
  · exact udpHandlePacket_ensures ok (by omega) payload
  · exact tcpHandlePacket_ensures ok env (by omega) (by omega) payload

lemma processEthFrame_ensures (env : Env) (small : frame.length ≤ 2048) :
    Ensures (s.processEthFrame env frame) Ok := by
  unfold processEthFrame
  refine .ite (fun _ => .ok ok) fun long => ?_
  simp only [ethHdrSize] at long ⊢
  refine (loadBe_ensures (by omega)).bind fun ethertype _ => ?_
  have payload : Part frame 14 ((frame.length : Int) - (14 : Nat)) := by
    unfold Part
    omega
  refine .ite (fun _ => ?_) fun _ => .ite (fun _ => ?_) fun _ => .ok ok
  · exact arpHandlePacket_ensures ok payload
  · exact ipHandlePacket_ensures ok env payload (by omega)

/-! ## Socket calls -/

lemma withSocket_ensures (sock : Int) {f : Slot → TcpSocket → Checked (Int × Stack)}
    (call : ∀ i, Ensures (f i (s.tcpSockets i)) fun out => out.2.Ok) :
    Ensures (s.withSocket sock f) fun out => out.2.Ok := by
  unfold withSocket
  split
  · exact call _
  · exact .ok ok

lemma tcpRecv_ensures (sock : Int) {maxLen : Int} (nonneg : 0 ≤ maxLen) :
    Ensures (s.tcpRecv sock maxLen) fun out => out.2.Ok := by
  refine withSocket_ensures ok sock fun i => ?_
  have rx := (ok.tcp i).rx
  refine .ite (fun _ => .ok ok) fun filled => ?_
  obtain ⟨copyLen, clamp, low, inside, _⟩ := clamped rx.1 nonneg
  rw [clamp]
  have size : toSize copyLen = copyLen.toNat := by
    simp only [tcpRxBufSize] at rx
    exact toSize_of_nonneg low (by omega)
  refine (loadCells_ensures (Int.le_refl 0) (by omega)).bind fun bytes _ => ?_
  refine .ite (fun partly => ?_) fun _ => .ok ?_
  · refine (loadCells_ensures low (by omega)).bind fun rest got => ?_
    have fits : (0 : Int).toNat + rest.length ≤ tcpRxBufSize := by
      rw [got, length_slice]
      omega
    refine (storeRange_ensures (Int.le_refl 0) fits).bind fun rxBuf _ => .ok ?_
    exact ok.setTcp i ⟨⟨by dsimp only; omega, by dsimp only; omega⟩, (ok.tcp i).pending,
      (ok.tcp i).backlog⟩
  · exact ok.setTcp i ⟨⟨Int.le_refl 0, Int.natCast_nonneg _⟩, (ok.tcp i).pending,
      (ok.tcp i).backlog⟩

lemma tcpAccept_ensures (sock : Int) : Ensures (s.tcpAccept sock) fun out => out.2.Ok := by
  refine withSocket_ensures ok sock fun i => ?_
  have pending := (ok.tcp i).pending
  have backlog := (ok.tcp i).backlog
  refine .ite (fun _ => .ok ok) fun _ => .ite (fun _ => .ok ok) fun waiting => ?_
  refine (loadCells_ensures (Int.le_refl 0) (by decide)).bind fun accepted _ => ?_
  refine (loadCells_ensures (by omega) (by omega)).bind fun rest got => ?_
  have fits : (0 : Int).toNat + rest.length ≤ tcpBacklogMax := by
    rw [got, length_slice]
    omega
  refine (storeRange_ensures (Int.le_refl 0) fits).bind fun ids _ => .ok ?_
  exact ok.setTcp i ⟨(ok.tcp i).rx, ⟨by dsimp only; omega, by dsimp only; omega⟩, backlog⟩

lemma udpRecvfrom_ensures (port : Port) (maxLen : Int) :
    Ensures (s.udpRecvfrom port maxLen) fun out => out.2.2.Ok := by
  unfold udpRecvfrom
  refine .ite (fun _ => .ok ok) fun nonneg => ?_
  split
  · exact .ok ok
  rename_i i _
  have rx := (ok.udp i).rx
  obtain ⟨copyLen, clamp, low, inside, _⟩ := clamped rx.1 (not_lt.mp nonneg)
  dsimp only
  rw [clamp]
  have size : toSize copyLen = copyLen.toNat := by
    simp only [udpRxBufSize] at rx
    exact toSize_of_nonneg low (by omega)
  refine (loadCells_ensures (Int.le_refl 0) (by omega)).bind fun bytes _ => .ok ?_
  exact ok.setUdp i ⟨⟨Int.le_refl 0, Int.natCast_nonneg _⟩⟩

lemma tcpListen_ensures (sock backlog : Int) :
    Ensures (s.tcpListen sock backlog) fun out => out.2.Ok := by
  refine withSocket_ensures ok sock fun i => .ok (ok.setTcp i ⟨(ok.tcp i).rx, ?_, ?_⟩)
  · dsimp only
    split
    · decide
    · split <;> omega
  · dsimp only
    split <;> omega

lemma startClose_ensures (env : Env) (i : Slot) (state : Tcp.TcpState) :
    Ensures (s.startClose env i (s.tcpSockets i) state) fun out => out.2.Ok := by
  refine .ok (Ok.tcpSendPacket (ok.setTcp i ?_) env i _ _)
  exact (ok.tcp i).congr rfl rfl rfl

lemma tcpClose_ensures (env : Env) (sock : Int) :
    Ensures (s.tcpClose env sock) fun out => out.2.Ok := by
  refine withSocket_ensures ok sock fun i => ?_
  split
  · exact startClose_ensures ok env i _
  · exact startClose_ensures ok env i _
  · exact .ok ok
  · exact .ok ok

lemma tcpShutdown_ensures (env : Env) (sock : Int) :
    Ensures (s.tcpShutdown env sock) fun out => out.2.Ok := by
  refine withSocket_ensures ok sock fun i => ?_
  split
  · exact startClose_ensures ok env i _
  · exact startClose_ensures ok env i _
  · exact .ok ok

lemma tcpConnect_ensures (env : Env) (sock : Int) (dstIp : Ip) (dstPort : Port) :
    Ensures (s.tcpConnect env sock dstIp dstPort) fun out => out.2.Ok := by
  refine withSocket_ensures ok sock fun i => .ite (fun _ => .ok ok) fun _ => ?_
  split
  · exact .ok ok
  · refine .ok (Ok.tcpSendPacket (Ok.withIss (ok.setTcp i ?_) _) env i _ _)
    exact (ok.tcp i).congr rfl rfl rfl

lemma tcpSend_ensures (env : Env) (sock : Int) (bytes : List UInt8) :
    Ensures (s.tcpSend env sock bytes) fun out => out.2.Ok := by
  refine withSocket_ensures ok sock fun i => .ite (fun _ => .ok ok) fun _ => ?_
  exact .ite (fun _ => .ok ok) fun _ => .ok (ok.tcpSendPacket env i _ _)

lemma tcpSocketCreate_ok : s.tcpSocketCreate.2.Ok := by
  unfold tcpSocketCreate
  split
  · exact Ok.withNextId (ok.setTcp _ (.new rfl rfl rfl)) _
  · exact ok

lemma call_ensures (env : Env) {call : Call} (admissible : call.Admissible) :
    Ensures (s.call env call) Ok := by
  have second : ∀ {x : Checked (Int × Stack)}, Ensures x (fun out => out.2.Ok) →
      Ensures (x.map (·.2)) Ok := by
    rintro x ⟨out, rfl, holds⟩
    exact .ok holds
  cases call with
  | create => exact .ok (tcpSocketCreate_ok ok)
  | bind sock port =>
    refine second (withSocket_ensures ok sock fun i => .ok (ok.setTcp i ?_))
    exact (ok.tcp i).congr rfl rfl rfl
  | connect sock dstIp dstPort => exact second (tcpConnect_ensures ok env sock dstIp dstPort)
  | send sock bytes => exact second (tcpSend_ensures ok env sock bytes)
  | recv sock maxLen => exact second (tcpRecv_ensures ok sock admissible)
  | close sock => exact second (tcpClose_ensures ok env sock)
  | shutdown sock => exact second (tcpShutdown_ensures ok env sock)
  | listen sock backlog => exact second (tcpListen_ensures ok sock backlog)
  | accept sock => exact second (tcpAccept_ensures ok sock)
  | udpSend srcPort dstIp dstPort bytes =>
    exact .ok (ok.congr (s.udpSend_same ..).1 (s.udpSend_same ..).2)
  | udpRecvfrom port maxLen =>
    obtain ⟨out, is, holds⟩ := udpRecvfrom_ensures ok port maxLen
    rw [call, is]
    exact .ok holds
  | configure netIfs => exact .ok (ok.congr rfl rfl)

end Stack

/-! ## Runs -/

/-- The tables as `net_init` leaves them; which ports UDP uses and which interfaces there are is
left open. -/
structure Stack.Fresh (s : Stack) : Prop where
  tcp : ∀ i, s.tcpSockets i = {}
  udp : ∀ i, (s.udpSockets i).rxLen = 0

/-- The states that frames of at most 2048 bytes and socket calls lead to. -/
inductive Reaches : Stack → Prop
  | start {s : Stack} : s.Fresh → Reaches s
  | frame {s s' : Stack} (env : Env) (frame : List UInt8) : Reaches s → frame.length ≤ 2048 →
      s.processEthFrame env frame = .ok s' → Reaches s'
  | call {s s' : Stack} (env : Env) (call : Call) : Reaches s → call.Admissible →
      s.call env call = .ok s' → Reaches s'

lemma Stack.Fresh.ok {s : Stack} (fresh : s.Fresh) : s.Ok := by
  refine ⟨fun i => ?_, fun i => ⟨?_⟩⟩
  · rw [fresh.tcp i]
    exact .new rfl rfl rfl
  · rw [fresh.udp i]
    exact ⟨Int.le_refl 0, Int.natCast_nonneg _⟩

lemma Stack.Ok.of_ensures {x : Checked Stack} {s : Stack} (ensures : Ensures x Ok)
    (is : x = .ok s) : s.Ok := by
  obtain ⟨a, isToo, holds⟩ := ensures
  rw [is] at isToo
  cases isToo
  exact holds

lemma Stack.Ok.of_reaches {s : Stack} (reaches : Reaches s) : s.Ok := by
  induction reaches with
  | start fresh => exact fresh.ok
  | frame env frame _ small done ih => exact .of_ensures (processEthFrame_ensures ih env small) done
  | call env call _ admissible done ih => exact .of_ensures (call_ensures ih env admissible) done

/-- In every state that frames and socket calls lead to, no frame of at most 2048 bytes and no
socket call makes an access outside a frame, a receive buffer or a queue, and the counters of every
TCP socket are within bounds. -/
theorem never_outside {s : Stack} (reaches : Reaches s) :
    (∀ env (frame : List UInt8), frame.length ≤ 2048 → ∃ s', s.processEthFrame env frame = .ok s') ∧
    (∀ env (call : Call), call.Admissible → ∃ s', s.call env call = .ok s') ∧
    ∀ i, (0 ≤ (s.tcpSockets i).rxLen ∧ (s.tcpSockets i).rxLen ≤ 4096) ∧
      (s.tcpSockets i).pendingCount ≤ (s.tcpSockets i).backlog ∧ (s.tcpSockets i).backlog ≤ 8 := by
  have ok := Ok.of_reaches reaches
  refine ⟨fun env frame small => ?_, fun env call admissible => ?_, fun i => ?_⟩
  · obtain ⟨s', done, _⟩ := processEthFrame_ensures ok env small
    exact ⟨s', done⟩
  · obtain ⟨s', done, _⟩ := call_ensures ok env admissible
    exact ⟨s', done⟩
  · exact ⟨(ok.tcp i).rx, (ok.tcp i).pending.2, (ok.tcp i).backlog⟩

def freshStack : Stack where
  netIfs := [⟨0x0A00020F, true, true⟩]
  arpCache := fun _ => {}
  arpAgeCounter := 0
  udpSockets := fun _ => {}
  tcpSockets := fun _ => {}
  nextId := 1
  iss := 0
  sent := []

def whoHas : List UInt8 :=
  replicate 12 0xFF ++ [8, 6, 0, 1, 8, 0, 6, 4, 0, 1] ++ replicate 6 0xAA ++
    [10, 0, 2, 2] ++ replicate 6 0 ++ [10, 0, 2, 15]

/-- An ARP request to a fresh stack. -/
theorem never_outside_whoHas : Reaches freshStack ∧ whoHas.length ≤ 2048 ∧
    ∃ s', freshStack.processEthFrame ⟨true, true, 0⟩ whoHas = .ok s' := by
  have reaches : Reaches freshStack := .start ⟨fun _ => rfl, fun _ => rfl⟩
  have small : whoHas.length ≤ 2048 := by decide
  exact ⟨reaches, small, (never_outside reaches).1 _ _ small⟩

end AuroraOS.Net
