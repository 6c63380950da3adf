import AuroraOS.Net.Safety
import AuroraOS.Tcp.Stream
import Mathlib.Algebra.Order.BigOperators.Group.Finset
import Mathlib.Tactic.IntervalCases

/-!
# Datagrams

The buffers in which `udp_send` and `ip_send` build a packet, the checksum of its IPv4 header, and
the way of a datagram that arrives to a UDP socket.
-/

namespace AuroraOS.Net

open Lib List Relation
open Tcp (Ip Port NetIf be16 be32 beField beField_be16)

/-! ## Building a packet -/

def newPacket (size : Nat) (header data : List UInt8) : Checked (List UInt8) :=
  if header.length + data.length ≤ size then .ok (header ++ data) else .error .write

section IpPacket

variable (srcIp dstIp : Ip) (id : BitVec 16) (protocol : UInt8) (data : List UInt8)

/-- The header that `ip_send` writes; the checksum is in the byte order of the processor. -/
def ipHeader (total : Nat) (sum : BitVec 16) : List UInt8 :=
  [0x45, 0] ++ be16 total ++ be16 id.toNat ++ [0, 0, 64, protocol] ++
    [UInt8.ofNat sum.toNat, UInt8.ofNat (sum.toNat / 256)] ++ be32 srcIp.toNat ++ be32 dstIp.toNat

def ipPacket : Checked (List UInt8) := do
  let total := ipv4HdrSize + data.length
  let total := if total > 65535 then 65535 else total
  let sum ← checksumCalc (ipHeader srcIp dstIp id protocol total 0) 0 ipv4HdrSize
  newPacket total (ipHeader srcIp dstIp id protocol total sum) data

lemma ipPacket_eq :
    ∃ sum, checksumCalc (ipHeader srcIp dstIp id protocol (20 + data.length) 0) 0 ipv4HdrSize =
        .ok sum ∧ ipPacket srcIp dstIp id protocol data = if data.length < 65516 then
          .ok (ipHeader srcIp dstIp id protocol (20 + data.length) sum ++ data)
        else .error .write := by
  have sums (total : Nat) : ∃ sum,
      checksumCalc (ipHeader srcIp dstIp id protocol total 0) 0 ipv4HdrSize = .ok sum := by
    obtain ⟨sum, is, -⟩ := checksumCalc_ensures (show 0 + (ipv4HdrSize : Int).toNat ≤
      (ipHeader srcIp dstIp id protocol total 0).length from le_refl 20)
    exact ⟨sum, is⟩
  have whole (total : Nat) (sum : BitVec 16) : newPacket total
      (ipHeader srcIp dstIp id protocol total sum) data = if 20 + data.length ≤ total then
        .ok (ipHeader srcIp dstIp id protocol total sum ++ data) else .error .write := rfl
  obtain ⟨sum, is⟩ := sums (20 + data.length)
  refine ⟨sum, is, ?_⟩
  unfold ipPacket
  dsimp only
  rw [show ipv4HdrSize + data.length = 20 + data.length from rfl]
  by_cases small : data.length < 65516
  · rw [if_neg (by omega), is, if_pos small]
    exact (whole _ sum).trans (if_pos le_rfl)
  · obtain ⟨sum', is'⟩ := sums 65535
    rw [if_pos (by omega), is', if_neg small]
    exact (whole _ sum').trans (if_neg (by omega))

lemma ipHeader_append (sum : BitVec 16) :
    (ipHeader srcIp dstIp id protocol (20 + data.length) sum ++ data).length =
      20 + data.length := length_append

lemma ipHeader_total (sum : BitVec 16) (fits : data.length < 65516) :
    beField (ipHeader srcIp dstIp id protocol (20 + data.length) sum ++ data) 2 2 =
      (ipHeader srcIp dstIp id protocol (20 + data.length) sum ++ data).length := by
  have field : beField (ipHeader srcIp dstIp id protocol (20 + data.length) sum ++ data) 2 2 =
      (20 + data.length) % 65536 := beField_be16
  rw [ipHeader_append]
  omega

end IpPacket

def udpHeader (srcPort dstPort : Port) (total : Nat) (sum : BitVec 16) : List UInt8 :=
  be16 srcPort.toNat ++ be16 dstPort.toNat ++ be16 total ++ be16 sum.toNat

/-- The tests before a packet is built: without a device or memory nothing is sent. -/
def withDevice (env : Env) (iface : Option NetIf)
    (send : NetIf → Checked (Option (List UInt8))) : Checked (Option (List UInt8)) :=
  match iface with
  | none => .ok none
  | some n => if !n.hasDev || !env.memory then .ok none else send n

/-- `ip_send`: the packet that the device takes, and none on an error. -/
def Stack.ipTransmit (s : Stack) (env : Env) (id : BitVec 16) (dstIp : Ip) (protocol : UInt8)
    (data : List UInt8) : Checked (Option (List UInt8)) :=
  withDevice env ((s.netIfFindByIp dstIp).or s.netIfs.head?) fun iface => do
    let packet ← ipPacket iface.ip dstIp id protocol data
    return if env.accepted then some packet else none

/-- `udp_send`, with the environment of the `ip_send` it calls, which gets 16 bits of the
length. -/
def Stack.udpTransmit (s : Stack) (env lower : Env) (id : BitVec 16) (srcPort : Port) (dstIp : Ip)
    (dstPort : Port) (data : List UInt8) : Checked (Option (List UInt8)) :=
  withDevice env (s.netIfFindByIp dstIp) fun _ => do
    let total := udpHdrSize + data.length
    let packet ← newPacket total (udpHeader srcPort dstPort total env.sum) data
    s.ipTransmit lower id dstIp (UInt8.ofNat ipProtoUdp) (packet.take (total % 2 ^ 16))

/-! ## Lengths -/

/-- No write outside a buffer, and nothing is sent but packets with the property. -/
def SendsOnly (right : List UInt8 → Prop) : Checked (Option (List UInt8)) → Prop
  | .ok sent => ∀ packet ∈ sent, right packet
  | .error _ => False

def IpRight (data packet : List UInt8) : Prop :=
  beField packet 2 2 = packet.length ∧ packet.drop 20 = data

def UdpRight (data packet : List UInt8) : Prop :=
  beField packet 2 2 = packet.length ∧ beField packet 24 2 = packet.length - 20 ∧
    packet.drop 28 = data

def Ready (env : Env) (iface : Option NetIf) : Prop :=
  env.memory = true ∧ ∃ n, iface = some n ∧ n.hasDev = true

lemma sendsOnly_withDevice {right : List UInt8 → Prop} {env : Env} {iface : Option NetIf}
    {send : NetIf → Checked (Option (List UInt8))} {p : Prop}
    (sends : ∀ n, SendsOnly right (send n) ↔ p) :
    SendsOnly right (withDevice env iface send) ↔ (Ready env iface → p) := by
  cases iface with
  | none => exact iff_of_true nofun fun ready => by simp [Ready] at ready
  | some n =>
    by_cases ready : n.hasDev = true ∧ env.memory = true
    · simp [withDevice, Ready, ready, sends]
    · rw [withDevice, if_pos (by simpa [or_iff_not_imp_left] using ready)]
      refine iff_of_true nofun fun ⟨memory, _, is, device⟩ => ?_
      cases is
      exact absurd ⟨device, memory⟩ ready

lemma sendsOnly_ipTransmit {s : Stack} {env : Env} {id : BitVec 16} {dstIp : Ip}
    {protocol : UInt8} {data : List UInt8} {right : List UInt8 → Prop} {p : Prop}
    (sends : ∀ srcIp sum, data.length < 65516 →
      (right (ipHeader srcIp dstIp id protocol (20 + data.length) sum ++ data) ↔ p)) :
    SendsOnly right (s.ipTransmit env id dstIp protocol data) ↔
      (Ready env ((s.netIfFindByIp dstIp).or s.netIfs.head?) →
        data.length < 65516 ∧ (env.accepted = true → p)) := by
  refine sendsOnly_withDevice fun n => ?_
  obtain ⟨sum, -, is⟩ := ipPacket_eq n.ip dstIp id protocol data
  rw [is]
  split
  case isTrue small =>
    cases env.accepted with
    | false => exact iff_of_true nofun ⟨small, nofun⟩
    | true =>
      simpa [SendsOnly, bind, Except.bind, pure, Except.pure, small] using sends n.ip sum small
  case isFalse large => exact iff_of_false (fun wrong => wrong) fun both => large both.1

/-- `ip_send` writes outside its buffer from 65516 bytes on, `udp_send` has it do so from 65508
bytes on, and from 65528 bytes on sends a packet without the data. -/
theorem lengths_right_iff (s : Stack) (env lower : Env) (id : BitVec 16) (protocol : UInt8)
    (srcPort : Port) (dstIp : Ip) (dstPort : Port) {data : List UInt8}
    (small : data.length < 2 ^ 16) :
    (SendsOnly (IpRight data) (s.ipTransmit env id dstIp protocol data) ↔
      (Ready env ((s.netIfFindByIp dstIp).or s.netIfs.head?) → data.length < 65516)) ∧
    (SendsOnly (UdpRight data) (s.udpTransmit env lower id srcPort dstIp dstPort data) ↔
      (Ready env (s.netIfFindByIp dstIp) → Ready lower ((s.netIfFindByIp dstIp).or s.netIfs.head?) →
        data.length < 65508 ∨ 65528 ≤ data.length ∧ lower.accepted = false)) := by
  constructor
  · refine (sendsOnly_ipTransmit fun srcIp sum fits => iff_true_intro ?_).trans (by simp)
    exact ⟨ipHeader_total _ _ _ _ _ _ fits, rfl⟩
  refine sendsOnly_withDevice fun n => ?_
  let header := udpHeader srcPort dstPort (8 + data.length) env.sum
  have whole : (header ++ data).length = 8 + data.length := length_append
  have builds : newPacket (8 + data.length) header data = .ok (header ++ data) := if_pos le_rfl
  change SendsOnly _ (newPacket (8 + data.length) header data >>= _) ↔ _
  rw [builds]
  let passed := (header ++ data).take ((8 + data.length) % 2 ^ 16)
  have length : passed.length = (8 + data.length) % 2 ^ 16 := by
    rw [length_take, whole]
    omega
  change SendsOnly _ (s.ipTransmit lower id dstIp (UInt8.ofNat ipProtoUdp) passed) ↔ _
  by_cases cut : data.length < 65528
  · have all : passed = header ++ data := take_of_length_le (by rw [whole]; omega)
    have few : passed.length < 65516 ↔ data.length < 65508 := by omega
    refine (sendsOnly_ipTransmit fun srcIp sum fits => iff_true_intro ?_).trans
      (by simp [few, Nat.not_le.mpr cut])
    have field : beField (ipHeader srcIp dstIp id (UInt8.ofNat ipProtoUdp) (20 + passed.length)
        sum ++ (header ++ data)) 24 2 = (8 + data.length) % 65536 := beField_be16
    rw [← all] at field
    refine ⟨ipHeader_total _ _ _ _ _ _ fits, ?_, by rw [all]; rfl⟩
    rw [field, ipHeader_append]
    omega
  · have few : passed.length < 65516 ∧ ¬data.length < 65508 := by omega
    refine (sendsOnly_ipTransmit fun srcIp sum fits => iff_false_intro ?_).trans
      (by simp [few, Nat.not_lt.mp cut])
    rintro ⟨-, -, payload⟩
    have none := congrArg List.length payload
    rw [length_drop, ipHeader_append] at none
    omega

/-- A datagram of one byte. -/
theorem lengths_right_iff_letter : [(0x41 : UInt8)].length < 2 ^ 16 ∧
    SendsOnly (UdpRight [0x41]) (freshStack.udpTransmit ⟨true, true, 0⟩ ⟨true, true, 0⟩ 0 68
      0x0A000202 67 [0x41]) :=
  ⟨by decide, (lengths_right_iff freshStack _ _ 0 17 68 _ 67 (by decide)).2.mpr fun _ _ =>
    .inl (by decide)⟩

/-- `ip_send` of 65535 bytes copies them to a buffer of 65535 bytes, behind the header. -/
theorem ip_send_overruns : freshStack.ipTransmit ⟨true, true, 0⟩ 0 0x0A000202 17
    (replicate 65535 0) = .error .write := by
  obtain ⟨sum, -, is⟩ := ipPacket_eq 0x0A00020F 0x0A000202 0 17 (replicate 65535 0)
  rw [length_replicate, if_neg (by decide)] at is
  change (ipPacket 0x0A00020F 0x0A000202 0 17 (replicate 65535 0) >>= _) = _
  rw [is]
  rfl

/-! ## The checksum of a header -/

/-- The word at `p`, in the byte order of the processor. -/
def wordAt (buf : List UInt8) (p : Nat) : Nat :=
  (buf.getD p 0).toNat + 256 * (buf.getD (p + 1) 0).toNat

def wordSum (buf : List UInt8) (p n : Nat) : Nat := ∑ j ∈ Finset.range n, wordAt buf (p + 2 * j)

/-- The test of `ip_handle_packet` on a header of `n` words. -/
def Passes (buf : List UInt8) (p n : Nat) : Prop :=
  ∃ csum, checksumCalc buf p (2 * n : Nat) = .ok csum ∧ (csum = 0 ∨ csum = 0xFFFF)

lemma load_eq {buf : List UInt8} {p : Nat} (inside : p < buf.length) :
    load buf p = .ok (buf.getD p 0) := by
  simp [load, inside]

lemma wordSum_succ (buf : List UInt8) (p n : Nat) :
    wordSum buf p (n + 1) = wordAt buf p + wordSum buf (p + 2) n := by
  rw [wordSum, Finset.sum_range_succ', Nat.add_comm]
  refine congrArg (wordAt buf p + ·) (Finset.sum_congr rfl fun j _ => ?_)
  exact congrArg (wordAt buf) (by omega)

lemma checksumLoop_eq {buf : List UInt8} {n p : Nat} {sum : BitVec 32}
    (inside : p + 2 * n ≤ buf.length) :
    checksumLoop buf p (2 * n) sum = .ok (sum + BitVec.ofNat 32 (wordSum buf p n)) := by
  induction n generalizing p sum with
  | zero => simp [checksumLoop, wordSum]
  | succ n ih =>
    rw [show 2 * (n + 1) = 2 * n + 2 from rfl, checksumLoop, load_eq (by omega), load_eq (by omega)]
    refine (ih (by omega)).trans (congrArg Except.ok ?_)
    rw [wordSum_succ, BitVec.add_assoc, ← BitVec.ofNat_add]
    rfl

lemma foldCarry_toNat (sum : BitVec 32) :
    (foldCarry sum).toNat = sum.toNat % 65536 + sum.toNat / 65536 := by
  have high : (sum >>> 16).toNat = sum.toNat / 65536 := Nat.shiftRight_eq_div_pow ..
  have low : (sum &&& 0xFFFF#32).toNat = sum.toNat % 65536 := Nat.and_two_pow_sub_one_eq_mod _ 16
  have bound := sum.isLt
  unfold foldCarry
  split
  case isTrue none =>
    rw [none] at high
    change 0 = _ at high
    omega
  case isFalse some =>
    rw [BitVec.toNat_add, high, low]
    omega

lemma wordAt_lt (buf : List UInt8) (p : Nat) : wordAt buf p < 65536 := by
  have low := (buf.getD p 0).toNat_lt
  have high := (buf.getD (p + 1) 0).toNat_lt
  unfold wordAt
  omega

lemma wordSum_le (buf : List UInt8) (p n : Nat) : wordSum buf p n ≤ n * 65535 := by
  have bound := Finset.sum_le_card_nsmul (Finset.range n) (fun j => wordAt buf (p + 2 * j)) 65535
    fun j _ => Nat.le_of_lt_succ (wordAt_lt buf _)
  rwa [Finset.card_range] at bound

lemma checksumCalc_eq {buf : List UInt8} {p n : Nat} (inside : p + 2 * n ≤ buf.length)
    (short : n ≤ 30) : ∃ csum, checksumCalc buf p (2 * n : Nat) = .ok csum ∧
      (csum.toNat + wordSum buf p n) % 65535 = 0 := by
  have total : checksumLoop buf p (2 * n) 0 = _ := checksumLoop_eq inside
  have bound := wordSum_le buf p n
  have sum : (0 + BitVec.ofNat 32 (wordSum buf p n)).toNat = wordSum buf p n := by
    rw [BitVec.ofNat_eq_ofNat, BitVec.zero_add, BitVec.toNat_ofNat]
    omega
  refine ⟨_, congrArg (· >>= _) total, ?_⟩
  rw [BitVec.toNat_not, BitVec.toNat_setWidth, foldCarry_toNat, foldCarry_toNat, sum]
  generalize wordSum buf p n = w at bound ⊢
  generalize once : w % 65536 + w / 65536 = v
  generalize twice : v % 65536 + v / 65536 = u
  have carries : w = u + 65535 * (w / 65536 + v / 65536) := by omega
  have small : u < 65536 := by omega
  rw [Nat.mod_eq_of_lt small]
  omega

lemma passes_iff {buf : List UInt8} {p n : Nat} (inside : p + 2 * n ≤ buf.length)
    (short : n ≤ 30) : Passes buf p n ↔ wordSum buf p n % 65535 = 0 := by
  obtain ⟨csum, is, balance⟩ := checksumCalc_eq inside short
  have bound := csum.isLt
  have test : csum = 0 ∨ csum = 0xFFFF ↔ csum.toNat = 0 ∨ csum.toNat = 65535 := by
    simp only [← BitVec.toNat_inj]
    rfl
  constructor
  · rintro ⟨csum', is', passes⟩
    cases is.symm.trans is'
    have := test.mp passes
    omega
  · intro zero
    exact ⟨csum, is, test.mpr (by omega)⟩

lemma wordSum_replace {buf buf' : List UInt8} {p n k : Nat} (inside : k < n)
    (same : ∀ j < n, j ≠ k → wordAt buf' (p + 2 * j) = wordAt buf (p + 2 * j)) :
    wordSum buf' p n + wordAt buf (p + 2 * k) = wordSum buf p n + wordAt buf' (p + 2 * k) := by
  have mem := Finset.mem_range.mpr inside
  have others := Finset.sum_congr rfl fun j (other : j ∈ (Finset.range n).erase k) =>
    same j (Finset.mem_range.mp (Finset.mem_of_mem_erase other)) (Finset.ne_of_mem_erase other)
  simp only [wordSum, ← Finset.add_sum_erase _ _ mem, others]
  omega

/-- The header of every packet that `ip_send` builds passes the test of `ip_handle_packet`, and
when one word of a header that passes is replaced by another one it fails, unless the two are the
words with all bits 0 and all bits 1. -/
theorem header_checksum : (∀ srcIp dstIp id protocol (data : List UInt8), data.length < 65516 →
      ∃ packet, ipPacket srcIp dstIp id protocol data = .ok packet ∧ Passes packet 0 10) ∧
    ∀ (frame frame' : List UInt8) p n k, frame'.length = frame.length →
      p + 2 * n ≤ frame.length → n ≤ 30 → k < n →
      (∀ j < n, j ≠ k → wordAt frame' (p + 2 * j) = wordAt frame (p + 2 * j)) →
      wordAt frame' (p + 2 * k) ≠ wordAt frame (p + 2 * k) → Passes frame p n →
      (Passes frame' p n ↔ wordAt frame (p + 2 * k) = 0 ∧ wordAt frame' (p + 2 * k) = 0xFFFF ∨
        wordAt frame (p + 2 * k) = 0xFFFF ∧ wordAt frame' (p + 2 * k) = 0) := by
  constructor
  · intro srcIp dstIp id protocol data fits
    obtain ⟨sum, is, packet⟩ := ipPacket_eq srcIp dstIp id protocol data
    rw [if_pos fits] at packet
    let header := ipHeader srcIp dstIp id protocol (20 + data.length)
    obtain ⟨sum', is', balance⟩ := checksumCalc_eq (p := 0) (n := 10)
      (le_refl (header 0).length) (by decide)
    cases is.symm.trans is'
    have inside : 0 + 2 * 10 ≤ (header sum ++ data).length := by
      rw [ipHeader_append]
      omega
    refine ⟨_, packet, (passes_iff inside (by decide)).mpr ?_⟩
    have replaced : wordSum (header sum ++ data) 0 10 + wordAt (header 0) (0 + 2 * 5) =
        wordSum (header 0) 0 10 + wordAt (header sum ++ data) (0 + 2 * 5) := by
      refine wordSum_replace (by decide) fun j low other => ?_
      interval_cases j <;> first | rfl | exact absurd rfl other
    have zero : wordAt (header 0) (0 + 2 * 5) = 0 := rfl
    have field : wordAt (header sum ++ data) (0 + 2 * 5) = sum.toNat := by
      change (UInt8.ofNat sum.toNat).toNat + 256 * (UInt8.ofNat (sum.toNat / 256)).toNat = _
      have bound := sum.isLt
      rw [Tcp.toNat_ofNat, Tcp.toNat_ofNat]
      omega
    omega
  · intro frame frame' p n k length inside short within same other passes
    have sum := (passes_iff inside short).mp passes
    have replaced := wordSum_replace within same
    have old := wordAt_lt frame (p + 2 * k)
    have new := wordAt_lt frame' (p + 2 * k)
    rw [passes_iff (length ▸ inside) short]
    omega

/-- A packet of one byte with the given time to live and the checksum for 64. -/
def letterPacket (ttl : UInt8) : List UInt8 :=
  [69, 0, 0, 21, 0, 0, 0, 0, ttl, 17, 98, 200, 10, 0, 2, 15, 10, 0, 2, 2, 0x41]

/-- The header passes, and fails with another time to live. -/
theorem header_checksum_letter :
    ipPacket 0x0A00020F 0x0A000202 0 17 [0x41] = .ok (letterPacket 64) ∧
    Passes (letterPacket 64) 0 10 ∧ ¬ Passes (letterPacket 63) 0 10 := by
  have builds : ipPacket 0x0A00020F 0x0A000202 0 17 [0x41] = .ok (letterPacket 64) := by
    decide +kernel
  obtain ⟨packet, is, passes⟩ := header_checksum.1 0x0A00020F 0x0A000202 0 17 [0x41] (by decide)
  cases is.symm.trans builds
  have same : ∀ j < 10, j ≠ 4 → wordAt (letterPacket 63) (0 + 2 * j) =
      wordAt (letterPacket 64) (0 + 2 * j) := by
    decide +kernel
  have changed := header_checksum.2 (letterPacket 64) (letterPacket 63) 0 10 4 rfl (by decide)
    (by decide) (by decide) same (by decide +kernel) passes
  exact ⟨builds, passes, fun wrong => absurd (changed.mp wrong) (by decide +kernel)⟩

/-! ## UDP sockets -/

/-- A call of the UDP functions; everything else leaves their sockets alone. -/
inductive UdpStep (s : Stack) : Stack → Prop
  | send (env : Env) (srcPort : Port) (dstIp : Ip) (dstPort : Port) (data : List UInt8) :
      UdpStep s (s.udpSend env srcPort dstIp dstPort data).2
  | receive {s' : Stack} {port : Port} {maxLen n : Int} {bytes : List UInt8} :
      s.udpRecvfrom port maxLen = .ok (n, bytes, s') → UdpStep s s'
  | arrive {s' : Stack} {frame : List UInt8} {srcIp data : Nat} {len : Int} :
      s.udpHandlePacket frame srcIp data len = .ok s' → UdpStep s s'
  | other {s' : Stack} : s'.udpSockets = s.udpSockets → UdpStep s s'

def Unused (s : Stack) : Prop := ∀ i, (s.udpSockets i).inUse = false

variable {s s' : Stack}

lemma Unused.recvfrom (unused : Unused s) (port : Port) (maxLen : Int) :
    s.udpRecvfrom port maxLen = .ok (-1, [], s) := by
  unfold Stack.udpRecvfrom
  split
  · rfl
  split
  · rfl
  case h_2 i found => simpa [unused i] using find?_some found

lemma Unused.handlePacket (unused : Unused s) {frame : List UInt8} {srcIp data : Nat} {len : Int}
    (done : s.udpHandlePacket frame srcIp data len = .ok s') : s = s' := by
  refine Yields.ite (fun _ => .ok rfl) (fun _ => .after fun dstPort => .after fun srcPort => ?_)
    s' done
  split
  · exact .ok rfl
  case h_2 i found => simpa [unused i] using find?_some found

lemma Unused.step (unused : Unused s) (step : UdpStep s s') : Unused s' := by
  cases step with
  | send env srcPort dstIp dstPort data =>
    intro i
    rw [(s.udpSend_same ..).2]
    exact unused i
  | receive done =>
    rw [unused.recvfrom] at done
    cases done
    exact unused
  | arrive done => exact unused.handlePacket done ▸ unused
  | other same => exact fun i => same ▸ unused i

lemma Unused.run (unused : Unused s) (run : ReflTransGen UdpStep s s') : Unused s' := by
  induction run with
  | refl => exact unused
  | tail _ step ih => exact ih.step step

/-- No function sets `in_use` of a UDP socket, which `net_init` clears: whatever datagram arrives
after whatever calls, `udp_recvfrom` returns -1. -/
theorem never_delivered {s₀ s s₁ s₂ : Stack} (start : ∀ i, s₀.udpSockets i = {})
    (before : ReflTransGen UdpStep s₀ s) {frame : List UInt8} {srcIp data : Nat} {len : Int}
    (arrives : s.udpHandlePacket frame srcIp data len = .ok s₁)
    (after : ReflTransGen UdpStep s₁ s₂) (port : Port) (maxLen : Int) :
    s₂.udpRecvfrom port maxLen = .ok (-1, [], s₂) := by
  have unused : Unused s₀ := fun i => by rw [start i]
  have arrived : Unused s₁ := (unused.run before).step (.arrive arrives)
  exact (arrived.run after).recvfrom port maxLen

def datagram : List UInt8 := [10, 0, 2, 2, 0, 67, 0, 68, 0, 9, 0, 0, 0x41]

/-- A datagram arrives, and there is nothing to receive. -/
theorem never_delivered_datagram : freshStack.udpHandlePacket datagram 0 4 9 = .ok freshStack ∧
    freshStack.udpRecvfrom 68 2048 = .ok (-1, [], freshStack) := by
  have arrives : freshStack.udpHandlePacket datagram 0 4 9 = .ok freshStack := rfl
  exact ⟨arrives, never_delivered (fun _ => rfl) .refl arrives .refl 68 2048⟩

/-- A datagram for the port from which one was sent. -/
theorem datagram_lost : ∃ s₁, (freshStack.udpSend ⟨true, true, 0⟩ 68 0x0A000202 67
    [0x41]).2.udpHandlePacket datagram 0 4 9 = .ok s₁ ∧ s₁.udpRecvfrom 68 2048 = .ok (-1, [], s₁) :=
  ⟨_, rfl, rfl⟩

end AuroraOS.Net
