import AuroraOS.Lib.SlotTable
import AuroraOS.Tcp.Model
import Mathlib.Data.BitVec

/-!
# IPv6 neighbour discovery

Model of `kernel/net/ipv6.c`.  Memory for the packets is always found.  Sending and solicitation
call each other, so both take fuel.  The builders put a message where the handler expects the ICMPv6
header, and neither stores the type in the first byte.
-/

namespace AuroraOS.Net.Ipv6

open Lib List Option Function
open Tcp (be16)

abbrev Ip6 := Fin 16 → UInt8
abbrev Mac := Fin 6 → UInt8

def icmpv6EchoRequest : UInt8 := 128
def icmpv6EchoReply : UInt8 := 129
def icmpv6NdNeighborSol : UInt8 := 135
def icmpv6NdNeighborAdv : UInt8 := 136
def ndpOptSourceLladdr : UInt8 := 1
def ndpOptTargetLladdr : UInt8 := 2
def ndpFlagSolicited : UInt8 := 0x40
def ndpFlagOverride : UInt8 := 0x20
def ipv6ProtoIcmpv6 : UInt8 := 58

def ipv6HdrSize : Nat := 40
def ndpSize : Nat := 20
def neighborCacheSize : Nat := 16

structure Neighbor where
  ip : Ip6 := fun _ => 0
  mac : Mac := fun _ => 0
  age : BitVec 32 := 0
  valid : Bool := false

/-- `struct ipv6_iface`; `global` is never set. -/
structure Iface where
  inUse : Bool
  linkLocal : Ip6
  mac : Mac
  hasDev : Bool

/-- A frame handed to a device, with the packet behind the Ethernet header. -/
structure Frame where
  dstMac : Mac
  srcMac : Mac
  packet : List UInt8

structure Host where
  ifaces : List Iface
  cache : Fin neighborCacheSize → Neighbor
  age : BitVec 32
  sent : List Frame

/-! ## Bytes -/

def readBe16 (bytes : List UInt8) (p : Nat) : Nat :=
  (bytes.getD p 0).toNat * 256 + (bytes.getD (p + 1) 0).toNat

def readAddr (bytes : List UInt8) (p : Nat) : Ip6 := fun i => bytes.getD (p + i) 0
def readMac (bytes : List UInt8) (p : Nat) : Mac := fun i => bytes.getD (p + i) 0

/-! ## The neighbour cache -/

namespace Host

variable (h : Host)

/-- `ipv6_neighbor_find`, which makes the entry the youngest one. -/
def ipv6NeighborFind (ip : Ip6) : Option Mac × Host :=
  match (finRange neighborCacheSize).find? fun i =>
      (h.cache i).valid && decide ((h.cache i).ip = ip) with
  | some i =>
    let age := h.age + 1
    (some (h.cache i).mac,
      { h with cache := update h.cache i { h.cache i with age := age }, age := age })
  | none => (none, h)

/-- The search of `ipv6_neighbor_add`: the first entry that is not valid, or the oldest one. -/
def neighborTarget (cache : Fin neighborCacheSize → Neighbor) :
    List (Fin neighborCacheSize) → Fin neighborCacheSize → BitVec 32 → Fin neighborCacheSize :=
  victim (fun i => (cache i).valid) fun i => (cache i).age

def ipv6NeighborAdd (ip : Ip6) (mac : Mac) : Host :=
  let first : Fin neighborCacheSize := ⟨0, by decide⟩
  let target :=
    neighborTarget h.cache (finRange neighborCacheSize) first (h.cache first).age
  let age := h.age + 1
  { h with cache := update h.cache target ⟨ip, mac, age, true⟩, age := age }

def activeIface : Option Iface := h.ifaces.find? fun n => n.inUse && n.hasDev

def ifaceOf (ip : Ip6) : Option Iface :=
  h.ifaces.find? fun n => n.inUse && decide (n.linkLocal = ip)

end Host

/-! ## Sending -/

/-- The packet of `ndp_send_solicitation`: `struct ndp_neighbor_sol` and one option. -/
def solicitation (mac : Mac) (target : Ip6) : List UInt8 :=
  [0, 0, 0, 0] ++ ofFn target ++ [ndpOptSourceLladdr, 1] ++ ofFn mac

/-- The packet of an advertisement: `struct ndp_neighbor_adv` and one option. -/
def advertisement (mac : Mac) (target : Ip6) : List UInt8 :=
  [ndpFlagSolicited ||| ndpFlagOverride, 0, 0, 0] ++ ofFn target ++
    [ndpOptTargetLladdr, 1] ++ ofFn mac

def solicitedNode (target : Ip6) : Ip6 := fun i =>
  if i.val = 0 then 0xFF else if i.val = 1 then 0x02 else if i.val = 11 then 0x01
  else if i.val = 12 then 0xFF else if i.val < 13 then 0 else target i

def multicastMac (dst : Ip6) : Mac := fun i =>
  if i.val < 2 then 0x33 else if i.val = 2 then 0xFF else dst ⟨i.val + 10, by omega⟩

def ipv6Packet (src dst : Ip6) (nextHeader : UInt8) (data : List UInt8) : List UInt8 :=
  [0x60, 0, 0, 0] ++ be16 data.length ++ [nextHeader, 64] ++ ofFn src ++ ofFn dst ++ data

namespace Host

/-- `ndp_send_solicitation`; `send` is `ipv6_send`, whose result it ignores. -/
def solicit (send : Host → Ip6 → UInt8 → List UInt8 → Option Host) (h : Host) (target : Ip6) :
    Option Host :=
  match h.activeIface with
  | none => some h
  | some iface => send h (solicitedNode target) ipv6ProtoIcmpv6 (solicitation iface.mac target)

def ndpLookup (send : Host → Ip6 → UInt8 → List UInt8 → Option Host) (h : Host) (ip : Ip6) :
    Option (Option Mac × Host) :=
  match h.ipv6NeighborFind ip with
  | (some mac, h) => some (some mac, h)
  | (none, h) => (solicit send h ip).map fun h => (none, h)

def ipv6Send : Nat → Host → Ip6 → UInt8 → List UInt8 → Option Host
  | 0, _, _, _, _ => none
  | fuel + 1, h, dst, nextHeader, data =>
    match h.activeIface with
    | none => some h
    | some iface =>
      (ndpLookup (ipv6Send fuel) h dst).map fun (mac, h) =>
        { h with
          sent := h.sent ++ [{
            dstMac := mac.getD (multicastMac dst)
            srcMac := iface.mac
            packet := ipv6Packet iface.linkLocal dst nextHeader data }] }

def ndpSendSolicitation (fuel : Nat) (h : Host) (target : Ip6) : Option Host :=
  solicit (ipv6Send fuel) h target

/-! ## Receiving -/

/-- The sum of the 16-bit words, a last byte counted as the high one. -/
def sumWords : List UInt8 → Nat
  | [] => 0
  | [b] => b.toNat * 256
  | hi :: lo :: rest => hi.toNat * 256 + lo.toNat + sumWords rest

/-- The checksum of a reply, with the pseudo-header; the carries are gone after two turns. -/
def icmpv6Checksum (src dst : Ip6) (reply : List UInt8) : Nat :=
  let sum := sumWords (ofFn src) + sumWords (ofFn dst) + reply.length +
    ipv6ProtoIcmpv6.toNat + sumWords reply
  let fold := fun n => n % 2 ^ 16 + n / 2 ^ 16
  2 ^ 16 - 1 - fold (fold sum) % 2 ^ 16

def echoReply (src dst : Ip6) (payload : List UInt8) : List UInt8 :=
  let cleared := icmpv6EchoReply :: payload.getD 1 0 :: 0 :: 0 :: payload.drop 4
  icmpv6EchoReply :: payload.getD 1 0 :: (be16 (icmpv6Checksum src dst cleared) ++ payload.drop 4)

def handleSolicitation (fuel : Nat) (h : Host) (src : Ip6) (payload : List UInt8) : Option Host :=
  if payload.length < ndpSize then some h
  else
    let target := readAddr payload 4
    match h.ifaceOf target with
    | none => some h
    | some iface =>
      let h :=
        if ndpSize + 8 ≤ payload.length ∧ payload.getD ndpSize 0 = ndpOptSourceLladdr then
          h.ipv6NeighborAdd src (readMac payload (ndpSize + 2))
        else h
      ipv6Send fuel h src ipv6ProtoIcmpv6 (advertisement iface.mac target)

def handleAdvertisement (h : Host) (payload : List UInt8) : Host :=
  if ndpSize ≤ payload.length ∧ ndpSize + 8 ≤ payload.length ∧
      payload.getD ndpSize 0 = ndpOptTargetLladdr then
    h.ipv6NeighborAdd (readAddr payload 4) (readMac payload (ndpSize + 2))
  else h

def handleIcmpv6 (fuel : Nat) (h : Host) (src dst : Ip6) (payload : List UInt8) : Option Host :=
  let icmpType := payload.getD 0 0
  if payload.length < 4 then some h
  else if icmpType = icmpv6EchoRequest then
    ipv6Send fuel h src ipv6ProtoIcmpv6 (echoReply src dst payload)
  else if icmpType = icmpv6NdNeighborSol then handleSolicitation fuel h src payload
  else if icmpType = icmpv6NdNeighborAdv then some (h.handleAdvertisement payload)
  else some h

def ipv6HandlePacket (fuel : Nat) (h : Host) (data : List UInt8) : Option Host :=
  if data.length < ipv6HdrSize then some h
  else
    let payloadLen := readBe16 data 4
    if (data.length - ipv6HdrSize) % 2 ^ 16 < payloadLen then some h
    else
      let dst := readAddr data 24
      if (h.ifaceOf dst).isNone ∧ data.getD 24 0 ≠ 0xFF then some h
      else if data.getD 6 0 = ipv6ProtoIcmpv6 then
        handleIcmpv6 fuel h (readAddr data 8) dst ((data.drop ipv6HdrSize).take payloadLen)
      else some h

end Host

/-! ## What is sent -/

variable {h h' : Host} {fuel : Nat} {dst target : Ip6} {nextHeader : UInt8} {data : List UInt8}

def Starts (b : UInt8) (frame : Frame) : Prop :=
  ∃ src dst nextHeader rest, frame.packet = ipv6Packet src dst nextHeader (b :: rest)

lemma ipv6NeighborFind_sent (h : Host) (ip : Ip6) : (h.ipv6NeighborFind ip).2.sent = h.sent := by
  unfold Host.ipv6NeighborFind
  split
  · rfl
  · rfl

lemma ipv6NeighborFind_none (empty : ∀ i, (h.cache i).valid = false) (ip : Ip6) :
    h.ipv6NeighborFind ip = (none, h) := by
  unfold Host.ipv6NeighborFind
  rw [find?_eq_none.mpr fun i _ => by rw [empty i]; simp]

/-- Everything that `ndp_send_solicitation` sends starts with a zero: the solicitation, and those
for its own address before it. -/
lemma ndpSendSolicitation_sends (done : h.ndpSendSolicitation fuel target = some h') :
    ∃ frames, h'.sent = h.sent ++ frames ∧ ∀ frame ∈ frames, Starts 0 frame := by
  induction fuel generalizing h h' target with
  | zero =>
    unfold Host.ndpSendSolicitation Host.solicit at done
    split at done
    · cases done
      exact ⟨[], (append_nil _).symm, nofun⟩
    · cases done
  | succ fuel ih =>
    unfold Host.ndpSendSolicitation Host.solicit at done
    split at done
    · cases done
      exact ⟨[], (append_nil _).symm, nofun⟩
    case h_2 iface active =>
      rw [Host.ipv6Send, active] at done
      obtain ⟨⟨mac, h₁⟩, looked, rfl⟩ := map_eq_some_iff.mp done
      obtain ⟨frames, sent, zero⟩ : ∃ frames, h₁.sent = h.sent ++ frames ∧
          ∀ frame ∈ frames, Starts 0 frame := by
        unfold Host.ndpLookup at looked
        have kept := ipv6NeighborFind_sent h (solicitedNode target)
        split at looked
        case h_1 found =>
          cases looked
          rw [found] at kept
          exact ⟨[], by rw [append_nil]; exact kept, nofun⟩
        case h_2 found =>
          rw [found] at kept
          obtain ⟨h₃, solicited, result⟩ := map_eq_some_iff.mp looked
          cases result
          rw [← kept]
          exact ih solicited
      refine ⟨frames ++ [_], (congrArg (· ++ [_]) sent).trans (append_assoc ..),
        fun frame mem => ?_⟩
      rcases mem_append.mp mem with inside | here
      · exact zero frame inside
      · rw [mem_singleton.mp here]
        exact ⟨_, _, _, _, rfl⟩

/-! ## What is recognised -/

def Known (b : UInt8) : Prop :=
  b = icmpv6EchoRequest ∨ b = icmpv6NdNeighborSol ∨ b = icmpv6NdNeighborAdv

lemma drop_ipv6Packet (src dst : Ip6) (nextHeader : UInt8) (data : List UInt8) :
    (ipv6Packet src dst nextHeader data).drop ipv6HdrSize = data := by
  apply drop_left'
  simp [be16, ipv6HdrSize]

lemma Starts.ignored {b : UInt8} {frame : Frame} (starts : Starts b frame) (unknown : ¬ Known b)
    (fuel : Nat) (h : Host) : h.ipv6HandlePacket fuel frame.packet = some h := by
  obtain ⟨src, dst, nextHeader, rest, packet⟩ := starts
  obtain ⟨notEcho, unknown⟩ := not_or.mp unknown
  obtain ⟨notSol, notAdv⟩ := not_or.mp unknown
  have icmp : ∀ src dst n, h.handleIcmpv6 fuel src dst
      (((frame.packet).drop ipv6HdrSize).take n) = some h := by
    intro src' dst' n
    rw [packet, drop_ipv6Packet]
    cases n with
    | zero => rfl
    | succ n =>
      rw [take_succ_cons, Host.handleIcmpv6, getD_cons_zero, if_neg notEcho,
        if_neg notSol, if_neg notAdv, ite_self]
  unfold Host.ipv6HandlePacket
  simp only [icmp, ite_self]

lemma solicitation_ignored {fuel' : Nat} (done : h.ndpSendSolicitation fuel target = some h')
    {frame : Frame} (new : frame ∈ h'.sent.drop h.sent.length) (host : Host) :
    host.ipv6HandlePacket fuel' frame.packet = some host := by
  obtain ⟨frames, sent, zero⟩ := ndpSendSolicitation_sends done
  rw [sent, drop_left] at new
  exact (zero frame new).ignored (by unfold Known; decide) fuel' host

lemma solicitedNode_idem (target : Ip6) :
    solicitedNode (solicitedNode target) = solicitedNode target := by
  funext i
  unfold solicitedNode
  split_ifs <;> rfl

/-- Without an entry for the solicited-node address, `ipv6_send` to it asks for it again. -/
lemma ipv6Send_unreturned (chosen : h.activeIface.isSome)
    (unknown : h.ipv6NeighborFind (solicitedNode target) = (none, h)) :
    h.ipv6Send fuel (solicitedNode target) nextHeader data = none := by
  obtain ⟨iface, active⟩ := isSome_iff_exists.mp chosen
  induction fuel generalizing nextHeader data with
  | zero => rfl
  | succ fuel ih =>
    rw [Host.ipv6Send, active]
    rw [Host.ndpLookup, unknown]
    simp only
    rw [Host.solicit, active]
    simp only
    rw [solicitedNode_idem, ih]
    rfl

lemma solicitation_unreturned (chosen : h.activeIface.isSome)
    (unknown : h.ipv6NeighborFind (solicitedNode target) = (none, h)) (fuel : Nat) :
    h.ndpSendSolicitation fuel target = none := by
  obtain ⟨iface, active⟩ := isSome_iff_exists.mp chosen
  rw [Host.ndpSendSolicitation, Host.solicit, active]
  exact ipv6Send_unreturned chosen unknown

/-! ## The round trip -/

/-- A solicitation for `target` is sent, the host that owns it answers, and the answer gets its
hardware address into the cache of the sender. -/
def RoundTrip (sender host : Host) (target : Ip6) : Prop :=
  ∃ fuel sender₁ frame, sender.ndpSendSolicitation fuel target = some sender₁ ∧
    frame ∈ sender₁.sent.drop sender.sent.length ∧
  ∃ fuel' host₁ answer, host.ipv6HandlePacket fuel' frame.packet = some host₁ ∧
    answer ∈ host₁.sent.drop host.sent.length ∧
  ∃ fuel'' sender₂ iface, sender₁.ipv6HandlePacket fuel'' answer.packet = some sender₂ ∧
    host.ifaceOf target = some iface ∧ (sender₂.ipv6NeighborFind target).1 = some iface.mac

/-- No target is resolved by a solicitation. -/
theorem round_trip_never (sender host : Host) (target : Ip6) : ¬ RoundTrip sender host target := by
  rintro ⟨fuel, sender₁, frame, done, new, fuel', host₁, answer, handled, answered, _⟩
  -- The host that gets the solicitation is left as it was.
  rw [solicitation_ignored done new host] at handled
  cases handled
  rw [drop_length] at answered
  exact not_mem_nil answered

def linkLocal (b : UInt8) : Ip6 := fun i =>
  if i.val = 0 then 0xFE else if i.val = 1 then 0x80 else if i.val = 8 then 0x50
  else if i.val = 9 then 0x54 else if i.val = 11 then 0xFF else if i.val = 12 then 0xFE
  else if i.val = 15 then b else 0

def freshHost (b : UInt8) : Host where
  ifaces := [⟨true, linkLocal b, fun i => if i.val = 0 then 0x52 else if i.val = 1 then 0x54
    else if i.val = 5 then b else 0, true⟩]
  cache := fun _ => {}
  age := 0
  sent := []

/-- Host 2 is asked for by host 1: with an empty cache the call does not return; with an entry for
the multicast address one packet is sent, and host 2 ignores it. -/
theorem solicitation_lost : ((freshHost 2).ifaceOf (linkLocal 2)).isSome = true ∧
    (∀ fuel, (freshHost 1).ndpSendSolicitation fuel (linkLocal 2) = none) ∧
    (∃ sender frame, ((freshHost 1).ipv6NeighborAdd (solicitedNode (linkLocal 2))
        (multicastMac (linkLocal 2))).ndpSendSolicitation 1 (linkLocal 2) = some sender ∧
      sender.sent = [frame] ∧
      ∀ fuel, (freshHost 2).ipv6HandlePacket fuel frame.packet = some (freshHost 2)) := by
  refine ⟨by decide +kernel, fun fuel => ?_, ?_⟩
  · exact solicitation_unreturned rfl (ipv6NeighborFind_none (fun _ => rfl) _) fuel
  have value : (((freshHost 1).ipv6NeighborAdd (solicitedNode (linkLocal 2))
      (multicastMac (linkLocal 2))).ndpSendSolicitation 1 (linkLocal 2)).any
        (fun sender => sender.sent.length == 1) = true := by
    decide +kernel
  obtain ⟨sender, done, one⟩ := (any_eq_true _ _).mp value
  obtain ⟨frame, sent⟩ := length_eq_one_iff.mp (beq_iff_eq.mp one)
  refine ⟨sender, frame, done, sent, fun fuel => solicitation_ignored done ?_ _⟩
  rw [sent]
  exact mem_singleton_self _

end AuroraOS.Net.Ipv6
