import AuroraOS.Net.Safety

/-!
# The ARP cache

`arp_cache_add` stores a reply in the first free slot or the oldest one, whether or not another slot
has an entry for the address; `arp_cache_find` takes the first entry it meets.
-/

namespace AuroraOS.Net

open Lib Relation Function List
open Tcp (Ip)

/-! ## Messages -/

inductive ArpMessage
  | other
  | request (tpa : Ip)
  | reply (spa : Ip) (sha : List UInt8)

def arpMessage (frame : List UInt8) (data : Nat) (len : Int) : Checked ArpMessage := do
  if len < arpHdrSize then return .other
  let htype ← loadBe frame data 2
  if htype ≠ arpHtypeEth then return .other
  let ptype ← loadBe frame (data + 2) 2
  if ptype ≠ ethIpv4 then return .other
  let hlen ← load frame (data + 4)
  let plen ← load frame (data + 5)
  if hlen ≠ 6 ∨ plen ≠ 4 then return .other
  let oper ← loadBe frame (data + 6) 2
  if oper = arpRequest then
    let tpa ← Stack.loadIp frame (data + 24)
    return .request tpa
  else if oper = arpReply then
    let spa ← Stack.loadIp frame (data + 14)
    let sha ← loadRange frame (data + 8) 6
    return .reply spa sha
  else return .other

namespace Stack

variable (s : Stack)

def arpAnswer (frame : List UInt8) (data : Nat) (tpa : Ip) : Checked Stack :=
  match s.netIfFindByIp tpa with
  | none => .ok s
  | some iface =>
    if !iface.hasDev then .ok s
    else do
      let sha ← loadRange frame (data + 8) 6
      let spa ← loadIp frame (data + 14)
      return s.emit (.arpReply iface.ip sha spa)

def arpHandle (frame : List UInt8) (data : Nat) : ArpMessage → Checked Stack
  | .other => .ok s
  | .request tpa => s.arpAnswer frame data tpa
  | .reply spa sha => .ok (s.arpCacheAdd spa sha)

lemma arpHandlePacket_eq (frame : List UInt8) (data : Nat) (len : Int) :
    s.arpHandlePacket frame data len = arpMessage frame data len >>= s.arpHandle frame data := by
  have past : ∀ {p : Prop} [Decidable p] (x y : Checked ArpMessage),
      (if p then x else y) >>= s.arpHandle frame data =
        if p then x >>= s.arpHandle frame data else y >>= s.arpHandle frame data :=
    fun x y => apply_ite (· >>= s.arpHandle frame data) _ x y
  simp only [arpMessage, past, bind_assoc]
  rfl

/-! ## The cache as a table -/

def arpCells (i : Fin arpCacheSize) : Option (Ip × List UInt8) :=
  if (s.arpCache i).valid then some ((s.arpCache i).ip, (s.arpCache i).mac) else none

lemma arpCacheSize_pos : 0 < arpCacheSize := by decide

def arpSlot : Fin arpCacheSize :=
  let first : Fin arpCacheSize := ⟨0, arpCacheSize_pos⟩
  arpTarget s.arpCache (finRange arpCacheSize) first (s.arpCache first).age

def arpResolve (ip : Ip) : Option (List UInt8) × Stack :=
  match s.arpCacheFind ip with
  | (some mac, s) => (some mac, s)
  | (none, _) => (none, s.arpLookup ip)

variable {s}

lemma arpCells_eq {i : Fin arpCacheSize} {ip : Ip} {mac : List UInt8} :
    s.arpCells i = some (ip, mac) ↔
      (s.arpCache i).valid = true ∧ (s.arpCache i).ip = ip ∧ (s.arpCache i).mac = mac := by
  unfold arpCells
  split
  case isTrue valid => simp [valid]
  case isFalse invalid => simp [invalid]

lemma arpCells_cacheAdd (ip : Ip) (mac : List UInt8) :
    (s.arpCacheAdd ip mac).arpCells = update s.arpCells s.arpSlot (some (ip, mac)) := by
  funext i
  rcases eq_or_ne i s.arpSlot with rfl | other
  · rw [update_self]
    refine arpCells_eq.mpr ?_
    have stored : (s.arpCacheAdd ip mac).arpCache s.arpSlot =
        ⟨ip, mac, s.arpAgeCounter + 1, true⟩ := update_self ..
    rw [stored]
    exact ⟨rfl, rfl, rfl⟩
  · have same : (s.arpCacheAdd ip mac).arpCache i = s.arpCache i := update_of_ne other ..
    rw [update_of_ne other, arpCells, arpCells, same]

lemma arpCells_lookup (ip : Ip) : (s.arpLookup ip).arpCells = s.arpCells := by
  have entry : ∀ i, ∃ age, (s.arpLookup ip).arpCache i = { s.arpCache i with age := age } := by
    intro i
    unfold arpLookup arpCacheFind
    cases (finRange arpCacheSize).find? fun i =>
        (s.arpCache i).valid && (s.arpCache i).ip == ip with
    | none => exact ⟨_, rfl⟩
    | some j =>
      simp only [setArp]
      rcases eq_or_ne i j with rfl | other
      · exact ⟨_, update_self ..⟩
      · exact ⟨_, update_of_ne other ..⟩
  funext i
  obtain ⟨age, is⟩ := entry i
  rw [arpCells, arpCells, is]

lemma arpResolve_of_binds {ip : Ip} {mac : List UInt8} (distinct : Distinct s.arpCells)
    (binds : Binds s.arpCells ip mac) : (s.arpResolve ip).1 = some mac := by
  have tests : ∀ i, ((s.arpCache i).valid && (s.arpCache i).ip == ip) = true ↔
      ∃ w, s.arpCells i = some (ip, w) := by
    intro i
    simp [arpCells_eq]
  obtain ⟨i, found, here⟩ := distinct.find binds (mem_finRange ·) tests
  unfold arpResolve arpCacheFind
  rw [found]
  exact congrArg some (arpCells_eq.mp here).2.2

/-! ## Events -/

end Stack

inductive ArpEvent
  | packet (frame : List UInt8) (data : Nat)
  | lookup (ip : Ip)

def ArpEvent.message : ArpEvent → Checked ArpMessage
  | .packet frame data => arpMessage frame data (frame.length - data)
  | .lookup _ => .ok .other

namespace Stack

variable (s : Stack)

def arpEvent : ArpEvent → Checked Stack
  | .packet frame data => s.arpHandlePacket frame data (frame.length - data)
  | .lookup ip => .ok (s.arpLookup ip)

/-- A reply is for an address without a valid entry, a request for the address of an interface or
while no interface is up. -/
def Admits (e : ArpEvent) : Prop :=
  match e.message with
  | .ok (.reply spa _) => ∀ i, ¬ ((s.arpCache i).valid = true ∧ (s.arpCache i).ip = spa)
  | .ok (.request tpa) => (∃ n ∈ s.netIfs, n.ip = tpa) ∨ ∀ n ∈ s.netIfs, (n.up && n.hasDev) = false
  | _ => True

/-- The event brings a reply for the address, or one that is stored in the place of its entry. -/
def Disturbs (e : ArpEvent) (ip : Ip) : Prop :=
  ∃ spa sha, e.message = .ok (.reply spa sha) ∧
    (spa = ip ∨ (s.arpCache s.arpSlot).valid = true ∧ (s.arpCache s.arpSlot).ip = ip)

def Answers (e : ArpEvent) : Prop :=
  ∃ s', s.arpEvent e = .ok s' ∧ ∃ src mac dst, s'.sent = s.sent ++ [.arpReply src mac dst]

end Stack

def ArpStep (s s' : Stack) : Prop := ∃ e, s.Admits e ∧ s.arpEvent e = .ok s'

/-- A step that brings no reply for the address and does not evict its entry. -/
def ArpQuiet (ip : Ip) (s s' : Stack) : Prop :=
  ∃ e, s.Admits e ∧ ¬ s.Disturbs e ip ∧ s.arpEvent e = .ok s'

variable {s s' : Stack} {e : ArpEvent} {ip : Ip} {mac : List UInt8}

lemma Stack.arpAnswer_cases {frame : List UInt8} {data : Nat} {tpa : Ip} :
    Yields (s.arpAnswer frame data tpa) fun s' => s' = s ∨ ∃ iface src mac dst,
      s.netIfFindByIp tpa = some iface ∧ iface.hasDev = true ∧
        s' = s.emit (.arpReply src mac dst) := by
  unfold Stack.arpAnswer
  split
  · exact .ok (.inl rfl)
  case h_2 iface found =>
    refine .ite (fun _ => .ok (.inl rfl)) fun device => .after fun sha => .after fun spa =>
      .ok (.inr ?_)
    exact ⟨iface, _, sha, spa, found, by simpa using device, rfl⟩

lemma Stack.arpEvent_cases (done : s.arpEvent e = .ok s') :
    (∃ ip, e = .lookup ip ∧ s' = s.arpLookup ip) ∨
    (e.message = .ok .other ∧ s' = s) ∨
    (∃ tpa, e.message = .ok (.request tpa) ∧ (s' = s ∨ ∃ iface src mac dst,
      s.netIfFindByIp tpa = some iface ∧ iface.hasDev = true ∧
        s' = s.emit (.arpReply src mac dst))) ∨
    ∃ spa sha, e.message = .ok (.reply spa sha) ∧ s' = s.arpCacheAdd spa sha := by
  cases e with
  | lookup ip =>
    cases done
    exact .inl ⟨ip, rfl, rfl⟩
  | packet frame data =>
    rw [Stack.arpEvent, Stack.arpHandlePacket_eq] at done
    cases message : arpMessage frame data (frame.length - data) with
    | error fault =>
      rw [message] at done
      cases done
    | ok m =>
      rw [message] at done
      cases m with
      | other =>
        cases done
        exact .inr (.inl ⟨message, rfl⟩)
      | request tpa =>
        exact .inr (.inr (.inl ⟨tpa, message, Stack.arpAnswer_cases s' done⟩))
      | reply spa sha =>
        cases done
        exact .inr (.inr (.inr ⟨spa, sha, message, rfl⟩))

lemma Stack.arpEvent_cells (done : s.arpEvent e = .ok s') : s'.arpCells = s.arpCells ∨
    ∃ spa sha, e.message = .ok (.reply spa sha) ∧
      s'.arpCells = update s.arpCells s.arpSlot (some (spa, sha)) := by
  obtain ⟨ip, _, rfl⟩ | ⟨_, rfl⟩ | ⟨tpa, _, rfl | ⟨iface, src, mac, dst, _, _, rfl⟩⟩ |
    ⟨spa, sha, message, rfl⟩ := s.arpEvent_cases done
  · exact .inl (arpCells_lookup ip)
  · exact .inl rfl
  · exact .inl rfl
  · exact .inl rfl
  · exact .inr ⟨spa, sha, message, arpCells_cacheAdd spa sha⟩

lemma Stack.Answers.request (answers : s.Answers e) : ∃ tpa iface,
    e.message = .ok (.request tpa) ∧ s.netIfFindByIp tpa = some iface ∧ iface.hasDev = true := by
  obtain ⟨s', done, src, mac, dst, sent⟩ := answers
  have silent : s.sent ≠ s.sent ++ [.arpReply src mac dst] := by
    intro same
    simpa using congrArg length same
  obtain ⟨ip, _, rfl⟩ | ⟨_, rfl⟩ | ⟨tpa, message, rfl | ⟨iface, _, _, _, found, device, rfl⟩⟩ |
    ⟨spa, sha, message, rfl⟩ := s.arpEvent_cases done
  · obtain ⟨asked, requests⟩ : ∃ asked, (s.arpLookup ip).sent = s.sent ++ asked ∧
        ∀ packet ∈ asked, packet = .arpRequest ip := by
      unfold Stack.arpLookup Stack.arpCacheFind
      cases (finRange arpCacheSize).find? fun i =>
          (s.arpCache i).valid && (s.arpCache i).ip == ip with
      | some j => exact ⟨[], (append_nil _).symm, nofun⟩
      | none =>
        refine ⟨_, rfl, fun packet mem => ?_⟩
        obtain ⟨n, _, rfl⟩ := mem_map.mp mem
        rfl
    rw [requests.1] at sent
    cases requests.2 _ (append_cancel_left sent ▸ mem_singleton_self _)
  · exact absurd sent silent
  · exact absurd sent silent
  · exact ⟨tpa, iface, message, found, device⟩
  · exact absurd sent silent

/-! ## Admitted runs -/

lemma Stack.Admits.fresh (admits : s.Admits e) {spa : Ip} {sha : List UInt8}
    (message : e.message = .ok (.reply spa sha)) : ∀ i w, s.arpCells i ≠ some (spa, w) := by
  intro i w here
  rw [Stack.Admits, message] at admits
  obtain ⟨valid, address, _⟩ := Stack.arpCells_eq.mp here
  exact admits i ⟨valid, address⟩

lemma ArpStep.distinct (distinct : Distinct s.arpCells) (step : ArpStep s s') :
    Distinct s'.arpCells := by
  obtain ⟨e, admits, done⟩ := step
  rcases s.arpEvent_cells done with same | ⟨spa, sha, message, put⟩
  · rwa [same]
  · rw [put]
    exact distinct.put (admits.fresh message)

lemma distinct_of_run (empty : ∀ i, (s.arpCache i).valid = false)
    (run : ReflTransGen ArpStep s s') : Distinct s'.arpCells := by
  induction run with
  | refl =>
    refine Distinct.of_empty fun i => ?_
    rw [Stack.arpCells, if_neg (by rw [empty i]; decide)]
  | tail _ step ih => exact step.distinct ih

lemma ArpQuiet.binds (binds : Binds s.arpCells ip mac) (step : ArpQuiet ip s s') :
    Binds s'.arpCells ip mac := by
  obtain ⟨e, _, quiet, done⟩ := step
  rcases s.arpEvent_cells done with same | ⟨spa, sha, message, put⟩
  · rwa [same]
  · rw [put]
    refine binds.put fun w here => quiet ⟨spa, sha, message, .inr ?_⟩
    obtain ⟨valid, address, _⟩ := Stack.arpCells_eq.mp here
    exact ⟨valid, address⟩

lemma ArpQuiet.run (distinct : Distinct s.arpCells) (binds : Binds s.arpCells ip mac)
    (run : ReflTransGen (ArpQuiet ip) s s') :
    Distinct s'.arpCells ∧ Binds s'.arpCells ip mac := by
  induction run with
  | refl => exact ⟨distinct, binds⟩
  | tail _ step ih =>
    have kept := step.binds ih.2
    obtain ⟨e, admits, _, done⟩ := step
    exact ⟨ArpStep.distinct ih.1 ⟨e, admits, done⟩, kept⟩

/-- In an admitted run from an empty cache no address has two valid entries, a lookup gives the
hardware address of the last reply unless its entry was evicted, and a request is answered only for
an interface. -/
theorem arp_of_admitted_run {s₀ : Stack} (empty : ∀ i, (s₀.arpCache i).valid = false)
    (run : ReflTransGen ArpStep s₀ s) :
    (∀ i j, (s.arpCache i).valid = true → (s.arpCache j).valid = true →
      (s.arpCache i).ip = (s.arpCache j).ip → i = j) ∧
    (∀ e ip mac s₁ s₂, s.Admits e → e.message = .ok (.reply ip mac) → s.arpEvent e = .ok s₁ →
      ReflTransGen (ArpQuiet ip) s₁ s₂ → (s₂.arpResolve ip).1 = some mac) ∧
    ∀ e, s.Admits e → s.Answers e →
      ∃ tpa, e.message = .ok (.request tpa) ∧ ∃ n ∈ s.netIfs, n.ip = tpa := by
  have distinct := distinct_of_run empty run
  refine ⟨fun i j validI validJ same => ?_, fun e ip mac s₁ s₂ admits message done quiet => ?_,
    fun e admits answers => ?_⟩
  · exact distinct (Stack.arpCells_eq.mpr ⟨validI, same, rfl⟩)
      (Stack.arpCells_eq.mpr ⟨validJ, rfl, rfl⟩)
  · have distinct₁ := ArpStep.distinct distinct ⟨e, admits, done⟩
    have binds : Binds s₁.arpCells ip mac := by
      obtain ⟨_, rfl, _⟩ | ⟨other, _⟩ | ⟨tpa, other, _⟩ | ⟨spa, sha, reply, rfl⟩ :=
        s.arpEvent_cases done
      · cases message
      · cases other.symm.trans message
      · cases other.symm.trans message
      · cases reply.symm.trans message
        rw [Stack.arpCells_cacheAdd]
        exact binds_put
    obtain ⟨distinct₂, binds₂⟩ := ArpQuiet.run distinct₁ binds quiet
    exact Stack.arpResolve_of_binds distinct₂ binds₂
  · obtain ⟨tpa, iface, message, found, _⟩ := answers.request
    refine ⟨tpa, message, ?_⟩
    rw [Stack.Admits, message] at admits
    rcases admits with known | down
    · exact known
    unfold Stack.netIfFindByIp at found
    split at found
    case h_1 n here =>
      have named := find?_some here
      exact ⟨n, mem_of_find?_eq_some here, beq_iff_eq.mp named⟩
    case h_2 =>
      have up := find?_some found
      rw [down iface (mem_of_find?_eq_some found)] at up
      cases up

/-! ## Packets on the wire -/

def arpPacket (oper : UInt8) (sha spa tpa : List UInt8) : List UInt8 :=
  [0, 1, 8, 0, 6, 4, 0, oper] ++ sha ++ spa ++ replicate 6 0 ++ tpa

def gatewayReply (b : UInt8) : ArpEvent :=
  .packet (arpPacket 2 (replicate 6 b) [10, 0, 2, 2] [10, 0, 2, 15]) 0

def foreignRequest : ArpEvent :=
  .packet (arpPacket 1 (replicate 6 0xAA) [10, 0, 2, 2] [10, 0, 2, 77]) 0

/-- The gateway answers, and its address is resolved. -/
theorem arp_of_admitted_run_gateway : (∀ i, (freshStack.arpCache i).valid = false) ∧
    ∃ s₁, freshStack.arpEvent (gatewayReply 0xAA) = .ok s₁ ∧
      (s₁.arpResolve 0x0A000202).1 = some (replicate 6 0xAA) := by
  have empty : ∀ i, (freshStack.arpCache i).valid = false := fun _ => rfl
  have message : (gatewayReply 0xAA).message =
      .ok (.reply 0x0A000202 (replicate 6 0xAA)) := rfl
  have admits : freshStack.Admits (gatewayReply 0xAA) := by
    exact fun i both => absurd both.1 (by rw [empty i]; decide)
  exact ⟨empty, _, rfl,
    (arp_of_admitted_run empty .refl).2.1 _ _ _ _ _ admits message rfl .refl⟩

/-- A second reply for an address leaves two entries and the lookup finds the first; a request for
a foreign address is answered. -/
theorem arp_cache_forgets_update : (∀ i, (freshStack.arpCache i).valid = false) ∧
    (∃ s₁ s₂, freshStack.arpEvent (gatewayReply 0xAA) = .ok s₁ ∧
      s₁.arpEvent (gatewayReply 0xBB) = .ok s₂ ∧
      (gatewayReply 0xBB).message = .ok (.reply 0x0A000202 (replicate 6 0xBB)) ∧
      (s₂.arpResolve 0x0A000202).1 = some (replicate 6 0xAA) ∧
      ∃ i j, i ≠ j ∧ (s₂.arpCache i).valid = true ∧ (s₂.arpCache j).valid = true ∧
        (s₂.arpCache i).ip = (s₂.arpCache j).ip) ∧
    foreignRequest.message = .ok (.request 0x0A00024D) ∧ freshStack.Answers foreignRequest ∧
      ∀ n ∈ freshStack.netIfs, n.ip ≠ 0x0A00024D := by
  refine ⟨fun _ => rfl, ⟨_, _, rfl, rfl, rfl, ?_, ⟨0, by decide⟩, ⟨1, by decide⟩, ?_, ?_, ?_, ?_⟩,
    rfl, ⟨_, rfl, _, _, _, rfl⟩, by decide⟩
  · decide +kernel
  · decide
  · decide +kernel
  · decide +kernel
  · decide +kernel

end AuroraOS.Net
