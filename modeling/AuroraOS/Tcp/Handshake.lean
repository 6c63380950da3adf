import AuroraOS.Tcp.Model
import Mathlib.Data.Fintype.Card

/-!
# Opening a connection

`tcp_handle_packet` does not look at the acknowledgement number, and a connection is queued for
`tcp_accept` when its SYN arrives.
-/

namespace AuroraOS.Tcp

open List Option Finset Function

/-! ## Runs -/

/-- A host, and for each slot the acknowledgement numbers of the segments its socket got. -/
structure Traced where
  host : Host
  acks : Slot → List Seq

def observe (h : Host) (acks : Slot → List Seq) : Call → Slot → List Seq
  | .packet srcIp dstIp data =>
    match parseSegment data with
    | some g =>
      match h.dispatch srcIp dstIp g with
      | some i => update acks i (g.ack :: acks i)
      | none => acks
    | none => acks
  | _ => acks

def Traced.step (t : Traced) (env : Env) (c : Call) : Traced where
  host := (t.host.step env c).host
  acks := observe t.host t.acks c

/-- A socket becomes ESTABLISHED only after a segment that acknowledges its initial sequence
number. -/
def Traced.EntersAcked (t : Traced) (env : Env) (c : Call) : Prop :=
  ∀ i, ((t.step env c).host.sockets i).state = .established →
    (t.host.sockets i).state ≠ .established →
    ((t.step env c).host.sockets i).isn + 1 ∈ (t.step env c).acks i

def Traced.AcceptsEstablished (t : Traced) (env : Env) (c : Call) : Prop :=
  ∀ sock, c = .accept sock → 0 ≤ (t.host.step env c).ret →
    ∃ i, (t.step env c).host.findSocket (t.host.step env c).ret.toNat = some i ∧
      ((t.step env c).host.sockets i).state = .established

def Traced.Right (t : Traced) : List (Env × Call) → Prop
  | [] => True
  | (env, c) :: steps =>
    t.EntersAcked env c ∧ t.AcceptsEstablished env c ∧ (t.step env c).Right steps

def start (netIfs : List NetIf) : Traced := ⟨Host.boot netIfs, fun _ => []⟩

/-! ## The condition -/

def Completes (s : TcpSocket) (g : Segment) : Prop :=
  (s.state = .synSent ∧ g.flags.hasAll (tcpSyn ||| tcpAck) = true) ∨
    (s.state = .synReceived ∧ g.flags.has tcpRst = false ∧ g.flags.has tcpAck = true)

def Queued (h : Host) (id : Nat) : Prop :=
  ∃ l, (h.sockets l).inUse = true ∧ id ∈ (h.sockets l).pending

/-- Segments that complete a handshake acknowledge the initial sequence number, queued
connections get neither RST nor FIN and are not closed, and `tcp_accept` is called when the oldest
queued connection is past its handshake. -/
def Allowed (h : Host) : Call → Prop
  | .packet srcIp dstIp data =>
    ∀ g i, parseSegment data = some g → h.dispatch srcIp dstIp g = some i →
      (Completes (h.sockets i) g → g.ack = (h.sockets i).isn + 1) ∧
        (Queued h (h.sockets i).id → g.flags.has tcpRst = false ∧ g.flags.has tcpFin = false)
  | .close sock => ¬ Queued h sock
  | .shutdown sock => ¬ Queued h sock
  | .listen sock _ => ¬ Queued h sock
  | .accept sock =>
    ∀ l id rest i, h.findSocket sock = some l → (h.sockets l).pending = id :: rest →
      h.findSocket id = some i → (h.sockets i).state ≠ .synReceived
  | _ => True

def AllAllowed (t : Traced) : List (Env × Call) → Prop
  | [] => True
  | (env, c) :: steps => Allowed t.host c ∧ AllAllowed (t.step env c) steps

/-! ## What the socket functions do -/

section Socket

variable {s : TcpSocket} {env : Env} {g : Segment} {flags : Flags} {data : List UInt8}

structure SameCore (s s' : TcpSocket) : Prop where
  id : s'.id = s.id
  inUse : s'.inUse = s.inUse
  state : s'.state = s.state
  isn : s'.isn = s.isn
  pending : s'.pending = s.pending

lemma sendPacket_core (s : TcpSocket) (env : Env) (flags : Flags) (data : List UInt8) :
    SameCore s (s.sendPacket env flags data).1 := by
  unfold TcpSocket.sendPacket
  split <;> exact ⟨rfl, rfl, rfl, rfl, rfl⟩

lemma send_core (s : TcpSocket) (env : Env) (data : List UInt8) :
    SameCore s (s.send env data).1 := by
  unfold TcpSocket.send
  split_ifs
  · exact ⟨rfl, rfl, rfl, rfl, rfl⟩
  · exact ⟨rfl, rfl, rfl, rfl, rfl⟩
  · have core := sendPacket_core s env (tcpPsh ||| tcpAck) (data.take tcpMaxSegment)
    simp only
    generalize s.sendPacket env (tcpPsh ||| tcpAck) (data.take tcpMaxSegment) = r at *
    obtain ⟨s', packet⟩ := r
    cases packet <;> exact core

structure Closes (s s' : TcpSocket) : Prop where
  id : s'.id = s.id
  inUse : s'.inUse = s.inUse
  pending : s'.pending = s.pending
  entered : s'.state = .established → s.state = .established

lemma fin_closes {next : TcpState} (leaves : next ≠ .established) :
    Closes s ({ s with state := next }.sendPacket env flags data).1 := by
  have core := sendPacket_core { s with state := next } env flags data
  exact ⟨core.id, core.inUse, core.pending, fun e => absurd (core.state.symm.trans e) leaves⟩

lemma close_closes : Closes s (s.close env).1 := by
  unfold TcpSocket.close
  split
  case h_1 | h_2 => exact fin_closes (by decide)
  case h_3 | h_4 => exact ⟨rfl, rfl, rfl, id⟩

lemma shutdown_closes : Closes s (s.shutdown env).1 := by
  unfold TcpSocket.shutdown
  split
  · exact ⟨rfl, rfl, rfl, id⟩
  · exact close_closes

/-- What a segment does: it may complete a handshake; without RST and FIN it does not take a
socket out of ESTABLISHED or SYN_RECEIVED otherwise. -/
structure Handled (s : TcpSocket) (g : Segment) (s' : TcpSocket) : Prop where
  id : s'.id = s.id
  inUse : s'.inUse = s.inUse
  isn : s'.isn = s.isn
  pending : s'.pending = s.pending
  entered : s'.state = .established → s.state ≠ .established → Completes s g
  opening : s.state = .synReceived ∨ s.state = .established → g.flags.has tcpRst = false →
    g.flags.has tcpFin = false → s'.state = .synReceived ∨ s'.state = .established

lemma handle_handled : Handled s g (s.handle g).1 := by
  unfold TcpSocket.handle
  split
  case h_1 state =>
      split_ifs with synAck rst
      · exact ⟨rfl, rfl, rfl, rfl, fun _ _ => .inl ⟨state, synAck⟩, fun _ _ _ => .inr rfl⟩
      · exact ⟨rfl, rfl, rfl, rfl, fun e => (by cases e), fun opens => by simp [state] at opens⟩
      · exact ⟨rfl, rfl, rfl, rfl, fun e n => absurd e n, fun opens _ _ => opens⟩
  case h_2 state =>
      split_ifs with rst ack
      · exact ⟨rfl, rfl, rfl, rfl, fun e => (by cases e), fun _ clear => by simp [rst] at clear⟩
      · exact ⟨rfl, rfl, rfl, rfl, fun _ _ => .inr ⟨state, by simpa using rst, ack⟩,
          fun _ _ _ => .inr rfl⟩
      · exact ⟨rfl, rfl, rfl, rfl, fun e n => absurd e n, fun opens _ _ => opens⟩
  case h_3 state =>
      split_ifs with rst fin data
      · exact ⟨rfl, rfl, rfl, rfl, fun e => (by cases e), fun _ clear => by simp [rst] at clear⟩
      · exact ⟨rfl, rfl, rfl, rfl, fun e => (by cases e), fun _ _ clear => by simp [fin] at clear⟩
      · exact ⟨rfl, rfl, rfl, rfl, fun _ n => absurd state n, fun opens _ _ => opens⟩
      · exact ⟨rfl, rfl, rfl, rfl, fun e n => absurd e n, fun opens _ _ => opens⟩
  case h_7 | h_8 | h_9 | h_10 =>
      exact ⟨rfl, rfl, rfl, rfl, fun e n => absurd e n, fun opens _ _ => opens⟩
  -- the closing states lead to closing states
  case h_4 state | h_5 state | h_6 state =>
      split_ifs
      all_goals
        refine ⟨rfl, rfl, rfl, rfl, fun e n => ?_, fun opens => ?_⟩
        · first | cases e | exact absurd e n
        · simp [state] at opens

lemma receive_handled (s : TcpSocket) (env : Env) (g : Segment) :
    Handled s g (s.receive env g).1 := by
  have handled := handle_handled (s := s) (g := g)
  unfold TcpSocket.receive
  generalize s.handle g = r at *
  obtain ⟨s', answers⟩ := r
  cases answers with
  | false => exact handled
  | true =>
    have core := sendPacket_core s' env tcpAck []
    constructor
    · exact core.id.trans handled.id
    · exact core.inUse.trans handled.inUse
    · exact core.isn.trans handled.isn
    · exact core.pending.trans handled.pending
    · exact fun e => handled.entered (core.state.symm.trans e)
    · intro opens rst fin
      have after := handled.opening opens rst fin
      rw [← core.state] at after
      exact after

end Socket

/-! ## The socket table -/

section Table

variable {h : Host} {i j : Slot} {s : TcpSocket} {env : Env}

/-- The number of sockets made so far; none is ever given back. -/
def used (h : Host) : Nat := (univ.filter fun i => (h.sockets i).inUse).card

structure Table (h : Host) : Prop where
  small : ∀ i, (h.sockets i).inUse = true → (h.sockets i).id ≤ used h
  next : used h < maxTcpSockets → h.nextId = used h + 1
  distinct : ∀ i j, (h.sockets i).inUse = true → (h.sockets j).inUse = true →
    (h.sockets i).id = (h.sockets j).id → i = j
  queued : ∀ id, Queued h id → ∃ i, (h.sockets i).inUse = true ∧ (h.sockets i).id = id ∧
    ((h.sockets i).state = .synReceived ∨ (h.sockets i).state = .established)

lemma set_self : (h.set i s).sockets i = s := update_self ..

lemma set_other (different : j ≠ i) : (h.set i s).sockets j = h.sockets j :=
  update_of_ne different ..

lemma set_field {α : Type} (field : TcpSocket → α) (same : field s = field (h.sockets i))
    (j : Slot) : field ((h.set i s).sockets j) = field (h.sockets j) := by
  by_cases here : j = i
  · rw [here, set_self, same]
  · rw [set_other here]

lemma used_set (same : s.inUse = (h.sockets i).inUse) : used (h.set i s) = used h := by
  unfold used
  congr 1
  apply Finset.filter_congr
  intro j _
  rw [set_field (·.inUse) same]

lemma used_add (free : (h.sockets i).inUse = false) (inUse : s.inUse = true) :
    used (h.set i s) = used h + 1 := by
  have grown : (univ.filter fun j => ((h.set i s).sockets j).inUse = true) =
      insert i (univ.filter fun j => (h.sockets j).inUse = true) := by
    ext j
    by_cases here : j = i
    · simp [here, set_self, inUse]
    · simp [here, set_other here]
  unfold used
  rw [grown, card_insert_of_notMem (by simp [free])]

lemma used_lt (free : (h.sockets i).inUse = false) : used h < maxTcpSockets := by
  have proper : (univ.filter fun j => (h.sockets j).inUse = true) ⊂ univ := by
    refine filter_ssubset.mpr ⟨i, mem_univ i, ?_⟩
    simp [free]
  have fewer := card_lt_card proper
  rwa [card_univ, Fintype.card_fin] at fewer

variable (table : Table h)
include table

/-- A slot gets a socket with the same id, which stays open if its id is queued.  An id that is new
in its queue is that of a half-open connection. -/
lemma Table.set (id : s.id = (h.sockets i).id) (inUse : s.inUse = (h.sockets i).inUse)
    (pending : ∀ name ∈ s.pending, name ∈ (h.sockets i).pending ∨ ∃ j, j ≠ i ∧
      (h.sockets j).inUse = true ∧ (h.sockets j).id = name ∧ (h.sockets j).state = .synReceived)
    (opening : (h.sockets i).inUse = true → Queued h (h.sockets i).id →
      (h.sockets i).state = .synReceived ∨ (h.sockets i).state = .established →
      s.state = .synReceived ∨ s.state = .established) : Table (h.set i s) := by
  have ids := set_field (·.id) id
  have uses := set_field (·.inUse) inUse
  constructor
  · intro j used
    rw [ids, used_set inUse]
    exact table.small j (uses j ▸ used)
  · rw [used_set inUse]
    exact table.next
  · intro j k usedJ usedK same
    rw [ids, ids] at same
    exact table.distinct j k (uses j ▸ usedJ) (uses k ▸ usedK) same
  · intro name ⟨l, used, mem⟩
    have before : Queued h name ∨ ∃ j, j ≠ i ∧ (h.sockets j).inUse = true ∧
        (h.sockets j).id = name ∧ (h.sockets j).state = .synReceived := by
      rw [uses] at used
      by_cases here : l = i
      · rw [here, set_self] at mem
        exact (pending name mem).imp_left fun old => ⟨i, here ▸ used, old⟩
      · rw [set_other here] at mem
        exact .inl ⟨l, used, mem⟩
    rcases before with queued | ⟨j, other, usedJ, named, state⟩
    · obtain ⟨j, usedJ, named, state⟩ := table.queued name queued
      refine ⟨j, (uses j).trans usedJ, (ids j).trans named, ?_⟩
      by_cases here : j = i
      · subst here
        rw [set_self]
        exact opening usedJ (named ▸ queued) state
      · rw [set_other here]
        exact state
    · exact ⟨j, by rw [set_other other]; exact ⟨usedJ, named, .inl state⟩⟩

lemma Table.add (free : (h.sockets i).inUse = false) (inUse : s.inUse = true)
    (id : s.id = h.nextId) (pending : s.pending = []) :
    Table { h.set i s with nextId := h.bumpId } := by
  have room := used_lt free
  have next := table.next room
  have count : used { h.set i s with nextId := h.bumpId } = used h + 1 := used_add free inUse
  have bump : h.bumpId = used h + 2 := by
    unfold Host.bumpId
    rw [next, if_neg]
    unfold maxTcpSockets at room
    omega
  have fresh : ∀ j, (h.sockets j).inUse = true → (h.sockets j).id ≠ h.nextId := by
    intro j used same
    have bound := table.small j used
    omega
  constructor
  · intro j used
    rw [count]
    by_cases here : j = i
    · subst here
      rw [set_self, id, next]
    · rw [set_other here] at used ⊢
      exact (table.small j used).trans (Nat.le_succ _)
  · intro _
    rw [count]
    exact bump
  · intro j k usedJ usedK same
    by_cases hereJ : j = i
    · by_cases hereK : k = i
      · rw [hereJ, hereK]
      · rw [hereJ, set_self, set_other hereK, id] at same
        rw [set_other hereK] at usedK
        exact absurd same.symm (fresh k usedK)
    · rw [set_other hereJ] at usedJ same
      by_cases hereK : k = i
      · rw [hereK, set_self, id] at same
        exact absurd same (fresh j usedJ)
      · rw [set_other hereK] at usedK same
        exact table.distinct j k usedJ usedK same
  · intro id ⟨l, used, mem⟩
    by_cases here : l = i
    · rw [here, set_self, pending] at mem
      cases mem
    rw [set_other here] at used mem
    obtain ⟨j, usedJ, named, state⟩ := table.queued id ⟨l, used, mem⟩
    have other : j ≠ i := fun same => by
      rw [same, free] at usedJ
      cases usedJ
    refine ⟨j, ?_⟩
    rw [set_other other]
    exact ⟨usedJ, named, state⟩

lemma Table.iss (iss : Seq) : Table { h with iss := iss } :=
  ⟨table.small, table.next, table.distinct, table.queued⟩

lemma Table.full (full : ∀ i, (h.sockets i).inUse = true) (nextId : Nat) :
    Table { h with nextId := nextId } := by
  have count : ¬ used h < maxTcpSockets := by
    unfold used
    rw [filter_true_of_mem fun i _ => full i, card_univ, Fintype.card_fin]
    exact lt_irrefl _
  exact ⟨table.small, fun less => absurd less count, table.distinct, table.queued⟩

end Table

/-! ## What the calls do -/

section Calls

variable {h : Host} {i : Slot} {env : Env} {sock : Nat}

lemma findSlot_some {p : TcpSocket → Bool} (found : h.findSlot p = some i) :
    p (h.sockets i) = true :=
  find?_some (p := fun i => p (h.sockets i)) found

lemma findSlot_none {p : TcpSocket → Bool} (missing : h.findSlot p = none) (i : Slot) :
    p (h.sockets i) = false := by
  have all := find?_eq_none.mp missing i (mem_finRange i)
  simpa using all

lemma findSocket_some (found : h.findSocket sock = some i) :
    (h.sockets i).inUse = true ∧ (h.sockets i).id = sock := by
  have here := findSlot_some found
  simpa using here

lemma findListener_some {port : Port} (found : h.findListener port = some i) :
    (h.sockets i).inUse = true ∧ (h.sockets i).state = .listen := by
  have here := findSlot_some found
  simp only [Bool.and_eq_true, beq_iff_eq] at here
  exact here.1

def NoEntry (h h' : Host) : Prop :=
  ∀ j, (h'.sockets j).state = .established → (h.sockets j).state = .established

lemma noEntry_set {s : TcpSocket}
    (entered : s.state = .established → (h.sockets i).state = .established) :
    NoEntry h (h.set i s) := by
  intro j state
  by_cases here : j = i
  · subst here
    rw [set_self] at state
    exact entered state
  · rwa [set_other here] at state

structure Keeps (h h' : Host) : Prop where
  table : Table h'
  noEntry : NoEntry h h'

lemma Keeps.iss {h' : Host} (keeps : Keeps h h') (iss : Seq) : Keeps h { h' with iss := iss } :=
  ⟨keeps.table.iss iss, keeps.noEntry⟩

lemma Keeps.after {h' h'' : Host} (first : NoEntry h h') (keeps : Keeps h' h'') : Keeps h h'' :=
  ⟨keeps.table, fun j state => first j (keeps.noEntry j state)⟩

lemma withSocket_rule {f : Slot → TcpSocket → Out} {P : Out → Prop}
    (missing : P { host := h, ret := -1 })
    (found : ∀ i, h.findSocket sock = some i → P (f i (h.sockets i))) :
    P (h.withSocket sock f) := by
  unfold Host.withSocket
  cases here : h.findSocket sock with
  | none => exact missing
  | some i => exact found i here

variable (table : Table h)
include table

lemma Table.keeps : Keeps h h := ⟨table, fun _ state => state⟩

lemma Table.findSocket_eq (inUse : (h.sockets i).inUse = true) :
    h.findSocket (h.sockets i).id = some i := by
  cases found : h.findSocket (h.sockets i).id with
  | none =>
    have missing := findSlot_none found i
    simp [inUse] at missing
  | some j =>
    have ⟨used, same⟩ := findSocket_some found
    rw [table.distinct j i used inUse same]

lemma Table.withSocket {f : Slot → TcpSocket → Out}
    (found : ∀ i, h.findSocket sock = some i → Keeps h (f i (h.sockets i)).host) :
    Keeps h (h.withSocket sock f).host :=
  withSocket_rule (P := fun out => Keeps h out.host) table.keeps found

lemma Table.sameCore {s : TcpSocket} (core : SameCore (h.sockets i) s) : Keeps h (h.set i s) := by
  refine ⟨table.set core.id core.inUse (fun _ mem => .inl (core.pending ▸ mem)) ?_,
    noEntry_set fun state => core.state ▸ state⟩
  intro _ _ opening
  rw [core.state]
  exact opening

lemma Table.closes {s : TcpSocket} (closed : Closes (h.sockets i) s)
    (free : ¬ Queued h (h.sockets i).id) : Keeps h (h.set i s) :=
  ⟨table.set closed.id closed.inUse (fun _ mem => .inl (closed.pending ▸ mem))
    fun _ queued => absurd queued free, noEntry_set closed.entered⟩

lemma Table.create : Keeps h h.tcpSocketCreate.host := by
  unfold Host.tcpSocketCreate
  cases found : h.findSlot fun s => !s.inUse with
  | none => exact table.keeps
  | some i =>
    have free := findSlot_some found
    exact ⟨table.add (by simpa using free) rfl rfl rfl,
      noEntry_set fun state => by cases state⟩

lemma Table.connect {dstIp : Ip} {dstPort : Port} :
    Keeps h (h.tcpConnect env sock dstIp dstPort).host := by
  unfold Host.tcpConnect
  apply table.withSocket
  intro i found
  split
  case isTrue => exact table.keeps
  case isFalse closed =>
    split
    · exact table.keeps
    rw [not_not] at closed
    apply Keeps.iss
    have core := fun s : TcpSocket =>
      sendPacket_core s (h.sends env s) tcpSyn []
    refine ⟨table.set (core _).id (core _).inUse (fun _ mem => ?_) ?_,
      noEntry_set fun state => ?_⟩
    · rw [(core _).pending] at mem
      exact .inl mem
    · intro _ _ opening
      simp [closed] at opening
    · rw [(core _).state] at state
      cases state

lemma Table.accept : Keeps h (h.tcpAccept sock).host := by
  unfold Host.tcpAccept
  apply table.withSocket
  intro i found
  split_ifs
  · exact table.keeps
  cases queue : (h.sockets i).pending with
  | nil => exact table.keeps
  | cons accepted rest =>
    refine ⟨table.set rfl rfl (fun _ mem => ?_) fun _ _ opening => opening, noEntry_set id⟩
    rw [queue]
    exact .inl (mem_cons_of_mem _ mem)

lemma Table.openPassive (env : Env) (srcIp : Ip) (g : Segment) {l : Slot}
    (inUse : (h.sockets l).inUse = true) (listening : (h.sockets l).state = .listen) :
    Keeps h (h.openPassive env srcIp g l).host := by
  unfold Host.openPassive
  extract_lets listener h' s pending
  split_ifs with backlog
  · exact table.keeps
  cases found : h'.findSlot fun s => !s.inUse with
  | none =>
    refine ⟨table.full (fun i => ?_) _, table.keeps.noEntry⟩
    have taken := findSlot_none found i
    simpa using taken
  | some i =>
    have free : (h.sockets i).inUse = false := by
      have free := findSlot_some found
      simpa using free
    have other : i ≠ l := fun same => by
      rw [same, inUse] at free
      cases free
    let h'' := (h'.set i s).set l { listener with pending := pending }
    have added : Table (h'.set i s) := table.add free rfl rfl rfl
    have apart : (h'.set i s).sockets l = listener := set_other other.symm
    have queued : Table h'' := by
      refine added.set (by rw [apart]) (by rw [apart]) (fun name mem => ?_) fun _ _ opens => ?_
      · simp only [pending] at mem
        rw [apart]
        split_ifs at mem
        · refine (mem_append.mp mem).imp_right fun new => ⟨i, other, ?_⟩
          rw [set_self]
          exact ⟨rfl, (List.mem_singleton.mp new).symm, rfl⟩
        · exact .inl mem
      · rw [apart, listening] at opens
        simp at opens
    have here : h''.sockets i = s := by
      rw [show h'' = (h'.set i s).set l _ from rfl, set_other other, set_self]
    have first : NoEntry h (h'.set i s) := noEntry_set fun state => by cases state
    have second : NoEntry (h'.set i s) h'' := noEntry_set fun state => apart ▸ state
    refine .iss (.after first (.after second (queued.sameCore ?_))) _
    rw [here]
    exact sendPacket_core ..

/-- A segment makes a socket ESTABLISHED only where it completes its handshake. -/
lemma Table.packet {srcIp dstIp : Ip} {data : List UInt8}
    (allowed : Allowed h (.packet srcIp dstIp data)) :
    Table (h.tcpHandlePacket env srcIp dstIp data).host ∧
      ∀ j, ((h.tcpHandlePacket env srcIp dstIp data).host.sockets j).state = .established →
        (h.sockets j).state ≠ .established →
        ∃ g, parseSegment data = some g ∧ h.dispatch srcIp dstIp g = some j ∧
          Completes (h.sockets j) g ∧
          ((h.tcpHandlePacket env srcIp dstIp data).host.sockets j).isn = (h.sockets j).isn := by
  unfold Host.tcpHandlePacket
  cases parsed : parseSegment data with
  | none => exact ⟨table, fun j after before => absurd after before⟩
  | some g =>
    simp only
    cases found : h.dispatch srcIp dstIp g with
    | some i =>
      have handled := receive_handled (h.sockets i) (h.sends env (h.sockets i)) g
      constructor
      · apply table.set handled.id handled.inUse
        · exact fun _ mem => .inl (handled.pending ▸ mem)
        · intro _ queued opening
          have ⟨rst, fin⟩ := (allowed g i parsed found).2 queued
          exact handled.opening opening rst fin
      · intro j after before
        by_cases here : j = i
        · subst here
          rw [set_self] at after ⊢
          exact ⟨g, rfl, found, handled.entered after before, handled.isn⟩
        · rw [set_other here] at after
          exact absurd after before
    | none =>
      cases listener : h.findListener g.dstPort with
      | none => exact ⟨table, fun j after before => absurd after before⟩
      | some l =>
        obtain ⟨inUse, listening⟩ := findListener_some listener
        split_ifs
        · have keeps := table.openPassive env srcIp g inUse listening
          exact ⟨keeps.table, fun j after before => absurd (keeps.noEntry j after) before⟩
        · exact ⟨table, fun j after before => absurd after before⟩

lemma Table.call {c : Call} (allowed : Allowed h c)
    (call : ∀ srcIp dstIp data, c ≠ .packet srcIp dstIp data) : Keeps h (h.step env c).host := by
  cases c with
  | create => exact table.create
  | bind sock port =>
    apply table.withSocket
    exact fun i _ => table.sameCore ⟨rfl, rfl, rfl, rfl, rfl⟩
  | connect sock dstIp dstPort => exact table.connect
  | send sock data =>
    apply table.withSocket
    intro i _
    have core := send_core (h.sockets i) (h.sends env (h.sockets i)) data
    generalize (h.sockets i).send (h.sends env (h.sockets i)) data = r at *
    obtain ⟨s, packet, chunk⟩ := r
    cases chunk <;> exact table.sameCore core
  | recv sock maxLen =>
    apply table.withSocket
    exact fun i _ => table.sameCore ⟨rfl, rfl, rfl, rfl, rfl⟩
  | close sock =>
    apply table.withSocket
    intro i found
    exact table.closes close_closes ((findSocket_some found).2 ▸ allowed)
  | shutdown sock =>
    apply table.withSocket
    intro i found
    exact table.closes shutdown_closes ((findSocket_some found).2 ▸ allowed)
  | listen sock backlog =>
    apply table.withSocket
    intro i found
    refine ⟨table.set rfl rfl (fun _ => nofun) fun _ queued => ?_, noEntry_set fun state => ?_⟩
    · rw [(findSocket_some found).2] at queued
      exact absurd queued allowed
    · cases state
  | accept sock => exact table.accept
  | packet srcIp dstIp data => exact absurd rfl (call srcIp dstIp data)

lemma Table.step {c : Call} (allowed : Allowed h c) : Table (h.step env c).host := by
  by_cases call : ∀ srcIp dstIp data, c ≠ .packet srcIp dstIp data
  · exact (table.call allowed call).table
  · push Not at call
    obtain ⟨srcIp, dstIp, data, rfl⟩ := call
    exact (table.packet allowed).1

/-- The only way into ESTABLISHED: a segment that completes the handshake of the socket. -/
lemma established_of_step {c : Call} {j : Slot} (allowed : Allowed h c)
    (after : ((h.step env c).host.sockets j).state = .established)
    (before : (h.sockets j).state ≠ .established) :
    ∃ srcIp dstIp data g, c = .packet srcIp dstIp data ∧ parseSegment data = some g ∧
      h.dispatch srcIp dstIp g = some j ∧ Completes (h.sockets j) g ∧
      ((h.step env c).host.sockets j).isn = (h.sockets j).isn := by
  by_cases call : ∀ srcIp dstIp data, c ≠ .packet srcIp dstIp data
  · exact absurd ((table.call allowed call).noEntry j after) before
  · push Not at call
    obtain ⟨srcIp, dstIp, data, rfl⟩ := call
    obtain ⟨g, completed⟩ := (table.packet allowed).2 j after before
    exact ⟨srcIp, dstIp, data, g, rfl, completed⟩

omit table

lemma table_boot (netIfs : List NetIf) : Table (Host.boot netIfs) := by
  have none : used (Host.boot netIfs) = 0 := by
    unfold used
    rw [card_eq_zero, filter_eq_empty_iff]
    exact fun i _ => Bool.false_ne_true
  constructor
  · exact fun _ used => by cases used
  · exact fun _ => by rw [none]; rfl
  · exact fun _ _ used => by cases used
  · intro id ⟨l, used, _⟩
    cases used

end Calls

/-! ## Runs that keep to the condition -/

lemma Traced.entersAcked {t : Traced} {env : Env} {c : Call} (table : Table t.host)
    (allowed : Allowed t.host c) : t.EntersAcked env c := by
  intro i after before
  obtain ⟨srcIp, dstIp, data, g, rfl, parsed, found, completes, isn⟩ :=
    established_of_step table allowed after before
  have acked := (allowed g i parsed found).1 completes
  change ((t.host.step env (.packet srcIp dstIp data)).host.sockets i).isn + 1 ∈
    observe t.host t.acks (.packet srcIp dstIp data) i
  rw [isn, ← acked]
  simp only [observe, parsed, found, update_self]
  exact mem_cons_self

lemma negative_ret : ¬ (0 : Int) ≤ -1 := by decide

lemma Traced.acceptsEstablished {t : Traced} {env : Env} {c : Call} (table : Table t.host)
    (allowed : Allowed t.host c) : t.AcceptsEstablished env c := by
  rintro sock rfl
  have after : Table (t.host.tcpAccept sock).host := table.accept.table
  revert after
  unfold Host.tcpAccept
  apply withSocket_rule
    (P := fun out => Table out.host → 0 ≤ out.ret →
      ∃ i, out.host.findSocket out.ret.toNat = some i ∧ (out.host.sockets i).state = .established)
  · exact fun _ negative => absurd negative negative_ret
  intro l found
  split
  case isTrue => exact fun _ negative => absurd negative negative_ret
  case isFalse listening =>
    rw [not_not] at listening
    cases queue : (t.host.sockets l).pending with
    | nil => exact fun _ negative => absurd negative negative_ret
    | cons id rest =>
      intro after _
      have queued : Queued t.host id :=
        ⟨l, (findSocket_some found).1, by rw [queue]; exact mem_cons_self⟩
      obtain ⟨i, inUse, named, state⟩ := table.queued id queued
      have here := table.findSocket_eq inUse
      rw [named] at here
      have established : (t.host.sockets i).state = .established :=
        state.resolve_left (allowed l id rest i found queue here)
      have other : i ≠ l := fun same => by simp [same, listening] at established
      refine ⟨i, ?_, by rw [set_other other]; exact established⟩
      have kept : (t.host.set l { t.host.sockets l with pending := rest }).sockets i =
          t.host.sockets i := set_other other
      have again := after.findSocket_eq (by rw [kept]; exact inUse)
      rw [kept, named] at again
      exact again

lemma Traced.right_of_table {t : Traced} {steps : List (Env × Call)} (table : Table t.host)
    (allowed : AllAllowed t steps) : t.Right steps := by
  induction steps generalizing t with
  | nil => trivial
  | cons e steps ih =>
    exact ⟨t.entersAcked table allowed.1, t.acceptsEstablished table allowed.1,
      ih (table.step allowed.1) allowed.2⟩

/-- In every run that keeps to the condition, a socket becomes ESTABLISHED only after a segment
that acknowledges its initial sequence number, and `tcp_accept` returns established sockets. -/
theorem handshake_right (netIfs : List NetIf) (steps : List (Env × Call))
    (allowed : AllAllowed (start netIfs) steps) : (start netIfs).Right steps :=
  Traced.right_of_table (table_boot netIfs) allowed

/-! ## A forged answer and an early accept -/

def oneHost : Traced := start [⟨1, true, true⟩]

def sampleEnv : Env := ⟨true, 0⟩

lemma maxTcpSockets_pos : 0 < maxTcpSockets := by decide

def firstSlot : Slot := ⟨0, maxTcpSockets_pos⟩

def secondSlot : Slot := ⟨1, by decide⟩

def answer (ack : Seq) : Segment where
  srcPort := 80
  dstPort := 49153
  seq := 5
  ack := ack
  flags := tcpSyn ||| tcpAck
  payload := []

/-- `tcp_connect`, answered by a segment with the given acknowledgement number. -/
def connecting (ack : Seq) : List (Env × Call) :=
  [(sampleEnv, .create), (sampleEnv, .connect 1 2 80),
    (sampleEnv, .packet 2 1 ((answer ack).bytes 0))]

def request : Segment where
  srcPort := 1000
  dstPort := 80
  seq := 7
  ack := 0
  flags := tcpSyn
  payload := []

/-- A listener that calls `tcp_accept` when only the SYN has arrived. -/
def earlyAccept : List (Env × Call) :=
  [(sampleEnv, .create), (sampleEnv, .bind 1 80), (sampleEnv, .listen 1 4),
    (sampleEnv, .packet 2 1 (request.bytes 0)), (sampleEnv, .accept 1)]

/-- An answer that acknowledges 0 makes the socket ESTABLISHED, and `tcp_accept` returns a
half-open connection. -/
theorem handshake_forged : ¬ oneHost.Right (connecting 0) ∧ ¬ oneHost.Right earlyAccept := by
  constructor
  · intro right
    have acked := right.2.2.2.2.1 firstSlot (by decide +kernel) (by decide +kernel)
    exact absurd acked (by decide +kernel)
  · intro right
    obtain ⟨i, found, state⟩ := right.2.2.2.2.2.2.2.2.2.1 1 rfl (by decide +kernel)
    have slot : i = secondSlot := some.inj (found.symm.trans (by decide +kernel))
    rw [slot] at state
    exact absurd state (by decide +kernel)

instance (s : TcpSocket) (g : Segment) : Decidable (Completes s g) := by
  unfold Completes
  infer_instance

instance (h : Host) (id : Nat) : Decidable (Queued h id) := by
  unfold Queued
  infer_instance

lemma allowed_packet {h : Host} {srcIp dstIp : Ip} {data : List UInt8} {g : Segment}
    (read : parseSegment data = some g) (meets : ∀ i ∈ h.dispatch srcIp dstIp g,
      (Completes (h.sockets i) g → g.ack = (h.sockets i).isn + 1) ∧
        (Queued h (h.sockets i).id → g.flags.has tcpRst = false ∧ g.flags.has tcpFin = false)) :
    Allowed h (.packet srcIp dstIp data) := by
  intro g' i parsed found
  obtain rfl := some.inj (read.symm.trans parsed)
  exact meets i found

def acknowledgement : Segment := { request with seq := 8, ack := 0x10001, flags := tcpAck }

/-- The listener calls `tcp_accept` when the handshake is over. -/
def lateAccept : List (Env × Call) :=
  earlyAccept.take 4 ++ [(sampleEnv, .packet 2 1 (acknowledgement.bytes 0)), (sampleEnv, .accept 1)]

/-- A connection that the host opens, and one that it accepts. -/
theorem handshake_right_connecting : oneHost.Right (connecting 0x10001) ∧ oneHost.Right lateAccept ∧
    (((lateAccept.take 5).foldl (fun t e => t.step e.1 e.2) oneHost).host.tcpAccept 1).ret = 2 := by
  refine ⟨handshake_right _ _ ⟨trivial, trivial, ?_, trivial⟩, handshake_right _ _
    ⟨trivial, trivial, ?_, ?_, ?_, ?_, trivial⟩, by decide +kernel⟩
  · exact allowed_packet (g := answer 0x10001) (by decide +kernel) (by decide +kernel)
  · unfold Allowed
    decide +kernel
  · exact allowed_packet (g := request) (by decide +kernel) (by decide +kernel)
  · exact allowed_packet (g := acknowledgement) (by decide +kernel) (by decide +kernel)
  · intro l id rest i found queue here
    obtain rfl : firstSlot = l := some.inj (Eq.trans (by decide +kernel) found)
    have pending := Eq.trans (a := [2]) (by decide +kernel) queue
    obtain rfl : 2 = id := (List.cons.inj pending).1
    obtain rfl : secondSlot = i := some.inj (Eq.trans (by decide +kernel) here)
    decide +kernel

end AuroraOS.Tcp
