import AuroraOS.Net.Dns

/-!
# The DNS cache

`dns_query` keeps the addresses it was given under the hash of the host name.
-/

namespace AuroraOS.Net.Dns

open Lib List

def dnsHash (hostname : List UInt8) : BitVec 32 :=
  hostname.foldl (fun hash c => ((hash <<< 5) + hash) + BitVec.ofNat 32 c.toNat) 5381

def dnsCacheSize : Nat := 16

/-- The valid entries of `dns_cache`, which is filled from its start. -/
abbrev DnsCache := List (BitVec 32 × List UInt8)

/-- A call of `dns_query`: whether `udp_send` succeeds, and what `udp_recvfrom` delivers. -/
structure Query where
  hostname : List UInt8
  sends : Bool
  received : List (List UInt8)

/-- The loop that waits for a response. -/
def await : List (List UInt8) → Checked (Option (List UInt8))
  | [] => return none
  | rx :: received => do
    match ← parseResponse rx with
    | .ignored => await received
    | .failed => return none
    | .address ip => return some ip

/-- `dns_query`: the address, `none` for -1, and the cache. -/
def dnsQuery (cache : DnsCache) (q : Query) : Checked (Option (List UInt8) × DnsCache) :=
  let hash := dnsHash q.hostname
  match cache.find? (·.1 = hash) with
  | some (_, ip) => return (some ip, cache)
  | none =>
    if q.sends then do
      match ← await (q.received.take 30) with
      | some ip =>
        return (some ip, if cache.length < dnsCacheSize then cache ++ [(hash, ip)] else cache)
      | none => return (none, cache)
    else return (none, cache)

/-- The calls so far, and the cache they leave. -/
inductive Run : List Query → DnsCache → Prop
  | start : Run [] []
  | query {qs cache q result cache'} : Run qs cache → dnsQuery cache q = .ok (result, cache') →
    Run (qs ++ [q]) cache'

/-- A response that came while the host name was asked for gave the address. -/
def Given (qs : List Query) (hostname ip : List UInt8) : Prop :=
  ∃ q ∈ qs, q.hostname = hostname ∧ ∃ rx ∈ q.received, parseResponse rx = .ok (.address ip)

variable {qs : List Query} {cache cache' : DnsCache} {q : Query} {ip : List UInt8}

lemma await_address {received : List (List UInt8)} (got : await received = .ok (some ip)) :
    ∃ rx ∈ received, parseResponse rx = .ok (.address ip) := by
  induction received with
  | nil => cases got
  | cons rx received ih =>
    obtain ⟨reply, is, -⟩ := parseResponse_ensures rx
    rw [await, is] at got
    cases reply with
    | ignored =>
      obtain ⟨rx', mem, gives⟩ := ih got
      exact ⟨rx', mem_cons_of_mem _ mem, gives⟩
    | failed => cases got
    | address ip' =>
      cases got
      exact ⟨rx, mem_cons_self, is⟩

/-- What a call can do: the cache has an entry for the hash, a response gives the address, or there
is none. -/
lemma dnsQuery_cases {result : Option (List UInt8)}
    (ran : dnsQuery cache q = .ok (result, cache')) :
    (∃ ip, result = some ip ∧ (dnsHash q.hostname, ip) ∈ cache ∧ cache' = cache) ∨
    (∃ ip, result = some ip ∧ Given [q] q.hostname ip ∧
      ∀ e ∈ cache', e ∈ cache ∨ e = (dnsHash q.hostname, ip)) ∨
    result = none ∧ cache' = cache := by
  rw [dnsQuery] at ran
  split at ran
  case h_1 hash ip hit =>
    cases ran
    have same : hash = dnsHash q.hostname := by simpa using find?_some hit
    exact .inl ⟨ip, rfl, same ▸ mem_of_find?_eq_some hit, rfl⟩
  case h_2 miss =>
    split at ran
    case isFalse => cases ran; exact .inr (.inr ⟨rfl, rfl⟩)
    case isTrue =>
      cases got : await (q.received.take 30) with
      | error fault => rw [got] at ran; cases ran
      | ok found =>
        rw [got] at ran
        cases found with
        | none => cases ran; exact .inr (.inr ⟨rfl, rfl⟩)
        | some ip =>
          cases ran
          obtain ⟨rx, mem, gives⟩ := await_address got
          have given : Given [q] q.hostname ip :=
            ⟨q, mem_singleton_self q, rfl, rx, mem_of_mem_take mem, gives⟩
          refine .inr (.inl ⟨ip, rfl, given, fun e mem => ?_⟩)
          split at mem
          · simpa using mem
          · exact .inl mem

lemma Given.mono {qs' : List Query} {hostname : List UInt8} (given : Given qs hostname ip)
    (sub : qs ⊆ qs') : Given qs' hostname ip := by
  obtain ⟨q, mem, is, gives⟩ := given
  exact ⟨q, sub mem, is, gives⟩

lemma Run.given (run : Run qs cache) :
    ∀ e ∈ cache, ∃ hostname, dnsHash hostname = e.1 ∧ Given qs hostname e.2 := by
  induction run with
  | start => nofun
  | @query qs cache q result cache' _ ran ih =>
    have old : ∀ e ∈ cache, ∃ hostname, dnsHash hostname = e.1 ∧
        Given (qs ++ [q]) hostname e.2 := by
      intro e mem
      obtain ⟨hostname, hash, given⟩ := ih e mem
      exact ⟨hostname, hash, given.mono (subset_append_left _ _)⟩
    rcases dnsQuery_cases ran with ⟨-, -, -, rfl⟩ | ⟨ip, -, given, grown⟩ | ⟨-, rfl⟩
    · exact old
    · intro e mem
      rcases grown e mem with mem | rfl
      · exact old e mem
      · exact ⟨_, rfl, given.mono (subset_append_right _ _)⟩
    · exact old

/-- As long as no two host names that are asked for have one hash, every address that `dns_query`
returns was given for the host name. -/
theorem given_of_distinct (run : Run qs cache) (ran : dnsQuery cache q = .ok (some ip, cache'))
    (distinct : ∀ p ∈ qs, dnsHash p.hostname = dnsHash q.hostname → p.hostname = q.hostname) :
    Given (qs ++ [q]) q.hostname ip := by
  rcases dnsQuery_cases ran with ⟨_, ⟨⟩, mem, -⟩ | ⟨_, ⟨⟩, given, -⟩ | ⟨⟨⟩, -⟩
  · obtain ⟨_, hash, p, asked, rfl, gives⟩ := run.given _ mem
    exact ⟨p, mem_append_left _ asked, distinct p asked hash, gives⟩
  · exact given.mono (subset_append_right _ _)

/-- The address of "Ez" is 192.0.2.1. -/
def response : List UInt8 :=
  [0, 1, 0x81, 0x80, 0, 1, 0, 1, 0, 0, 0, 0, 2, 0x45, 0x7A, 0, 0, 1, 0, 1,
    0xC0, 12, 0, 1, 0, 1, 0, 0, 0, 0, 0, 4, 192, 0, 2, 1]

lemma parseResponse_response : parseResponse response = .ok (.address [192, 0, 2, 1]) := by
  have question : skipQuestion response 12 = .ok 15 := by
    rw [skipQuestion, skipLabels]
    exact (skipLabels.eq_1 response _ 15).trans rfl
  rw [parseResponse]
  simp only [question]
  rfl

def asksEz : Query := ⟨[0x45, 0x7A], true, [response]⟩

lemma dnsQuery_asksEz : dnsQuery [] asksEz =
    .ok (some [192, 0, 2, 1], [(dnsHash [0x45, 0x7A], [192, 0, 2, 1])]) := by
  rw [dnsQuery]
  simp [asksEz, await, parseResponse_response, bind, Except.bind, pure, Except.pure, dnsCacheSize]

/-- "Ez" is asked for, "a" gets no answer, and "Ez" comes from the cache. -/
theorem given_of_distinct_first : ∃ cache, Run [asksEz, ⟨[0x61], true, []⟩] cache ∧
    dnsQuery cache ⟨[0x45, 0x7A], false, []⟩ = .ok (some [192, 0, 2, 1], cache) ∧
    Given ([asksEz, ⟨[0x61], true, []⟩] ++ [⟨[0x45, 0x7A], false, []⟩]) [0x45, 0x7A]
      [192, 0, 2, 1] := by
  have none : dnsQuery [(dnsHash [0x45, 0x7A], [192, 0, 2, 1])] ⟨[0x61], true, []⟩ =
      .ok (none, [(dnsHash [0x45, 0x7A], [192, 0, 2, 1])]) := rfl
  have run := (Run.start.query dnsQuery_asksEz).query none
  refine ⟨_, run, rfl, given_of_distinct run rfl fun p mem hash => ?_⟩
  rcases mem_pair.mp mem with rfl | rfl
  · rfl
  · exact absurd hash (by decide)

/-- "Ez" and "FY" have one hash. -/
theorem collision_answers : ∃ cache, Run [asksEz] cache ∧
    dnsQuery cache ⟨[0x46, 0x59], true, []⟩ = .ok (some [192, 0, 2, 1], cache) ∧
    ¬Given ([asksEz] ++ [⟨[0x46, 0x59], true, []⟩]) [0x46, 0x59] [192, 0, 2, 1] := by
  refine ⟨_, .query .start dnsQuery_asksEz, rfl, ?_⟩
  simp [Given, asksEz]

end AuroraOS.Net.Dns
