import Mathlib.Data.List.Basic

/-!
# The body of an HTTP response

Model of the loop of `http_get` of `kernel/net/http.c` that receives the response.  It looks for the
end of the headers in each chunk by itself.
-/

namespace AuroraOS.Net.Http

open List

def headersEnd : List UInt8 := [0x0D, 0x0A, 0x0D, 0x0A]

/-- `header_end`, if the chunk has an end of the headers. -/
def findEnd (tmp : List UInt8) : Option Nat :=
  ((range (tmp.length - 3)).find? fun i => (tmp.drop i).take 4 = headersEnd).map (· + 4)

/-- `response_buf[0..total)`, and `header_done`. -/
structure Received where
  body : List UInt8 := []
  headerDone : Bool := false

def Received.copy (s : Received) (bufSize : Nat) (data : List UInt8) : Received :=
  ⟨s.body ++ data.take (bufSize - s.body.length), true⟩

/-- What is done with the data of a chunk. -/
def Received.chunk (s : Received) (bufSize : Nat) (tmp : List UInt8) : Received :=
  if s.headerDone then s.copy bufSize tmp
  else match findEnd tmp with
    | some bodyStart => s.copy bufSize (tmp.drop bodyStart)
    | none => s

/-- The loop with the results of `tcp_recv`: `none` is an error, and there may be no data yet. -/
def receive (bufSize : Nat) : List (Option (List UInt8)) → Received → Received
  | [], s => s
  | none :: _, s => s
  | some tmp :: rest, s =>
    if tmp = [] then receive bufSize rest s
    else
      let s := s.chunk bufSize tmp
      if s.headerDone ∧ s.body.length ≥ bufSize then s else receive bufSize rest s

/-- `http_get` once the request is sent: the contents of the buffer, whose length is the result;
`none` is -1. -/
def httpGet (bufSize : Nat) (recvs : List (Option (List UInt8))) : Option (List UInt8) :=
  let s := receive bufSize (recvs.take 200) {}
  if s.body.length > 0 then some s.body else none

/-- The bytes behind the first end of the headers that lies in one chunk. -/
def behind : List (List UInt8) → List UInt8
  | [] => []
  | tmp :: rest =>
    match findEnd tmp with
    | some bodyStart => tmp.drop bodyStart ++ rest.flatten
    | none => behind rest

variable {bufSize : Nat}

lemma receive_done (chunks : List (List UInt8)) {body : List UInt8}
    (fits : body.length ≤ bufSize) :
    (receive bufSize (chunks.map some) ⟨body, true⟩).body =
      body ++ chunks.flatten.take (bufSize - body.length) := by
  induction chunks generalizing body with
  | nil => simp [receive]
  | cons tmp rest ih =>
    rw [map_cons, receive, flatten_cons]
    split
    case isTrue empty => rw [ih fits, empty, nil_append]
    case isFalse =>
      simp only [Received.chunk, if_true, Received.copy, true_and]
      have size : (body ++ tmp.take (bufSize - body.length)).length =
          body.length + min (bufSize - body.length) tmp.length := by
        rw [length_append, length_take]
      split
      case isTrue full => rw [take_append_of_le_length (by omega)]
      case isFalse more =>
        rw [ih (by omega), size, take_append, append_assoc]
        congr 3
        omega

lemma receive_body (chunks : List (List UInt8)) :
    (receive bufSize (chunks.map some) {}).body = (behind chunks).take bufSize := by
  induction chunks with
  | nil => simp [receive, behind]
  | cons tmp rest ih =>
    rw [map_cons, receive, behind]
    split
    case isTrue empty =>
      subst empty
      exact ih
    case isFalse =>
      cases found : findEnd tmp with
      | none => simp [Received.chunk, found, ih]
      | some bodyStart =>
        simp only [Received.chunk, found, Received.copy, Bool.false_eq_true, if_false, true_and,
          nil_append, length_nil, Nat.sub_zero]
        have size : ((tmp.drop bodyStart).take bufSize).length =
            min bufSize (tmp.drop bodyStart).length := length_take
        split
        case isTrue full => rw [take_append_of_le_length (by omega)]
        case isFalse more =>
          rw [receive_done rest (by omega), size, take_append]
          congr 2
          omega

/-- The end of the headers lies in one chunk. -/
def InOneChunk (headers : List UInt8) (chunks : List (List UInt8)) : Prop :=
  ∃ pre a b post, chunks = pre ++ (a ++ headersEnd ++ b) :: post ∧ pre.flatten ++ a = headers

/-- The headers have no end of headers before their own. -/
def First (headers : List UInt8) : Prop :=
  ∀ i < headers.length, ((headers ++ headersEnd).drop i).take 4 ≠ headersEnd

lemma window_append {c rest : List UInt8} {i : Nat} (inside : i + 4 ≤ c.length) :
    ((c ++ rest).drop i).take 4 = (c.drop i).take 4 := by
  rw [drop_append_of_le_length (by omega), take_append_of_le_length (by rw [length_drop]; omega)]

lemma findEnd_first {a : List UInt8} (first : First a) (b : List UInt8) :
    findEnd (a ++ headersEnd ++ b) = some (a.length + 4) := by
  have size : (a ++ headersEnd).length = a.length + 4 := length_append
  refine congrArg (Option.map (· + 4)) (find?_range_eq_some.mpr ⟨?_, ?_, fun i less => ?_⟩)
  · rw [window_append (by omega)]
    simp [headersEnd]
  · rw [mem_range, length_append]
    omega
  · rw [window_append (by omega)]
    simpa using first i less

lemma behind_eq {pre post : List (List UInt8)} {a b : List UInt8}
    (first : First (pre.flatten ++ a)) :
    behind (pre ++ (a ++ headersEnd ++ b) :: post) = b ++ post.flatten := by
  induction pre with
  | nil =>
    have start : (a ++ headersEnd ++ b).drop (a.length + 4) = b := by
      simp [← drop_drop, headersEnd]
    rw [flatten_nil, nil_append] at first
    rw [nil_append, behind, findEnd_first first]
    simp only [start]
  | cons c pre ih =>
    rw [flatten_cons, append_assoc] at first
    have size : (c ++ (pre.flatten ++ a)).length = c.length + (pre.flatten ++ a).length :=
      length_append
    have none : findEnd c = none := by
      refine congrArg (Option.map (· + 4)) (find?_eq_none.mpr fun i mem wrong => ?_)
      have inside := mem_range.mp mem
      refine first i (by omega) ?_
      rw [append_assoc, window_append (by omega)]
      exact of_decide_eq_true wrong
    rw [cons_append, behind, none]
    refine ih fun i less wrong => first (c.length + i) (by omega) ?_
    rwa [append_assoc, ← drop_drop, drop_left]

/-- With no error of `tcp_recv`, `http_get` gives the body of the response exactly if there is a
buffer and the end of the headers lies in one chunk, or what is behind the first one that does
agrees with the body.  A split end is also found so where the body has such bytes itself and goes
on behind them as it starts. -/
theorem httpGet_iff {headers body : List UInt8} {chunks : List (List UInt8)} (some : body ≠ [])
    (stream : chunks.flatten = headers ++ headersEnd ++ body) (first : First headers)
    (window : chunks.length ≤ 200) :
    httpGet bufSize (chunks.map Option.some) = Option.some (body.take bufSize) ↔
      0 < bufSize ∧
        (InOneChunk headers chunks ∨ (behind chunks).take bufSize = body.take bufSize) := by
  have size : 0 < (body.take bufSize).length ↔ 0 < bufSize := by
    rw [length_take, Nat.lt_min]
    exact and_iff_left (length_pos_iff.mpr some)
  have whole : InOneChunk headers chunks → behind chunks = body := by
    rintro ⟨pre, a, b, post, rfl, rfl⟩
    rw [behind_eq first]
    simpa using stream
  rw [httpGet, take_of_length_le (by rwa [length_map]), receive_body]
  constructor
  · intro same
    split at same
    case isFalse => cases same
    case isTrue received =>
      have is := Option.some.inj same
      rw [is] at received
      exact ⟨size.mp received, .inr is⟩
  · rintro ⟨space, inOne | same⟩
    · rw [whole inOne, if_pos (size.mpr space)]
    · rw [same, if_pos (size.mpr space)]

/-- Two lines of headers in three chunks, and a split end before a body that starts again. -/
theorem httpGet_iff_one_chunk :
    httpGet 8 [some [0x48, 0x0D], some ([0x0A, 0x45] ++ headersEnd ++ [0x41]),
      some [0x42, 0x43]] = some [0x41, 0x42, 0x43] ∧
    httpGet 1 [some [0x0D, 0x0A, 0x0D], some ([0x0A, 0x41] ++ headersEnd ++ [0x41])] =
      some [0x41] := by
  have lines : First [0x48, 0x0D, 0x0A, 0x45] := by
    unfold First
    decide
  constructor
  · exact (@httpGet_iff 8 [0x48, 0x0D, 0x0A, 0x45] [0x41, 0x42, 0x43]
      [[0x48, 0x0D], [0x0A, 0x45] ++ headersEnd ++ [0x41], [0x42, 0x43]] (by decide) rfl lines
      (by decide)).mpr ⟨by decide, .inl ⟨[_], [0x0A, 0x45], [0x41], [_], rfl, rfl⟩⟩
  · exact (@httpGet_iff 1 [] ([0x41] ++ headersEnd ++ [0x41])
      [[0x0D, 0x0A, 0x0D], [0x0A, 0x41] ++ headersEnd ++ [0x41]] (by decide) rfl nofun
      (by decide)).mpr ⟨by decide, .inr (by decide)⟩

/-- The end of the headers is split between two chunks. -/
theorem body_lost : [[0x0D, 0x0A, 0x0D], [0x0A, 0x41]].flatten = [] ++ headersEnd ++ [0x41] ∧
    httpGet 8 [some [0x0D, 0x0A, 0x0D], some [0x0A, 0x41]] = none := by
  decide

end AuroraOS.Net.Http
