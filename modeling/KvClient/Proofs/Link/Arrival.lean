import KvClient.Proofs.Link.Correlation

/-!
# What the reader makes of a stream

The peer sends some bytes and then no more, and the transport reads them in chunks.  The reader
hands out the responses in front of the first segment that is none, and then gives the stream up,
with the same cause whatever the chunks are.

## How it works

* **What a stream comes to for who waits for the first response**: `Reading.outcome`, in terms of
  its first segment (`comesTo_outcome`).
* **What has been handed out is the beginning of the reading of what has arrived**: `Phase`, for
  each of the phases of the reader.
* **A chunk, or the end of the stream, goes to the reader that waits for it**:
  `Arrived.phase_afterChunk`, `Arrived.phase_afterEnd`.  No chunk is refused for its size as long as
  no run of bytes without a terminator exceeds the limit.
-/

namespace KvClient

/-! ## What a stream comes to -/

namespace Reading

/-- Why a link is closed when its stream reads like this and ends. -/
def cause (reading : Reading) : Error :=
  match reading.finish with
  | .ok () => .connectionClosed
  | .error m => .malformed m

/-- What a request comes to that waits for the first response of a stream which reads like this and
ends. -/
def outcome (reading : Reading) : Settlement :=
  match reading.responses with
  | r :: _ => .ok r
  | [] => .error reading.cause

theorem cause_of_fault {reading : Reading} {m : Malformation} (h : reading.fault? = some m) :
    reading.cause = .malformed m := by
  rw [cause, finish_of_fault h]

theorem outcome_of_responses {reading : Reading} {r : Response} {rest : List Response}
    (h : reading.responses = r :: rest) : reading.outcome = .ok r := by
  rw [outcome, h]

theorem outcome_of_no_response {reading : Reading} (h : reading.responses = []) :
    reading.outcome = .error reading.cause := by
  rw [outcome, h]

/-- The first segment decides. -/
theorem outcome_of_segment {segment : Bytes} (rest : Bytes) (h : terminator ∉ segment) :
    (of (segment ++ terminator :: rest)).outcome =
      match Response.ofSegment segment with
      | .ok r => .ok r
      | .error m => .error (.malformed m) := by
  rw [of_segment rest h]
  cases Response.ofSegment segment with
  | ok r => rfl
  | error m => rfl

/-- Without a segment the tail decides. -/
theorem outcome_of_tail {stream : Bytes} (h : terminator ∉ stream) :
    (of stream).outcome =
      .error (if stream = [] then .connectionClosed else .malformed (.cut stream.length)) := by
  rw [of_of_not_mem h, outcome, cause, finish]
  by_cases hs : stream = [] <;> simp [hs]

end Reading

/-- A settlement is what the bytes of a peer come to that then sends no more: the response in the
first segment, or that this segment is none, or that the peer has stopped inside a segment or before
the first byte. -/
structure ComesTo (stream : Bytes) (s : Settlement) : Prop where
  response : ∀ r, s = .ok r ↔ ∃ segment rest, stream = segment ++ terminator :: rest ∧
    terminator ∉ segment ∧ Response.ofSegment segment = .ok r
  malformed : (∃ m, s = .error (.malformed m)) ↔
    (∃ segment rest m, stream = segment ++ terminator :: rest ∧ terminator ∉ segment ∧
      Response.ofSegment segment = .error m) ∨ (stream ≠ [] ∧ terminator ∉ stream)
  closed : s = .error .connectionClosed ↔ stream = []

/-- A stream has one first segment. -/
theorem Wire.segment_unique {a b rest rest' : Bytes} (ha : terminator ∉ a) (hb : terminator ∉ b)
    (h : a ++ terminator :: rest = b ++ terminator :: rest') : a = b := by
  have hcut := (Wire.cut?_append rest ha).symm.trans
    ((congrArg _ h).trans (Wire.cut?_append rest' hb))
  exact congrArg Prod.fst (Option.some.inj hcut)

/-- **The outcome of a reading is what its stream comes to.** -/
theorem comesTo_outcome (stream : Bytes) : ComesTo stream (Reading.of stream).outcome := by
  by_cases hmem : terminator ∈ stream
  · obtain ⟨⟨segment, rest⟩, hcut⟩ := Option.ne_none_iff_exists'.mp
      fun hnone => Wire.cut?_eq_none.mp hnone hmem
    obtain ⟨rfl, hnot⟩ := Wire.cut?_eq_some hcut
    have hone : ∀ {a rest' : Bytes}, segment ++ terminator :: rest = a ++ terminator :: rest' →
        terminator ∉ a → segment = a := fun h ha => Wire.segment_unique hnot ha h
    rw [Reading.outcome_of_segment rest hnot]
    cases hs : Response.ofSegment segment with
    | ok r =>
      constructor
      · intro r'
        constructor
        · intro hr
          obtain rfl : r = r' := by simpa using hr
          exact ⟨segment, rest, rfl, hnot, hs⟩
        · rintro ⟨a, rest', heq, ha, hr⟩
          obtain rfl := hone heq ha
          simpa [hs] using hr
      · constructor
        · rintro ⟨m, hm⟩
          simp at hm
        · rintro (⟨a, rest', m, heq, ha, hm⟩ | ⟨-, hnone⟩)
          · obtain rfl := hone heq ha
            simp [hs] at hm
          · exact absurd hmem hnone
      · simp
    | error m =>
      constructor
      · intro r'
        constructor
        · intro hr
          simp at hr
        · rintro ⟨a, rest', heq, ha, hr⟩
          obtain rfl := hone heq ha
          simp [hs] at hr
      · constructor
        · intro _
          exact .inl ⟨segment, rest, m, rfl, hnot, hs⟩
        · intro _
          exact ⟨m, rfl⟩
      · simp
  · have hnone : ∀ {a rest' : Bytes}, stream ≠ a ++ terminator :: rest' := by
      rintro a rest' rfl
      simp at hmem
    rw [Reading.outcome_of_tail hmem]
    constructor
    · intro r
      constructor
      · intro hr
        simp at hr
      · rintro ⟨a, rest', heq, -⟩
        exact absurd heq hnone
    · by_cases hs : stream = []
      · simp [hs]
      · simp [hs, hmem]
    · by_cases hs : stream = [] <;> simp [hs]

namespace Link

variable {e : Event} {chunks : List Bytes} {limit : Nat} {reads : List Event}
  {handed : List Response} {a : Accumulator} {stream : Bytes}

/-! ## What has arrived -/

/-- Whether an event is what the transport reads. -/
def Event.isRead : Event → Bool
  | .receive _ | .endOfStream | .readFault => true
  | _ => false

/-- What a transport reads if the peer's bytes arrive in these chunks, and then no more. -/
def readsOf (chunks : List Bytes) : List Event := chunks.map .receive ++ [.endOfStream]

/-! ## What the reader has handed out -/

/-- An accumulator has taken in the chunks that have been read. -/
structure Arrived (chunks : List Bytes) (limit : Nat) (reads : List Event) (a : Accumulator)
    (stream : Bytes) : Prop where
  order : ∃ earlier later, chunks = earlier ++ later ∧ reads = earlier.map .receive ∧
    stream = earlier.flatten
  follows : a.Follows stream
  limit : a.limit = limit

/-- What the reader has handed out is the beginning of the reading of what has arrived, and behind
that stands what it is about to hand out.  A reader that gives up has handed out all. -/
inductive Phase (chunks : List Bytes) (limit : Nat) (reads : List Event)
    (handed : List Response) : ReaderPhase → Prop
  | listening (a : Accumulator) (stream : Bytes) (arrived : Arrived chunks limit reads a stream)
      (all : (Reading.of stream).responses = handed) : Phase chunks limit reads handed (.listening a)
  | delivering (a : Accumulator) (r : Response) (rest : List Response) (stream : Bytes)
      (arrived : Arrived chunks limit reads a stream)
      (ahead : (Reading.of stream).responses = handed ++ r :: rest) :
      Phase chunks limit reads handed (.delivering a r rest)
  | stopping (cause : Error) (why : cause = (Reading.of chunks.flatten).cause)
      (all : (Reading.of chunks.flatten).responses = handed) :
      Phase chunks limit reads handed (.stopping cause)
  | ended (all : (Reading.of chunks.flatten).responses = handed) :
      Phase chunks limit reads handed .ended

theorem Arrived.isPrefix (h : Arrived chunks limit reads a stream) : stream <+: chunks.flatten := by
  obtain ⟨earlier, later, rfl, -, rfl⟩ := h.order
  rw [List.flatten_append]
  exact List.prefix_append _ _

/-- What has arrived behind a fault does not count. -/
theorem Arrived.of_fault (h : Arrived chunks limit reads a stream) {m : Malformation}
    (hm : (Reading.of stream).fault? = some m) :
    (Reading.of chunks.flatten).responses = (Reading.of stream).responses ∧
      (Reading.of chunks.flatten).cause = .malformed m := by
  obtain ⟨rest, hrest⟩ := h.isPrefix
  rw [← hrest]
  obtain ⟨hresponses, hfault⟩ := Reading.of_append_of_fault rest hm
  exact ⟨hresponses, Reading.cause_of_fault hfault⟩

/-- The responses of what has arrived are the first ones of the whole stream. -/
theorem Arrived.responses_isPrefix (h : Arrived chunks limit reads a stream) :
    (Reading.of stream).responses <+: (Reading.of chunks.flatten).responses := by
  obtain ⟨rest, hrest⟩ := h.isPrefix
  cases hm : (Reading.of stream).fault? with
  | some m => exact (h.of_fault hm).1 ▸ List.prefix_refl _
  | none =>
    rw [← hrest, Reading.of_append rest hm]
    exact List.prefix_append _ _

/-- The reader goes on to hand out what it has. -/
theorem Arrived.phase_handOut (h : Arrived chunks limit reads a stream) {responses : List Response}
    (hresponses : (Reading.of stream).responses = handed ++ responses) :
    Phase chunks limit reads handed (.handOut a responses) := by
  cases responses with
  | cons r rest => exact .delivering a r rest stream h hresponses
  | nil =>
    rw [List.append_nil] at hresponses
    rw [ReaderPhase.handOut]
    cases hm : a.failure? with
    | none => exact .listening a stream h hresponses
    | some m =>
      obtain ⟨hall, hcause⟩ := h.of_fault (h.follows.failure.symm.trans hm)
      exact .stopping _ hcause.symm (hall.trans hresponses)

/-- Behind the chunks that have been read comes the next chunk, or the end. -/
theorem Arrived.later (h : Arrived chunks limit reads a stream)
    (hnext : reads ++ [e] <+: readsOf chunks) :
    ∃ earlier later : List Bytes, chunks = earlier ++ later ∧ reads = earlier.map .receive ∧
      stream = earlier.flatten ∧ [e] <+: later.map .receive ++ [.endOfStream] := by
  obtain ⟨earlier, later, rfl, rfl, rfl⟩ := h.order
  refine ⟨earlier, later, rfl, rfl, rfl, ?_⟩
  rwa [readsOf, List.map_append, List.append_assoc, List.prefix_append_right_inj] at hnext

/-- The next chunk is taken in. -/
theorem Arrived.feed {chunk : Bytes} (h : Arrived chunks limit reads a stream)
    (hnext : reads ++ [.receive chunk] <+: readsOf chunks) :
    Arrived chunks limit (reads ++ [.receive chunk]) (a.feed chunk).2 (stream ++ chunk) where
  order := by
    obtain ⟨earlier, later, rfl, rfl, rfl, hfirst⟩ := h.later hnext
    cases later with
    | nil => simp at hfirst
    | cons chunk' later =>
      obtain rfl : chunk = chunk' := by simpa using hfirst
      exact ⟨earlier ++ [chunk], later, by simp, by simp, by simp⟩
  follows := h.follows.feed chunk
  limit := (Accumulator.limit_feed chunk).trans h.limit

/-- At the end of the stream all has arrived. -/
theorem Arrived.eq_flatten (h : Arrived chunks limit reads a stream)
    (hnext : reads ++ [.endOfStream] <+: readsOf chunks) : stream = chunks.flatten := by
  obtain ⟨earlier, later, rfl, rfl, rfl, hfirst⟩ := h.later hnext
  cases later with
  | nil => simp
  | cons chunk later => simp at hfirst

/-- As long as no run of bytes without a terminator exceeds the limit, no chunk is refused for its
size. -/
theorem Arrived.not_isOversize {chunk : Bytes} (h : Arrived chunks limit reads a stream)
    (hruns : ∀ run, run <:+: chunks.flatten → terminator ∉ run → run.length ≤ limit)
    (hnext : reads ++ [.receive chunk] <+: readsOf chunks) :
    Accumulator.isOversize (a.feed chunk).1 = false := by
  refine Bool.eq_false_iff.mpr fun hsize => ?_
  have hlt := h.follows.lt_of_isOversize chunk hsize
  have htail : (Reading.of (stream ++ chunk)).tail <:+: stream ++ chunk := by
    simpa using Reading.tail_infix_append (stream ++ chunk) []
  have hle := hruns _ (htail.trans (h.feed hnext).isPrefix.isInfix) (Reading.not_mem_tail _)
  rw [h.limit] at hlt
  omega

/-- **A chunk goes to the reader that waits for it.** -/
theorem Arrived.phase_afterChunk {chunk : Bytes} (h : Arrived chunks limit reads a stream)
    (hruns : ∀ run, run <:+: chunks.flatten → terminator ∉ run → run.length ≤ limit)
    (hnext : reads ++ [.receive chunk] <+: readsOf chunks)
    (hall : (Reading.of stream).responses = handed) :
    Phase chunks limit (reads ++ [.receive chunk]) handed (.afterChunk a chunk) := by
  have hsize := h.not_isOversize hruns hnext
  have hgiven := h.follows.given_feed chunk hsize
  rw [hall] at hgiven
  cases hfeed : (a.feed chunk).1 with
  | ok responses =>
    rw [hfeed] at hgiven
    rw [ReaderPhase.afterChunk_of_ok hfeed]
    exact (h.feed hnext).phase_handOut hgiven
  | error m =>
    -- What has arrived has a fault, so that nothing behind it counts.
    rw [hfeed, Accumulator.given, List.append_nil] at hgiven
    have hfailure := Accumulator.failure?_of_feed_eq_error hfeed hsize
    obtain ⟨hresponses, hcause⟩ :=
      (h.feed hnext).of_fault ((h.feed hnext).follows.failure.symm.trans hfailure)
    rw [ReaderPhase.afterChunk_of_error hfeed]
    exact .stopping _ hcause.symm (hresponses.trans hgiven)

/-- **The end of the stream goes to the reader that waits for it.** -/
theorem Arrived.phase_afterEnd (h : Arrived chunks limit reads a stream)
    (hnext : reads ++ [.endOfStream] <+: readsOf chunks)
    (hall : (Reading.of stream).responses = handed) :
    Phase chunks limit (reads ++ [.endOfStream]) handed (.afterEnd a) := by
  obtain rfl := h.eq_flatten hnext
  have hcause : ReaderPhase.afterEnd a = .stopping (Reading.of chunks.flatten).cause := by
    rw [ReaderPhase.afterEnd, Reading.cause, h.follows.finish_eq]
    cases (Reading.of chunks.flatten).finish <;> rfl
  rw [hcause]
  exact .stopping _ rfl hall

theorem Phase.isPrefix {phase : ReaderPhase} (h : Phase chunks limit reads handed phase) :
    handed <+: (Reading.of chunks.flatten).responses := by
  cases h with
  | listening a stream arrived all => exact all ▸ arrived.responses_isPrefix
  | delivering a r rest stream arrived ahead =>
    refine List.IsPrefix.trans ?_ arrived.responses_isPrefix
    rw [ahead]
    exact List.prefix_append _ _
  | stopping cause why all | ended all => exact all ▸ List.prefix_refl _

/-- A reader that waits for bytes has something to read. -/
theorem Arrived.exists_next (h : Arrived chunks limit reads a stream) :
    ∃ e, e.isRead = true ∧ reads ++ [e] <+: readsOf chunks ∧
      (e = .endOfStream ∨ ∃ chunk ∈ chunks, e = .receive chunk) := by
  obtain ⟨earlier, later, rfl, rfl, -⟩ := h.order
  cases later with
  | nil => exact ⟨.endOfStream, rfl, by simp [readsOf], .inl rfl⟩
  | cons chunk later =>
    refine ⟨.receive chunk, rfl, ?_, .inr ⟨chunk, by simp, rfl⟩⟩
    rw [readsOf, List.map_append, List.append_assoc, List.prefix_append_right_inj]
    simp

end Link

end KvClient
