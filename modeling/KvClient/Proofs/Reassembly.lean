import KvClient.Accumulator
import KvClient.Proofs.Wire

/-!
# Chunks do not matter

The stream that the accumulator puts together has a meaning of its own: cut it after each
terminator, and read the segments in order up to the first that is no response.  However the stream
is divided into chunks, the accumulator gives that reading.

## How it works

* **A reading can be continued**: `Reading.of_append`.  What follows a fault has no part in it.
* **Draining a byte string reads it**: `drain_reading`.
* **A chunk takes the state of the stream so far to the state of the stream with it**: `Follows`,
  which `feed` keeps, also when it complains about the size of what is left.
* **All chunks together give the reading of their concatenation**: `feedAll_new`.
-/

namespace KvClient

/-! ## Reading a stream -/

/-- The responses of a list of segments up to the first that is none, and what is wrong with that
one. -/
def readSegments : List Bytes → List Response × Option Malformation
  | [] => ([], none)
  | segment :: rest =>
    match Response.ofSegment segment with
    | .error m => ([], some m)
    | .ok r => (r :: (readSegments rest).1, (readSegments rest).2)

theorem readSegments_append (a b : List Bytes) :
    readSegments (a ++ b) =
      match (readSegments a).2 with
      | some m => ((readSegments a).1, some m)
      | none => ((readSegments a).1 ++ (readSegments b).1, (readSegments b).2) := by
  induction a with
  | nil => simp [readSegments]
  | cons segment a ih =>
    cases hs : Response.ofSegment segment with
    | error m => simp [readSegments, hs]
    | ok r =>
      simp only [List.cons_append, readSegments, hs, ih]
      cases (readSegments a).2 <;> simp

/-- A segment is never found to be too long. -/
theorem Response.ofSegment_ne_tooLong (segment : Bytes) (n : Nat) :
    Response.ofSegment segment ≠ .error (.tooLong n) := by
  cases segment with
  | nil => simp [Response.ofSegment]
  | cons b payload =>
    rw [Response.ofSegment]
    cases Status.ofByte? b <;> simp

theorem readSegments_ne_tooLong (segments : List Bytes) (n : Nat) :
    (readSegments segments).2 ≠ some (.tooLong n) := by
  induction segments with
  | nil => simp [readSegments]
  | cons segment rest ih =>
    cases hs : Response.ofSegment segment with
    | error m =>
      intro h
      have hm : m = .tooLong n := by simpa [readSegments, hs] using h
      exact Response.ofSegment_ne_tooLong segment n (hm ▸ hs)
    | ok r => simpa [readSegments, hs] using ih

/-- What a stream means: the responses in front of the first segment that is none, what is wrong
with that segment, and the bytes behind the last terminator. -/
structure Reading where
  responses : List Response
  fault? : Option Malformation
  tail : Bytes
  deriving Repr, DecidableEq

namespace Reading

/-- The reading of a stream. -/
def of (stream : Bytes) : Reading where
  responses := (readSegments (Wire.split stream).1).1
  fault? := (readSegments (Wire.split stream).1).2
  tail := (Wire.split stream).2

theorem of_of_not_mem {stream : Bytes} (h : terminator ∉ stream) :
    of stream = ⟨[], none, stream⟩ := by
  simp [of, Wire.split_of_not_mem h, readSegments]

/-- A segment in front is read first, and only if it is a response is anything else read. -/
theorem of_segment {segment : Bytes} (rest : Bytes) (h : terminator ∉ segment) :
    of (segment ++ terminator :: rest) =
      match Response.ofSegment segment with
      | .error m => ⟨[], some m, (of rest).tail⟩
      | .ok r => ⟨r :: (of rest).responses, (of rest).fault?, (of rest).tail⟩ := by
  rw [of, Wire.split_cons_segment rest h]
  cases hs : Response.ofSegment segment <;> simp [readSegments, hs, of]

theorem not_mem_tail (stream : Bytes) : terminator ∉ (of stream).tail := Wire.not_mem_tail stream

theorem fault?_ne_tooLong (stream : Bytes) (n : Nat) : (of stream).fault? ≠ some (.tooLong n) :=
  readSegments_ne_tooLong _ n

/-- **A reading can be continued.**  The tail of the first piece goes in front of the next. -/
theorem of_append {a : Bytes} (b : Bytes) (h : (of a).fault? = none) :
    of (a ++ b) =
      { of ((of a).tail ++ b) with
        responses := (of a).responses ++ (of ((of a).tail ++ b)).responses } := by
  have h' : (readSegments (Wire.split a).1).2 = none := h
  simp only [of, Wire.split_append a b, readSegments_append, h']

/-- What follows a fault has no part in the reading. -/
theorem of_append_of_fault {a : Bytes} (b : Bytes) {m : Malformation}
    (h : (of a).fault? = some m) :
    (of (a ++ b)).responses = (of a).responses ∧ (of (a ++ b)).fault? = some m := by
  have h' : (readSegments (Wire.split a).1).2 = some m := h
  simp [of, Wire.split_append a b, readSegments_append, h']

/-- What the end of the stream makes of it. -/
def finish (reading : Reading) : Except Malformation Unit :=
  match reading.fault? with
  | some m => .error m
  | none => if reading.tail = [] then .ok () else .error (.cut reading.tail.length)

theorem finish_of_fault {reading : Reading} {m : Malformation} (h : reading.fault? = some m) :
    reading.finish = .error m := by
  rw [finish, h]

theorem finish_eq_ok_iff {reading : Reading} (h : reading.fault? = none) :
    reading.finish = .ok () ↔ reading.tail = [] := by
  rw [finish, h]
  by_cases htail : reading.tail = []
  · simp [htail]
  · simp [htail]

/-- The tail is the last run of bytes without a terminator. -/
theorem tail_infix_append (a b : Bytes) : (of a).tail <:+: a ++ b := by
  refine ⟨(Wire.split a).1.flatMap (· ++ [terminator]), b, ?_⟩
  rw [of, Wire.flatMap_split]

end Reading

namespace Accumulator

/-! ## Draining reads -/

/-- A segment in front is taken off if it is a response, and nothing is taken off otherwise. -/
theorem drain_segment {segment : Bytes} (rest : Bytes) (h : terminator ∉ segment) :
    drain [] (segment ++ terminator :: rest) =
      match Response.ofSegment segment with
      | .error m => ([], segment ++ terminator :: rest, some m)
      | .ok r => (r :: (drain [] rest).1, (drain [] rest).2) := by
  have hdecode := Response.decode_of_cut? (Wire.cut?_append rest h)
  rw [drain.eq_def]
  cases hs : Response.ofSegment segment with
  | error m =>
    rw [hs] at hdecode
    split <;> simp_all [Except.map]
  | ok r =>
    rw [hs] at hdecode
    split <;> rename_i heq <;> rw [heq] at hdecode
    · simp [Except.map] at hdecode
    · simp [Except.map] at hdecode
    · obtain ⟨rfl, rfl⟩ := by simpa [Except.map] using hdecode
      rw [drain_eq]
      simp

/-- **Draining a byte string reads it.** -/
theorem drain_reading (bytes : Bytes) :
    (drain [] bytes).1 = (Reading.of bytes).responses ∧
      (drain [] bytes).2.2 = (Reading.of bytes).fault? ∧
      ((Reading.of bytes).fault? = none → (drain [] bytes).2.1 = (Reading.of bytes).tail) := by
  induction bytes using Wire.split_induction with
  | tail bytes h =>
    rw [drain_of_not_mem h, Reading.of_of_not_mem h]
    exact ⟨rfl, rfl, fun _ => rfl⟩
  | segment segment rest h ih =>
    obtain ⟨hresponses, hfault, htail⟩ := ih
    rw [drain_segment rest h, Reading.of_segment rest h]
    cases Response.ofSegment segment with
    | error m => exact ⟨rfl, rfl, fun hm => by simp at hm⟩
    | ok r => exact ⟨congrArg _ hresponses, hfault, htail⟩

/-! ## One chunk -/

/-- The responses that a call gave back. -/
def given : Except Malformation (List Response) → List Response
  | .ok responses => responses
  | .error _ => []

/-- Whether a call complained that a frame is too long. -/
def isOversize : Except Malformation (List Response) → Bool
  | .error (.tooLong _) => true
  | _ => false

/-- The state of an accumulator that has taken in a stream, chunk by chunk. -/
structure Follows (a : Accumulator) (stream : Bytes) : Prop where
  failure : a.failure? = (Reading.of stream).fault?
  buffer : a.failure? = none → a.buffer.toList = (Reading.of stream).tail
  scanned : a.failure? = none → a.scanned ≤ a.buffer.size

variable {a : Accumulator} {stream : Bytes}

theorem follows_new (limit : Nat) : Follows (new limit) [] := by
  have h : Reading.of [] = ⟨[], none, []⟩ := Reading.of_of_not_mem (by simp)
  constructor
  · rw [h]; rfl
  · intro _; rw [h]; rfl
  · intro _; exact Nat.le_refl _

/-- The search skips no terminator: there is none among the bytes that were searched. -/
theorem Follows.hasFrame_append (h : Follows a stream) (hm : a.failure? = none) (chunk : Bytes) :
    (a.append chunk).hasFrame = true ↔ terminator ∈ a.buffer.toList ++ chunk := by
  have hnot : terminator ∉ a.buffer.toList := by
    rw [h.buffer hm]
    exact Reading.not_mem_tail stream
  have hle : a.scanned ≤ a.buffer.toList.length := by simpa using h.scanned hm
  have htake : terminator ∉ a.buffer.toList.take a.scanned :=
    fun ht => hnot (List.mem_of_mem_take ht)
  have hlist : (a.append chunk).buffer.toList = a.buffer.toList ++ chunk := by simp [append]
  rw [hasFrame_iff, hlist]
  -- The search starts in the middle of the buffer, which holds none before the chunk.
  show terminator ∈ (a.buffer.toList ++ chunk).drop a.scanned ↔ _
  constructor
  · exact List.mem_of_mem_drop
  · intro hmem
    rw [List.drop_append_of_le_length hle]
    rcases List.mem_append.mp hmem with hb | hc
    · exact absurd hb hnot
    · exact List.mem_append_right _ hc

theorem takeResponses_of_hasFrame (h : a.hasFrame = true) :
    a.takeResponses =
      ((drain [] a.buffer.toList).1,
        { a with
          buffer := (drain [] a.buffer.toList).2.1.toArray
          scanned := match (drain [] a.buffer.toList).2.2 with
            | none => (drain [] a.buffer.toList).2.1.length
            | some _ => if (drain [] a.buffer.toList).1.isEmpty then a.scanned else 0
          failure? := (drain [] a.buffer.toList).2.2 }) :=
  if_pos h

theorem takeResponses_of_not_hasFrame (h : ¬ a.hasFrame = true) :
    a.takeResponses = ([], { a with scanned := a.buffer.size }) := by
  rw [takeResponses, if_neg h]

/-- What is taken out of the buffer is the reading of what waited in it together with the chunk. -/
theorem Follows.takeResponses_append (h : Follows a stream) (hm : a.failure? = none)
    (chunk : Bytes) :
    let reading := Reading.of (a.buffer.toList ++ chunk)
    let out := (a.append chunk).takeResponses
    out.1 = reading.responses ∧ out.2.failure? = reading.fault? ∧ out.2.limit = a.limit ∧
      (reading.fault? = none → out.2.buffer.toList = reading.tail) ∧
      (reading.fault? = none → out.2.scanned ≤ out.2.buffer.size) := by
  intro reading out
  have hlist : (a.append chunk).buffer.toList = a.buffer.toList ++ chunk := by simp [append]
  by_cases hf : (a.append chunk).hasFrame = true
  · have hout : out = _ := takeResponses_of_hasFrame hf
    rw [hlist] at hout
    obtain ⟨hresponses, hfault, htail⟩ := drain_reading (a.buffer.toList ++ chunk)
    rw [hout]
    refine ⟨hresponses, hfault, rfl, fun hnone => by simpa using htail hnone, ?_⟩
    intro hnone
    rw [← hfault] at hnone
    simp [hnone]
  · -- Without a terminator all of it waits, and that is its reading.
    have hnot : terminator ∉ a.buffer.toList ++ chunk :=
      fun hmem => hf ((h.hasFrame_append hm chunk).mpr hmem)
    have hreading : reading = ⟨[], none, a.buffer.toList ++ chunk⟩ := Reading.of_of_not_mem hnot
    have hout : out = _ := takeResponses_of_not_hasFrame hf
    rw [hout, hreading]
    exact ⟨rfl, hm, rfl, fun _ => hlist, fun _ => Nat.le_refl _⟩

theorem feed_of_failure {m : Malformation} (hm : a.failure? = some m) (chunk : Bytes) :
    a.feed chunk = (.error m, a) := by
  rw [feed, hm]

theorem feed_of_no_failure (hm : a.failure? = none) (chunk : Bytes) :
    a.feed chunk =
      (verdict (a.append chunk).takeResponses.1 (a.append chunk).takeResponses.2,
        (a.append chunk).takeResponses.2) := by
  rw [feed, hm]

/-- A call gives back all that it completed, unless it complains about the size of what is left. -/
theorem given_verdict {responses : List Response}
    (h : isOversize (verdict responses a) = false) : given (verdict responses a) = responses := by
  unfold verdict at h ⊢
  cases hm : a.failure? with
  | some m => cases responses <;> rfl
  | none =>
    by_cases hsize : a.buffer.size > a.limit
    · simp [hm, hsize, isOversize] at h
    · simp [hsize, given]

/-- The complaint is about what waits for a terminator. -/
theorem lt_of_isOversize_verdict {responses : List Response}
    (hne : ∀ n, a.failure? ≠ some (.tooLong n)) (h : isOversize (verdict responses a) = true) :
    a.failure? = none ∧ a.limit < a.buffer.size := by
  unfold verdict at h
  cases hm : a.failure? with
  | some m =>
    rw [hm] at h
    cases responses with
    | cons r rest => simp [isOversize] at h
    | nil =>
      cases m with
      | tooLong n => exact absurd hm (hne n)
      | _ => simp [isOversize] at h
  | none =>
    by_cases hsize : a.buffer.size > a.limit
    · exact ⟨rfl, hsize⟩
    · simp [hm, hsize, isOversize] at h

/-- A call that gives back nothing, but not for the size of what waits, reports the fault. -/
theorem failure?_of_verdict_eq_error {m : Malformation} {responses : List Response}
    (h : verdict responses a = .error m) (hsize : isOversize (verdict responses a) = false) :
    a.failure? = some m := by
  unfold verdict at h hsize
  cases hm : a.failure? with
  | some m' =>
    by_cases hnone : responses.isEmpty = true
    · obtain rfl : m' = m := by simpa [hm, hnone] using h
      rfl
    · simp [hm, hnone] at h
  | none =>
    by_cases hlong : a.limit < a.buffer.size
    · simp [hm, hlong, isOversize] at hsize
    · simp [hm, hlong] at h

theorem failure?_of_feed_eq_error {m : Malformation} {chunk : Bytes}
    (h : (a.feed chunk).1 = .error m) (hsize : isOversize (a.feed chunk).1 = false) :
    (a.feed chunk).2.failure? = some m := by
  cases hm : a.failure? with
  | some m' =>
    rw [feed_of_failure hm] at h ⊢
    obtain rfl : m' = m := by simpa using h
    exact hm
  | none =>
    rw [feed_of_no_failure hm] at h hsize ⊢
    exact failure?_of_verdict_eq_error h hsize

@[simp] theorem limit_takeResponses : a.takeResponses.2.limit = a.limit := by
  by_cases hf : a.hasFrame = true
  · rw [takeResponses_of_hasFrame hf]
  · rw [takeResponses_of_not_hasFrame hf]

theorem limit_feed (chunk : Bytes) : (a.feed chunk).2.limit = a.limit := by
  cases hm : a.failure? with
  | some m => rw [feed_of_failure hm]
  | none =>
    rw [feed_of_no_failure hm]
    exact limit_takeResponses

/-- **A chunk takes the state of the stream to the state of the stream with it.** -/
theorem Follows.feed (h : Follows a stream) (chunk : Bytes) :
    Follows (a.feed chunk).2 (stream ++ chunk) := by
  cases hm : a.failure? with
  | some m =>
    obtain ⟨-, hfault⟩ := Reading.of_append_of_fault chunk (h.failure.symm.trans hm)
    rw [feed_of_failure hm]
    constructor
    · rw [hm, hfault]
    · intro hnone; simp [hm] at hnone
    · intro hnone; simp [hm] at hnone
  | none =>
    -- What waited is the tail of the stream, so its reading goes on with the chunk.
    have happend := Reading.of_append chunk (h.failure.symm.trans hm)
    rw [← h.buffer hm] at happend
    obtain ⟨-, hfault, -, htail, hscanned⟩ := h.takeResponses_append hm chunk
    rw [feed_of_no_failure hm]
    constructor
    · rw [hfault, happend]
    · intro hnone
      rw [htail (hfault ▸ hnone), happend]
    · intro hnone
      exact hscanned (hfault ▸ hnone)

/-- **A chunk gives the responses that it adds to the reading.** -/
theorem Follows.given_feed (h : Follows a stream) (chunk : Bytes)
    (hsize : isOversize (a.feed chunk).1 = false) :
    (Reading.of (stream ++ chunk)).responses =
      (Reading.of stream).responses ++ given (a.feed chunk).1 := by
  cases hm : a.failure? with
  | some m =>
    obtain ⟨hresponses, -⟩ := Reading.of_append_of_fault chunk (h.failure.symm.trans hm)
    rw [feed_of_failure hm, hresponses]
    simp [given]
  | none =>
    have happend := Reading.of_append chunk (h.failure.symm.trans hm)
    rw [← h.buffer hm] at happend
    obtain ⟨hresponses, -, -⟩ := h.takeResponses_append hm chunk
    rw [feed_of_no_failure hm] at hsize ⊢
    rw [given_verdict hsize, hresponses, happend]

/-- Only a run of bytes without a terminator that is longer than the limit is complained about. -/
theorem Follows.lt_of_isOversize (h : Follows a stream) (chunk : Bytes)
    (hsize : isOversize (a.feed chunk).1 = true) :
    a.limit < (Reading.of (stream ++ chunk)).tail.length := by
  have hfollows := h.feed chunk
  have hlimit := limit_feed (a := a) chunk
  cases hm : a.failure? with
  | some m =>
    have hne := h.failure ▸ Reading.fault?_ne_tooLong stream
    rw [feed_of_failure hm] at hsize
    cases m with
    | tooLong n => exact absurd hm (hne n)
    | _ => simp [isOversize] at hsize
  | none =>
    have hne := hfollows.failure ▸ Reading.fault?_ne_tooLong (stream ++ chunk)
    rw [feed_of_no_failure hm] at hsize hfollows hlimit hne
    obtain ⟨hnone, hlt⟩ := lt_of_isOversize_verdict hne hsize
    rw [← hfollows.buffer hnone, ← hlimit]
    exact hlt

/-! ## The end of the stream -/

theorem Follows.isFailed_eq (h : Follows a stream) :
    a.isFailed = (Reading.of stream).fault?.isSome := by
  rw [isFailed, h.failure]

theorem Follows.pending_eq (h : Follows a stream) (hm : (Reading.of stream).fault? = none) :
    a.pending = (Reading.of stream).tail.length := by
  rw [← h.buffer (h.failure.trans hm)]
  rfl

theorem Follows.finish_eq (h : Follows a stream) : a.finish = (Reading.of stream).finish := by
  rw [finish, Reading.finish, h.failure]
  cases hm : (Reading.of stream).fault? with
  | some m => rfl
  | none =>
    rw [← h.buffer (h.failure.trans hm)]
    simp

/-! ## All chunks -/

/-- Takes in chunks one after the other: what each call gave back, and the state behind the last. -/
def feedAll (a : Accumulator) : List Bytes →
    List (Except Malformation (List Response)) × Accumulator
  | [] => ([], a)
  | chunk :: rest =>
    ((a.feed chunk).1 :: ((a.feed chunk).2.feedAll rest).1, ((a.feed chunk).2.feedAll rest).2)

/-- A failed accumulator reports the same fault ever after. -/
theorem feedAll_of_failure {m : Malformation} (hm : a.failure? = some m) (chunks : List Bytes) :
    ∀ r ∈ (a.feedAll chunks).1, r = .error m := by
  induction chunks with
  | nil => simp [feedAll]
  | cons chunk rest ih =>
    rw [feedAll, feed_of_failure hm]
    exact List.forall_mem_cons.mpr ⟨rfl, ih⟩

theorem Follows.feedAll (h : Follows a stream) (chunks : List Bytes) :
    Follows (a.feedAll chunks).2 (stream ++ chunks.flatten) := by
  induction chunks generalizing a stream with
  | nil => simpa [Accumulator.feedAll] using h
  | cons chunk rest ih =>
    rw [List.flatten_cons, ← List.append_assoc]
    exact ih (h.feed chunk)

theorem Follows.given_feedAll (h : Follows a stream) (chunks : List Bytes)
    (hsize : ∀ r ∈ (a.feedAll chunks).1, isOversize r = false) :
    (Reading.of (stream ++ chunks.flatten)).responses =
      (Reading.of stream).responses ++ (a.feedAll chunks).1.flatMap given := by
  induction chunks generalizing a stream with
  | nil => simp [Accumulator.feedAll]
  | cons chunk rest ih =>
    obtain ⟨hfirst, hrest⟩ := List.forall_mem_cons.mp hsize
    rw [List.flatten_cons, ← List.append_assoc, ih (h.feed chunk) hrest,
      h.given_feed chunk hfirst, List.append_assoc]
    rfl

/-- Nothing is complained about while no run of bytes without a terminator exceeds the limit. -/
theorem Follows.not_isOversize_feedAll (h : Follows a stream) (chunks : List Bytes)
    (hruns : ∀ run, run <:+: stream ++ chunks.flatten → terminator ∉ run → run.length ≤ a.limit) :
    ∀ r ∈ (a.feedAll chunks).1, isOversize r = false := by
  induction chunks generalizing a stream with
  | nil => simp [Accumulator.feedAll]
  | cons chunk rest ih =>
    rw [List.flatten_cons, ← List.append_assoc] at hruns
    refine List.forall_mem_cons.mpr ⟨?_, ?_⟩
    · refine Bool.eq_false_iff.mpr fun hsize => ?_
      have hlt := h.lt_of_isOversize chunk hsize
      have hle := hruns _ (Reading.tail_infix_append _ _) (Reading.not_mem_tail _)
      omega
    · refine ih (h.feed chunk) ?_
      intro run hrun hnot
      rw [limit_feed]
      exact hruns run hrun hnot

/-- **However a stream is divided into chunks, a new accumulator gives its reading.**  As long as
no call complains about the size of what waits, the calls give the responses of the reading; the
accumulator is failed exactly if the reading has a fault, which is then what it reports ever after,
and otherwise what waits is the tail.  No call complains if no run of bytes without a terminator
exceeds the limit, and two ways to divide one stream come to the same. -/
theorem feedAll_new (limit : Nat) (chunks : List Bytes) :
    let stream := chunks.flatten
    let out := (new limit).feedAll chunks
    ((∀ run, run <:+: stream → terminator ∉ run → run.length ≤ limit) →
      ∀ r ∈ out.1, isOversize r = false) ∧
    ((∀ r ∈ out.1, isOversize r = false) →
      out.1.flatMap given = (Reading.of stream).responses ∧
      (out.2.isFailed = true ↔ (Reading.of stream).fault?.isSome) ∧
      (∀ m, (Reading.of stream).fault? = some m →
        out.2.finish = .error m ∧ ∀ later, ∀ r ∈ (out.2.feedAll later).1, r = .error m) ∧
      ((Reading.of stream).fault? = none →
        out.2.pending = (Reading.of stream).tail.length ∧
        (out.2.finish = .ok () ↔ (Reading.of stream).tail = [])) ∧
      ∀ chunks', chunks'.flatten = stream →
        let out' := (new limit).feedAll chunks'
        (∀ r ∈ out'.1, isOversize r = false) →
          out'.1.flatMap given = out.1.flatMap given ∧ out'.2.isFailed = out.2.isFailed ∧
          out'.2.finish = out.2.finish ∧
          (out.2.isFailed = false → out'.2.pending = out.2.pending)) := by
  intro stream out
  have hnil : (Reading.of []).responses = [] := by rw [Reading.of_of_not_mem (by simp)]
  have hfollows := (follows_new limit).feedAll chunks
  rw [List.nil_append] at hfollows
  have hgiven := (follows_new limit).given_feedAll chunks
  rw [List.nil_append, hnil, List.nil_append] at hgiven
  constructor
  · exact (follows_new limit).not_isOversize_feedAll chunks
  · intro hsize
    refine ⟨(hgiven hsize).symm, ?_, ?_, ?_, ?_⟩
    · rw [hfollows.isFailed_eq]
    · intro m hm
      exact ⟨hfollows.finish_eq.trans (Reading.finish_of_fault hm),
        feedAll_of_failure (hfollows.failure.trans hm)⟩
    · intro hm
      refine ⟨hfollows.pending_eq hm, ?_⟩
      rw [hfollows.finish_eq]
      exact Reading.finish_eq_ok_iff hm
    · -- Both divisions follow the same stream.
      intro chunks' hchunks out' hsize'
      have hfollows' := (follows_new limit).feedAll chunks'
      rw [List.nil_append, hchunks] at hfollows'
      have hgiven' := (follows_new limit).given_feedAll chunks' hsize'
      rw [List.nil_append, hnil, List.nil_append, hchunks] at hgiven'
      refine ⟨hgiven'.symm.trans (hgiven hsize), ?_, ?_, ?_⟩
      · rw [hfollows'.isFailed_eq, hfollows.isFailed_eq]
      · rw [hfollows'.finish_eq, hfollows.finish_eq]
      · intro hfailed
        rw [hfollows.isFailed_eq, Option.isSome_eq_false_iff, Option.isNone_iff_eq_none] at hfailed
        rw [hfollows'.pending_eq hfailed, hfollows.pending_eq hfailed]

/-- One stream that ends inside a frame, in four chunks and in one, and one stream with a segment
that is no response. -/
theorem feedAll_new_samples :
    let stream : Bytes := [79, 104, 0, 4, 78, 120, 4, 79]
    let out := (new 8).feedAll [[79, 104], [0, 4, 78], [], [120, 4, 79]]
    let out' := (new 8).feedAll [stream]
    let bad := (new 8).feedAll [[79, 4, 33], [4], [79, 4]]
    out.1.flatMap given = [⟨.ok, [104]⟩, ⟨.serverError, [120]⟩] ∧ out.2.pending = 1 ∧
      out.2.finish ≠ .ok () ∧ out'.1.flatMap given = out.1.flatMap given ∧
      bad.1.flatMap given = [⟨.ok, []⟩] ∧ bad.2.finish = .error (.unknownStatus 33) := by
  intro stream out out' bad
  have hstream : Reading.of stream =
      ⟨[⟨.ok, [104]⟩, ⟨.serverError, [120]⟩], none, [79]⟩ := by decide +kernel
  have hbad : Reading.of [79, 4, 33, 4, 79, 4] =
      ⟨[⟨.ok, []⟩], some (.unknownStatus 33), []⟩ := by decide +kernel
  obtain ⟨hfits, hreads⟩ := feedAll_new 8 [[79, 104], [0, 4, 78], [], [120, 4, 79]]
  obtain ⟨hgiven, -, -, hwaits, hagree⟩ := hreads (hfits fun _ hrun _ => hrun.length_le)
  obtain ⟨hpending, hfinish⟩ := hwaits (congrArg Reading.fault? hstream)
  obtain ⟨hsame, -⟩ := hagree [stream] rfl
    ((feedAll_new 8 [stream]).1 fun _ hrun _ => hrun.length_le)
  obtain ⟨hfits', hreads'⟩ := feedAll_new 8 [[79, 4, 33], [4], [79, 4]]
  obtain ⟨hgiven', -, hfails, -⟩ :=
    hreads' (hfits' fun _ hrun _ => Nat.le_trans hrun.length_le (by decide))
  obtain ⟨hfinish', -⟩ := hfails _ (congrArg Reading.fault? hbad)
  refine ⟨hgiven.trans (congrArg Reading.responses hstream),
    hpending.trans (congrArg (·.tail.length) hstream), ?_, hsame,
    hgiven'.trans (congrArg Reading.responses hbad), hfinish'⟩
  intro hok
  have htail := (congrArg Reading.tail hstream).symm.trans (hfinish.mp hok)
  exact absurd htail (by decide)

end Accumulator

end KvClient
