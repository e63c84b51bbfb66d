import KvClient.Response

/-!
# Reassembling responses

A stream arrives in chunks of any size.  The accumulator keeps the bytes of the frame that has not
arrived completely, and gives back the responses that a chunk completes.

## How it works

* Bytes that were searched for a terminator are not searched again: the first `scanned` bytes of the
  buffer hold none.
* A frame that is no response makes the stream unusable.  The responses in front of it still count,
  and the fault is reported by the next call.
* The limit is compared with what is left in the buffer once all complete frames are gone.

## What is shown

* **The search finds every terminator that was not searched for**: `hasFrame_iff`.
* **Taking responses off loses none**: `drain_eq`, `drain_of_not_mem`.
-/

namespace KvClient

/-- The state of reassembly. -/
structure Accumulator where
  buffer : Array UInt8
  /-- How many bytes at the front are known to hold no terminator. -/
  scanned : Nat
  /-- How many bytes may wait for a terminator. -/
  limit : Nat
  /-- Why the stream is unusable, once it is. -/
  failure? : Option Malformation
  deriving Repr, DecidableEq

namespace Accumulator

/-- An accumulator that has seen nothing. -/
def new (limit : Nat) : Accumulator := ⟨#[], 0, limit, none⟩

/-- How many bytes wait for a terminator. -/
def pending (a : Accumulator) : Nat := a.buffer.size

/-- Whether the stream is unusable. -/
def isFailed (a : Accumulator) : Bool := a.failure?.isSome

/-! ## Taking responses off a byte string -/

/-- Takes responses off the front of a byte string until no terminator is left, or no response
stands in front of it: the responses, what is left, and the fault.  `done` holds the responses taken
so far, the last one first. -/
def drain (done : List Response) (bytes : Bytes) : List Response × Bytes × Option Malformation :=
  match _h : Response.decode bytes with
  | .ok none => (done.reverse, bytes, none)
  | .error m => (done.reverse, bytes, some m)
  | .ok (some (r, used)) => drain (r :: done) (bytes.drop used)
termination_by bytes.length
decreasing_by exact Response.length_drop_lt _h

theorem drain_eq (done : List Response) (bytes : Bytes) :
    drain done bytes = (done.reverse ++ (drain [] bytes).1, (drain [] bytes).2) := by
  rw [drain.eq_def done, drain.eq_def []]
  split
  · simp
  · simp
  · next r used h =>
    rw [drain_eq (r :: done), drain_eq [r]]
    simp
termination_by bytes.length
decreasing_by all_goals exact Response.length_drop_lt ‹_›

theorem drain_of_not_mem {bytes : Bytes} (h : terminator ∉ bytes) :
    drain [] bytes = ([], bytes, none) := by
  rw [drain.eq_def]
  split
  · rfl
  all_goals simp_all [Response.decode_of_not_mem h]

/-! ## Feeding -/

/-- Whether there is a terminator among the bytes that were not searched. -/
def hasFrame (a : Accumulator) : Bool := a.buffer.any (· == terminator) a.scanned

theorem hasFrame_iff {a : Accumulator} :
    a.hasFrame = true ↔ terminator ∈ a.buffer.toList.drop a.scanned := by
  simp only [hasFrame, Array.any_iff_exists, beq_iff_eq, List.mem_drop_iff_getElem]
  constructor
  · rintro ⟨i, hi, hle, -, h⟩
    exact ⟨i - a.scanned, by simp; omega, by simpa [Nat.add_sub_cancel' hle] using h⟩
  · rintro ⟨i, hi, h⟩
    have hlt : a.scanned + i < a.buffer.size := by simp at hi; omega
    exact ⟨a.scanned + i, hlt, by omega, hlt, by simpa using h⟩

/-- The accumulator with a chunk at the end of its buffer. -/
def append (a : Accumulator) (chunk : Bytes) : Accumulator :=
  { a with buffer := a.buffer ++ chunk }

/-- Takes all complete responses out of the buffer.  Each of them that is taken off makes the search
start again, and a fault leaves it where it is. -/
def takeResponses (a : Accumulator) : List Response × Accumulator :=
  if a.hasFrame then
    let (responses, rest, failure?) := drain [] a.buffer.toList
    let scanned := match failure? with
      | none => rest.length
      | some _ => if responses.isEmpty then a.scanned else 0
    (responses, { a with buffer := rest.toArray, scanned, failure? })
  else ([], { a with scanned := a.buffer.size })

/-- The verdict on a call that completed `responses`. -/
def verdict (responses : List Response) (a : Accumulator) : Except Malformation (List Response) :=
  match a.failure? with
  | some m => if responses.isEmpty then .error m else .ok responses
  | none => if a.buffer.size > a.limit then .error (.tooLong a.limit) else .ok responses

/-- Takes in a chunk: the responses that it completes, or why there are none, and the state behind
it. -/
def feed (a : Accumulator) (chunk : Bytes) : Except Malformation (List Response) × Accumulator :=
  match a.failure? with
  | some m => (.error m, a)
  | none =>
    let (responses, a') := (a.append chunk).takeResponses
    (verdict responses a', a')

/-! ## The end of the stream -/

/-- Whether the stream may end here. -/
def finish (a : Accumulator) : Except Malformation Unit :=
  match a.failure? with
  | some m => .error m
  | none => if a.buffer.isEmpty then .ok () else .error (.cut a.buffer.size)

end Accumulator

end KvClient
