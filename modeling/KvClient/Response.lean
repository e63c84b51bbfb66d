import KvClient.Error
import KvClient.Wire

/-!
# Responses

A response frame is a status byte, a payload, any number of zeros, and the terminator.  The zeros
are no part of the payload.

* **A segment is a response in one way**, and it is none because of its first byte:
  `ofSegment_eq_ok_iff`, `ofSegment_eq_error_iff`.
* **A response is read off the front of a buffer**: `decode`, which says how many bytes it took
  (`used_of_decode`).
* **Only the first segment counts**: `decode_of_cut?`, `decode_of_not_mem`.
-/

namespace KvClient

/-- A response. -/
structure Response where
  status : Status
  payload : Bytes
  deriving Repr, DecidableEq

namespace Response

/-- The response of a segment. -/
def ofSegment : Bytes → Except Malformation Response
  | [] => .error .noStatus
  | b :: payload =>
    match Status.ofByte? b with
    | none => .error (.unknownStatus b)
    | some status => .ok ⟨status, Bytes.trimZeros payload⟩

/-- **A segment is a response in one way.** -/
theorem ofSegment_eq_ok_iff {segment : Bytes} {r : Response} :
    ofSegment segment = .ok r ↔
      (∃ n, segment = r.status.byte :: (r.payload ++ Bytes.zeros n)) ∧
        r.payload.getLast? ≠ some 0 := by
  cases segment with
  | nil => simp [ofSegment]
  | cons b bytes =>
    have hparts : ofSegment (b :: bytes) = .ok r ↔
        b = r.status.byte ∧ Bytes.trimZeros bytes = r.payload := by
      obtain ⟨status, payload⟩ := r
      rw [← Status.ofByte?_eq_some_iff, ofSegment]
      cases Status.ofByte? b with
      | none => simp
      | some status' => simp
    rw [hparts, Bytes.trimZeros_eq_iff]
    simp only [List.cons.injEq, exists_and_left, and_assoc]

/-- **A segment is no response because of its first byte.** -/
theorem ofSegment_eq_error_iff {segment : Bytes} {m : Malformation} :
    ofSegment segment = .error m ↔
      segment = [] ∧ m = .noStatus ∨
        ∃ b bytes, segment = b :: bytes ∧ (∀ s : Status, b ≠ s.byte) ∧ m = .unknownStatus b := by
  cases segment with
  | nil => simp [ofSegment, eq_comm]
  | cons b bytes =>
    simp only [ofSegment, ← Status.ofByte?_eq_none_iff]
    cases hs : Status.ofByte? b with
    | none => simp [hs, eq_comm]
    | some status => simp [hs]

/-- The response in front of a buffer and the number of bytes it takes, terminator included; nothing
if no terminator has arrived. -/
def decode (buffer : Bytes) : Except Malformation (Option (Response × Nat)) :=
  match Wire.cut? buffer with
  | none => .ok none
  | some (segment, _) =>
    match ofSegment segment with
    | .error m => .error m
    | .ok r => .ok (some (r, segment.length + 1))

theorem decode_of_cut? {buffer segment rest : Bytes} (h : Wire.cut? buffer = some (segment, rest)) :
    decode buffer = (ofSegment segment).map fun r => some (r, segment.length + 1) := by
  unfold decode
  rw [h]
  cases hs : ofSegment segment <;> simp [hs, Except.map]

theorem decode_of_not_mem {buffer : Bytes} (h : terminator ∉ buffer) :
    decode buffer = .ok none := by
  simp [decode, Wire.cut?_eq_none.mpr h]

/-- A response takes at least its status byte and the terminator, and no more than there is. -/
theorem used_of_decode {buffer : Bytes} {r : Response} {used : Nat}
    (h : decode buffer = .ok (some (r, used))) : 2 ≤ used ∧ used ≤ buffer.length := by
  unfold decode at h
  split at h
  · simp at h
  · next segment rest hc =>
    have hlen := Wire.length_of_cut? hc
    split at h
    · simp at h
    · next hs =>
      obtain ⟨-, rfl⟩ := by simpa using h
      cases segment with
      | nil => simp [ofSegment] at hs
      | cons b payload => simp only [List.length_cons] at hlen ⊢; omega

theorem length_drop_lt {buffer : Bytes} {r : Response} {used : Nat}
    (h : decode buffer = .ok (some (r, used))) : (buffer.drop used).length < buffer.length := by
  have := used_of_decode h
  simp only [List.length_drop]
  omega

/-- The frame of a response, with `padding` zeros behind the payload. -/
def encode (r : Response) (padding : Nat) : Bytes :=
  r.status.byte :: (r.payload ++ Bytes.zeros padding ++ [terminator])

/-- Whether the peer reports success. -/
def isOk (r : Response) : Bool := r.status == .ok

/-- What the caller gets: the payload, or the error that the peer reports. -/
def result (r : Response) : Except Error Bytes :=
  match r.status with
  | .ok => .ok r.payload
  | .serverError => .error (.server (Utf8.decodeLossy r.payload))

end Response

end KvClient
