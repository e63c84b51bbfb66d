import KvClient.Command
import KvClient.Response

/-!
# What a peer stores comes back

A peer that knows nothing of commands but where the regions of a fixed frame are keeps a value
region under a key region, and answers with the value region as it is.  The zeros that fill up a
region look like zeros at the end of a value, so that these do not come back.

* **The regions can be read off a fixed frame**: `keyRegion_fixedFrame`, `valueRegion_fixedFrame`.
* **What is stored stays, whatever is stored elsewhere**: `foldl_put_of_ne`.
* **A value comes back without the zeros at its end**: `get_after_set`, so it comes back as it was
  given unless it ends in a zero.
-/

namespace KvClient

/-! ## The regions of a frame -/

namespace Command

/-- The key region of a fixed frame. -/
def keyRegion (frame : Bytes) : Bytes := (frame.drop keyOffset).take maxKeySize

/-- The value region of a fixed frame. -/
def valueRegion (frame : Bytes) : Bytes := (frame.drop valueOffset).take maxValueSize

variable {code : CommandCode} {key value : Bytes}

theorem keyRegion_fixedFrame (hk : key.length ≤ maxKeySize) :
    keyRegion (fixedFrame code key value) = Bytes.padTo maxKeySize key := by
  have hcode : keyOffset = code.bytes.length := code.length_bytes.symm
  rw [keyRegion, fixedFrame, List.append_assoc, List.append_assoc, hcode, List.drop_left]
  exact List.take_left' (Bytes.length_padTo hk)

theorem valueRegion_fixedFrame (hk : key.length ≤ maxKeySize) (hv : value.length ≤ maxValueSize) :
    valueRegion (fixedFrame code key value) = Bytes.padTo maxValueSize value := by
  have hbefore : valueOffset = (code.bytes ++ Bytes.padTo maxKeySize key).length := by
    rw [List.length_append, code.length_bytes, Bytes.length_padTo hk]
    rfl
  rw [valueRegion, fixedFrame, List.append_assoc, hbefore, List.drop_left]
  exact List.take_left' (Bytes.length_padTo hv)

theorem ofGet_eq_ok (k : Key) : ofGet k.bytes = .ok (.get k) := by
  rw [ofGet, Key.ofBytes_eq_ok_iff.mpr rfl]
  rfl

/-- A command that sets a value has the key and the value that it was made of. -/
theorem eq_set_of_ofSet {c : Command} (h : ofSet key value = .ok c) :
    ∃ (k : Key) (v : Value), k.bytes = key ∧ v.bytes = value ∧ c = .set k v := by
  unfold ofSet at h
  cases hk : Key.ofBytes key with
  | error e => simp [hk] at h
  | ok k =>
    cases hv : Value.ofBytes value with
    | error e => simp [hk, hv, Except.map] at h
    | ok v =>
      obtain rfl : Command.set k v = c := by simpa [hk, hv, Except.map] using h
      exact ⟨k, v, Key.ofBytes_eq_ok_iff.mp hk, Value.ofBytes_eq_ok_iff.mp hv, rfl⟩

end Command

/-! ## A peer that stores regions -/

/-- What a peer has stored: value regions under key regions. -/
abbrev Shelf := Bytes → Option Bytes

namespace Shelf

open Command

/-- The value region of a frame is stored under its key region. -/
def put (shelf : Shelf) (frame : Bytes) : Shelf := fun region =>
  if region = keyRegion frame then some (valueRegion frame) else shelf region

/-- The answer to a frame that asks for what is stored under its key region. -/
def answer? (shelf : Shelf) (frame : Bytes) : Option Bytes :=
  (shelf (keyRegion frame)).map fun region => Status.ok.byte :: (region ++ [terminator])

theorem put_self (shelf : Shelf) (frame : Bytes) :
    shelf.put frame (keyRegion frame) = some (valueRegion frame) := if_pos rfl

/-- What is stored under a key region stays until a frame with that region comes. -/
theorem foldl_put_of_ne {frames : List Bytes} {region : Bytes}
    (h : ∀ f ∈ frames, keyRegion f ≠ region) (shelf : Shelf) :
    frames.foldl put shelf region = shelf region := by
  induction frames generalizing shelf with
  | nil => rfl
  | cons f frames ih =>
    obtain ⟨hf, hfs⟩ := List.forall_mem_cons.mp h
    rw [List.foldl_cons, ih hfs, put, if_neg (Ne.symm hf)]

end Shelf

/-! ## What the caller gets -/

namespace Response

/-- What a caller gets out of what has arrived, once there is a response in it. -/
def fetched (arrived : Bytes) : Except Error (Option Bytes) :=
  match decode arrived with
  | .error m => .error (.malformed m)
  | .ok none => .ok none
  | .ok (some (r, _)) => r.result.map some

/-- A response in front of anything is the payload without the zeros at its end. -/
theorem fetched_ok {payload : Bytes} (h : terminator ∉ payload) (rest : Bytes) :
    fetched (Status.ok.byte :: (payload ++ [terminator]) ++ rest) =
      .ok (some (Bytes.trimZeros payload)) := by
  have hcut : Wire.cut? (Status.ok.byte :: (payload ++ [terminator]) ++ rest) =
      some (Status.ok.byte :: payload, rest) := by
    rw [← Wire.cut?_append rest (Status.ok.terminator_not_mem_cons h)]
    simp
  rw [fetched, decode_of_cut? hcut]
  rfl

end Response

namespace Command

open Response (fetched)

/-- What is stored for a command that sets a value is fetched without the zeros at its end. -/
theorem fetched_of_put {k : Key} {v : Value} (shelf : Shelf) {later : List Bytes}
    (hlater : ∀ f ∈ later, keyRegion f ≠ keyRegion (set k v).encode) :
    ∃ answer, (later.foldl Shelf.put (shelf.put (set k v).encode)).answer? (get k).encode =
        some answer ∧
      ∀ rest, fetched (answer ++ rest) = .ok (some (Bytes.trimZeros v.bytes)) := by
  have hkey : keyRegion (get k).encode = keyRegion (set k v).encode := by
    rw [encode, encode, keyRegion_fixedFrame k.length_le, keyRegion_fixedFrame k.length_le]
  have hvalue : valueRegion (set k v).encode = v.padded :=
    valueRegion_fixedFrame k.length_le v.length_le
  refine ⟨Status.ok.byte :: (v.padded ++ [terminator]), ?_, fun rest => ?_⟩
  · rw [Shelf.answer?, hkey, Shelf.foldl_put_of_ne hlater, Shelf.put_self, hvalue]
    rfl
  · rw [Response.fetched_ok v.terminator_not_mem_padded, Region.padded, Bytes.trimZeros_padTo]

/-- **A value comes back without the zeros at its end.**  A peer that has stored the value region of
a command under its key region, and nothing else there since, answers a command for that key with
what the value was made of, up to the zeros at its end; so a value comes back as it was given unless
it ends in a zero. -/
theorem get_after_set {key value : Bytes} {c : Command} (h : ofSet key value = .ok c)
    (shelf : Shelf) {later : List Bytes}
    (hlater : ∀ f ∈ later, keyRegion f ≠ keyRegion c.encode) :
    ∃ (ask : Command) (answer payload : Bytes) (n : Nat), ofGet key = .ok ask ∧
      (later.foldl Shelf.put (shelf.put c.encode)).answer? ask.encode = some answer ∧
      (∀ rest, fetched (answer ++ rest) = .ok (some payload)) ∧
      value = payload ++ Bytes.zeros n ∧ payload.getLast? ≠ some 0 ∧
      (payload = value ↔ value.getLast? ≠ some 0) := by
  obtain ⟨k, v, rfl, rfl, rfl⟩ := eq_set_of_ofSet h
  obtain ⟨answer, hanswer, hfetched⟩ := fetched_of_put shelf hlater
  obtain ⟨n, hn⟩ := Bytes.exists_eq_trimZeros_append v.bytes
  exact ⟨.get k, answer, Bytes.trimZeros v.bytes, n, ofGet_eq_ok k, hanswer, hfetched, hn,
    Bytes.getLast?_trimZeros _, Bytes.trimZeros_eq_self_iff _⟩

/-- A value with a zero inside comes back as it was given, though something is stored under another
key in between. -/
theorem get_after_set_inner_zero :
    ∃ c other ask answer, ofSet [107] [97, 0, 98] = .ok c ∧ ofSet [108] [99] = .ok other ∧
      keyRegion other.encode ≠ keyRegion c.encode ∧ ofGet [107] = .ok ask ∧
      ([other.encode].foldl Shelf.put (Shelf.put (fun _ => none) c.encode)).answer? ask.encode =
        some answer ∧
      fetched answer = .ok (some [97, 0, 98]) := by
  let k : Key := ⟨[107], by decide, by decide⟩
  let k' : Key := ⟨[108], by decide, by decide⟩
  let c := set k ⟨[97, 0, 98], by decide, by decide⟩
  let other := set k' ⟨[99], by decide, by decide⟩
  have hc : ofSet [107] [97, 0, 98] = .ok c := rfl
  have hother : keyRegion other.encode ≠ keyRegion c.encode := by
    rw [encode, encode, keyRegion_fixedFrame k.length_le, keyRegion_fixedFrame k'.length_le]
    simp [Bytes.padTo, k, k']
  have hlater : ∀ f ∈ [other.encode], keyRegion f ≠ keyRegion c.encode := by
    rw [List.forall_mem_singleton]
    exact hother
  obtain ⟨ask, answer, payload, -, hask, hanswer, hfetched, -, -, hsame⟩ :=
    get_after_set hc (fun _ => none) hlater
  obtain rfl : payload = [97, 0, 98] := hsame.mpr (by decide)
  refine ⟨c, other, ask, answer, hc, rfl, hother, hask, hanswer, ?_⟩
  rw [← List.append_nil answer]
  exact hfetched []

/-- **A zero at the end of a value does not come back.** -/
theorem get_after_set_last_zero :
    ∃ c ask answer, ofSet [107] [97, 0] = .ok c ∧ ofGet [107] = .ok ask ∧
      (Shelf.put (fun _ => none) c.encode).answer? ask.encode = some answer ∧
      fetched answer = .ok (some [97]) ∧ fetched answer ≠ .ok (some [97, 0]) := by
  let k : Key := ⟨[107], by decide, by decide⟩
  let v : Value := ⟨[97, 0], by decide, by decide⟩
  have hlater : ∀ f ∈ ([] : List Bytes), keyRegion f ≠ keyRegion (set k v).encode := by simp
  obtain ⟨answer, hanswer, hfetched⟩ := fetched_of_put (fun _ => none) hlater
  have hgot : fetched answer = .ok (some [97]) := by
    rw [← List.append_nil answer]
    exact hfetched []
  refine ⟨set k v, get k, answer, rfl, rfl, hanswer, hgot, ?_⟩
  rw [hgot]
  simp

end Command

end KvClient
