import KvClient.Proofs.Stored
import KvClient.Proofs.Text

/-!
# Commands are recovered from their frames

Who knows the layout of frames reads a command off its frame, but for the zeros at the end of a key
and of a value, which look like those that fill up a region.  So two keys that differ only there
are one key for a peer.

* **A command loses those zeros and nothing else**: `read?_encode`, `encode_trimmed`.
* **Alike commands share a frame**, and no others do: `encode_eq_iff_alike`.
-/

namespace KvClient

namespace Region

variable {size : Nat}

/-- The region without the zeros at its end. -/
def trimmed (r : Region size) : Region size where
  bytes := Bytes.trimZeros r.bytes
  length_le := Nat.le_trans (Bytes.length_trimZeros_le r.bytes) r.length_le
  terminator_not_mem := fun h => r.terminator_not_mem (Bytes.mem_of_mem_trimZeros h)

theorem padded_trimmed (r : Region size) : r.trimmed.padded = r.padded :=
  Bytes.padTo_trimZeros r.length_le

theorem trimmed_eq_iff {r s : Region size} :
    r.trimmed = s.trimmed ↔ Bytes.trimZeros r.bytes = Bytes.trimZeros s.bytes := by
  simp [trimmed]

end Region

namespace Command

/-! ## Commands up to zeros -/

/-- The command without the zeros at the end of its key and of its value. -/
def trimmed : Command → Command
  | .get key => .get key.trimmed
  | .set key value => .set key.trimmed value.trimmed
  | .del key => .del key.trimmed
  | .load document => .load document
  | .dump => .dump

/-- Commands of one kind with the same parts, but for the zeros at the end of a key or a value. -/
inductive Alike : Command → Command → Prop
  | get {k l : Key} (keys : Bytes.trimZeros k.bytes = Bytes.trimZeros l.bytes) :
    Alike (.get k) (.get l)
  | set {k l : Key} {v w : Value} (keys : Bytes.trimZeros k.bytes = Bytes.trimZeros l.bytes)
    (values : Bytes.trimZeros v.bytes = Bytes.trimZeros w.bytes) : Alike (.set k v) (.set l w)
  | del {k l : Key} (keys : Bytes.trimZeros k.bytes = Bytes.trimZeros l.bytes) :
    Alike (.del k) (.del l)
  | load (document : String) : Alike (.load document) (.load document)
  | dump : Alike .dump .dump

theorem trimmed_eq_iff_alike {a b : Command} : a.trimmed = b.trimmed ↔ Alike a b := by
  constructor
  · intro h
    cases a with
    | get k =>
      cases b with
      | get l => exact .get (Region.trimmed_eq_iff.mp (Command.get.inj h))
      | set | del | load | dump => cases h
    | set k v =>
      cases b with
      | set l w =>
        obtain ⟨hkeys, hvalues⟩ := Command.set.inj h
        exact .set (Region.trimmed_eq_iff.mp hkeys) (Region.trimmed_eq_iff.mp hvalues)
      | get | del | load | dump => cases h
    | del k =>
      cases b with
      | del l => exact .del (Region.trimmed_eq_iff.mp (Command.del.inj h))
      | get | set | load | dump => cases h
    | load document =>
      cases b with
      | load document' =>
        obtain rfl := Command.load.inj h
        exact .load document
      | get | set | del | dump => cases h
    | dump =>
      cases b with
      | dump => exact .dump
      | get | set | del | load => cases h
  · intro h
    cases h with
    | get keys => exact congrArg get (Region.trimmed_eq_iff.mpr keys)
    | set keys values =>
      rw [trimmed, trimmed, Region.trimmed_eq_iff.mpr keys, Region.trimmed_eq_iff.mpr values]
    | del keys => exact congrArg del (Region.trimmed_eq_iff.mpr keys)
    | load document => rfl
    | dump => rfl

theorem encode_trimmed (c : Command) : c.trimmed.encode = c.encode := by
  have hregion : ∀ {size : Nat} (r : Region size),
      Bytes.padTo size r.trimmed.bytes = Bytes.padTo size r.bytes := Region.padded_trimmed
  cases c with
  | get key => simp only [trimmed, encode, fixedFrame, hregion]
  | set key value => simp only [trimmed, encode, fixedFrame, hregion]
  | del key => simp only [trimmed, encode, fixedFrame, hregion]
  | load document => rfl
  | dump => rfl

/-! ## Reading a frame -/

/-- The kind of command that a frame starts with. -/
def codeOf? (frame : Bytes) : Option CommandCode := CommandCode.ofBytes? (frame.take codeSize)

/-- The key in the key region of a frame, without the zeros at its end. -/
def keyOf? (frame : Bytes) : Option Key :=
  (Key.ofBytes (Bytes.trimZeros (keyRegion frame))).toOption

/-- The value in the value region of a frame, without the zeros at its end. -/
def valueOf? (frame : Bytes) : Option Value :=
  (Value.ofBytes (Bytes.trimZeros (valueRegion frame))).toOption

/-- The document between the code of a frame and its terminator. -/
def documentOf? (frame : Bytes) : Option String :=
  (Utf8.decode (frame.drop codeSize).dropLast).toOption

/-- The command that a frame says, as far as a frame tells.  Its parts stand at 0 to 3, 3 to 259 and
259 to 771. -/
def read? (frame : Bytes) : Option Command := do
  match ← codeOf? frame with
  | .get => return .get (← keyOf? frame)
  | .set => return .set (← keyOf? frame) (← valueOf? frame)
  | .del => return .del (← keyOf? frame)
  | .load => return .load (← documentOf? frame)
  | .dump => return .dump

example : (codeSize, keyOffset, keyOffset + maxKeySize) = (3, 3, 259) ∧
    (valueOffset, valueOffset + maxValueSize, fixedFrameSize) = (259, 771, 772) := by decide

section

variable {code : CommandCode}

theorem codeOf?_append (code : CommandCode) (rest : Bytes) :
    codeOf? (code.bytes ++ rest) = some code := by
  rw [codeOf?, List.take_left' code.length_bytes]
  exact code.ofBytes?_bytes

theorem codeOf?_encode (c : Command) : codeOf? c.encode = some c.code := by
  cases c with
  | get | set | del | dump =>
    simp only [encode, fixedFrame, List.append_assoc]
    exact codeOf?_append _ _
  | load document =>
    simp only [encode, List.append_assoc]
    exact codeOf?_append _ _

theorem keyOf?_fixedFrame (key : Key) (value : Bytes) :
    keyOf? (fixedFrame code key.bytes value) = some key.trimmed := by
  rw [keyOf?, keyRegion_fixedFrame key.length_le, Bytes.trimZeros_padTo,
    Key.ofBytes_eq_ok_iff.mpr (show key.trimmed.bytes = Bytes.trimZeros key.bytes from rfl)]
  rfl

theorem valueOf?_fixedFrame (key : Key) (value : Value) :
    valueOf? (fixedFrame code key.bytes value.bytes) = some value.trimmed := by
  rw [valueOf?, valueRegion_fixedFrame key.length_le value.length_le, Bytes.trimZeros_padTo,
    Value.ofBytes_eq_ok_iff.mpr (show value.trimmed.bytes = Bytes.trimZeros value.bytes from rfl)]
  rfl

theorem documentOf?_encode (document : String) :
    documentOf? (load document).encode = some document := by
  rw [documentOf?, encode, List.append_assoc, List.drop_left' CommandCode.load.length_bytes,
    List.dropLast_concat, Utf8.decode_encode]
  rfl

end

/-- **What is read off a frame is the command**, without the zeros at the end of its parts. -/
theorem read?_encode (c : Command) : read? c.encode = some c.trimmed := by
  rw [read?, codeOf?_encode]
  cases c with
  | get key => simp [code, encode, keyOf?_fixedFrame, trimmed]
  | set key value => simp [code, encode, keyOf?_fixedFrame, valueOf?_fixedFrame, trimmed]
  | del key => simp [code, encode, keyOf?_fixedFrame, trimmed]
  | load document => simp [code, documentOf?_encode, trimmed]
  | dump => rfl

/-! ## Commands that share a frame -/

theorem encode_eq_iff_alike {a b : Command} : a.encode = b.encode ↔ Alike a b := by
  rw [← trimmed_eq_iff_alike]
  constructor
  · intro h
    have hread := congrArg read? h
    rw [read?_encode, read?_encode] at hread
    exact Option.some.inj hread
  · intro h
    rw [← encode_trimmed a, h, encode_trimmed b]

theorem trimmed_trimmed (c : Command) : c.trimmed.trimmed = c.trimmed := by
  have hread := read?_encode c.trimmed
  rw [encode_trimmed, read?_encode] at hread
  exact (Option.some.inj hread).symm

/-- **A frame tells a command up to the zeros at the end of its key and of its value.**  Two
commands have one frame just when they are alike, so a peer cannot tell keys apart that differ in
those zeros only.  All frames but that of an import are of one size, and where the regions are in
them is enough to read the command; the document of an import is told exactly. -/
theorem frame_tells_alike :
    (∀ a b : Command, a.encode = b.encode ↔ Alike a b) ∧
    (∀ c : Command, c.code ≠ .load → c.encode.length = 772) ∧
    (∀ c : Command, codeOf? c.encode = some c.code ∧ read? c.encode = some c.trimmed ∧
      Alike c c.trimmed) ∧
    ∀ document, documentOf? (load document).encode = some document ∧
      read? (load document).encode = some (load document) := by
  refine ⟨fun a b => encode_eq_iff_alike, fun c hc => ?_, fun c => ?_, fun document => ?_⟩
  · exact length_encode (by simpa [CommandCode.isFixedSize] using hc)
  · exact ⟨codeOf?_encode c, read?_encode c, trimmed_eq_iff_alike.mp (trimmed_trimmed c).symm⟩
  · exact ⟨documentOf?_encode document, read?_encode (load document)⟩

/-- Two keys that differ in a last zero address one record, and one with a zero in it another. -/
theorem frame_tells_alike_keys :
    ∃ a b c, ofGet [97] = .ok a ∧ ofGet [97, 0] = .ok b ∧ ofGet [0, 97] = .ok c ∧
      a.encode.length = 772 ∧ a.encode = b.encode ∧ a.encode ≠ c.encode ∧
      read? b.encode = some a := by
  let k : Key := ⟨[97], by decide, by decide⟩
  let l : Key := ⟨[97, 0], by decide, by decide⟩
  let m : Key := ⟨[0, 97], by decide, by decide⟩
  obtain ⟨hshared, hsize, hread, -⟩ := frame_tells_alike
  refine ⟨get k, get l, get m, rfl, rfl, rfl, hsize _ (by decide), (hshared _ _).mpr (.get rfl),
    fun h => ?_, (hread (get l)).2.1⟩
  cases (hshared _ _).mp h with
  | get keys => exact absurd keys (by decide)

end Command

end KvClient
