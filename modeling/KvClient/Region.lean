import KvClient.Error

/-!
# Keys and values

Keys and values travel in regions of a fixed size, filled up with zeros.  A region can hold what is
short enough and free of the terminator, and both are checked once, when a key or a value is made.

* **Exactly the valid bytes are accepted**: `Key.ofBytes_eq_ok_iff`, `Value.ofBytes_eq_ok_iff`.
-/

namespace KvClient

/-- Bytes that a region of `size` bytes can hold. -/
structure Region (size : Nat) where
  bytes : Bytes
  length_le : bytes.length ≤ size
  terminator_not_mem : terminator ∉ bytes
  deriving DecidableEq

namespace Region

/-- The bytes of the region on the wire. -/
def padded {size : Nat} (r : Region size) : Bytes := Bytes.padTo size r.bytes

theorem terminator_not_mem_padded {size : Nat} (r : Region size) : terminator ∉ r.padded :=
  terminator_not_mem_append_zeros r.terminator_not_mem _

/-- The region of bytes that it can hold; otherwise the error for their length, or for the
terminator. -/
def ofBytes (size : Nat) (tooLarge : Nat → Error) (field : String) (bytes : Bytes) :
    Except Error (Region size) :=
  if length_le : bytes.length ≤ size then
    if terminator_not_mem : terminator ∉ bytes then .ok ⟨bytes, length_le, terminator_not_mem⟩
    else .error (.reservedByte field)
  else .error (tooLarge bytes.length)

theorem ofBytes_eq_ok_iff {size : Nat} {tooLarge : Nat → Error} {field : String} {bytes : Bytes}
    {r : Region size} :
    ofBytes size tooLarge field bytes = .ok r ↔ r.bytes = bytes := by
  unfold ofBytes
  constructor
  · intro h
    split at h
    · split at h
      · obtain rfl := by simpa using h
        rfl
      · simp at h
    · simp at h
  · rintro rfl
    simp [r.length_le, r.terminator_not_mem]

end Region

/-! ## Keys -/

/-- A key. -/
abbrev Key := Region maxKeySize

/-- The key of bytes. -/
def Key.ofBytes (bytes : Bytes) : Except Error Key := Region.ofBytes _ .keyTooLarge "key" bytes

theorem Key.ofBytes_eq_ok_iff {bytes : Bytes} {k : Key} :
    Key.ofBytes bytes = .ok k ↔ k.bytes = bytes := Region.ofBytes_eq_ok_iff

/-- A key as text. -/
def Key.text (k : Key) : String := Utf8.decodeLossy k.bytes

/-- A key as it is shown to a programmer. -/
def Key.describe (k : Key) : String := "Key(" ++ Text.quote k.text ++ ")"

/-! ## Values -/

/-- A value. -/
abbrev Value := Region maxValueSize

/-- The value of bytes. -/
def Value.ofBytes (bytes : Bytes) : Except Error Value :=
  Region.ofBytes _ .valueTooLarge "value" bytes

theorem Value.ofBytes_eq_ok_iff {bytes : Bytes} {v : Value} :
    Value.ofBytes bytes = .ok v ↔ v.bytes = bytes := Region.ofBytes_eq_ok_iff

/-- How many bytes of a value are shown. -/
def Value.maxShown : Nat := 32

/-- A value as it is shown to a programmer: its text, or its size if it is long. -/
def Value.describe (v : Value) : String :=
  if v.bytes.length ≤ Value.maxShown then "Value(" ++ Text.quote (Utf8.decodeLossy v.bytes) ++ ")"
  else s!"Value({v.bytes.length}B)"

end KvClient
