import KvClient.Bytes

/-!
# The wire protocol

Every frame, in either direction, ends with the terminator, a byte that occurs nowhere else in it.

```text
fixed frame     code (3)  key (256)  value (512)  terminator
load frame      code (3)  document                terminator
response frame  status    payload, zeros          terminator
```

* **A code and a status are told from their bytes**: `CommandCode.ofBytes?_bytes`,
  `Status.ofByte?_byte`.
-/

namespace KvClient

/-! ## Geometry -/

/-- The byte that ends every frame. -/
def terminator : UInt8 := 4

/-- Zeros bring no terminator. -/
theorem terminator_not_mem_append_zeros {b : Bytes} (h : terminator ∉ b) (n : Nat) :
    terminator ∉ b ++ Bytes.zeros n := by
  intro hm
  rcases List.mem_append.mp hm with hm | hzeros
  · exact h hm
  · exact absurd (Bytes.mem_zeros hzeros) (by decide)

/-- The size of a command code. -/
def codeSize : Nat := 3

/-- The size of the key region. -/
def maxKeySize : Nat := 256

/-- The size of the value region. -/
def maxValueSize : Nat := 512

/-- Where the key region of a fixed frame starts. -/
def keyOffset : Nat := codeSize

/-- Where the value region of a fixed frame starts. -/
def valueOffset : Nat := keyOffset + maxKeySize

/-- The size of a fixed frame without its terminator. -/
def frameBodySize : Nat := valueOffset + maxValueSize

/-- The size of a fixed frame. -/
def fixedFrameSize : Nat := frameBodySize + 1

/-- The payload that a response to anything but an export has room for. -/
def maxResponsePayload : Nat := 511

/-- How many bytes of a response are kept while its terminator is awaited, unless told otherwise. -/
def defaultMaxResponseSize : Nat := 16 * 1024 * 1024

/-! ## Command codes -/

/-- The kinds of commands. -/
inductive CommandCode
  /-- Fetch the value of a key. -/
  | get
  /-- Store a value under a key. -/
  | set
  /-- Remove a key. -/
  | del
  /-- Load a document of entries. -/
  | load
  /-- Dump all entries as a document. -/
  | dump
  deriving Repr, DecidableEq

namespace CommandCode

/-- The code as text. -/
def text : CommandCode → String
  | get => "get"
  | set => "set"
  | del => "del"
  | load => "imp"
  | dump => "exp"

/-- The code on the wire. -/
def bytes : CommandCode → Bytes
  | get => [0x67, 0x65, 0x74]
  | set => [0x73, 0x65, 0x74]
  | del => [0x64, 0x65, 0x6C]
  | load => [0x69, 0x6D, 0x70]
  | dump => [0x65, 0x78, 0x70]

/-- The kind of command of a code. -/
def ofBytes? (code : Bytes) : Option CommandCode :=
  [get, set, del, load, dump].find? (·.bytes == code)

/-- Whether frames of this kind have the fixed size. -/
def isFixedSize (code : CommandCode) : Bool := code != load

theorem ofBytes?_bytes (code : CommandCode) : ofBytes? code.bytes = some code := by
  cases code <;> decide

theorem length_bytes (code : CommandCode) : code.bytes.length = codeSize := by
  cases code <;> rfl

theorem terminator_not_mem_bytes (code : CommandCode) : terminator ∉ code.bytes := by
  cases code <;> decide

end CommandCode

/-! ## Status bytes -/

/-- The outcome that a response reports. -/
inductive Status
  /-- The command succeeded. -/
  | ok
  /-- The peer rejected the command or failed; the payload says why. -/
  | serverError
  deriving Repr, DecidableEq

namespace Status

/-- The status on the wire. -/
def byte : Status → UInt8
  | ok => 79
  | serverError => 78

/-- The status of a byte. -/
def ofByte? (b : UInt8) : Option Status :=
  [ok, serverError].find? (·.byte == b)

theorem ofByte?_byte (s : Status) : ofByte? s.byte = some s := by cases s <;> decide

theorem ofByte?_eq_some_iff {b : UInt8} {s : Status} : ofByte? b = some s ↔ b = s.byte := by
  constructor
  · intro h
    have hfound := List.find?_some h
    exact (beq_iff_eq.mp hfound).symm
  · rintro rfl
    exact ofByte?_byte s

theorem ofByte?_eq_none_iff {b : UInt8} : ofByte? b = none ↔ ∀ s : Status, b ≠ s.byte := by
  simp only [Option.eq_none_iff_forall_ne_some, ne_eq, ofByte?_eq_some_iff]

theorem byte_ne_terminator (s : Status) : s.byte ≠ terminator := by cases s <;> decide

theorem terminator_not_mem_cons (s : Status) {b : Bytes} (h : terminator ∉ b) :
    terminator ∉ s.byte :: b := by
  rw [List.mem_cons, not_or]
  exact ⟨s.byte_ne_terminator.symm, h⟩

end Status

end KvClient
