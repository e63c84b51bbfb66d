import KvClient.Payload
import KvClient.Region

/-!
# Commands

A command is valid once it is made, so that writing its frame cannot fail.  All frames but that of
an import have one fixed size, with a region for a key and a region for a value; regions that a
command has no use for are zeros.

* **Fixed frames have the fixed size**: `length_encode`.
-/

namespace KvClient

/-- A command to the peer. -/
inductive Command
  | get (key : Key)
  | set (key : Key) (value : Value)
  | del (key : Key)
  /-- Loads the entries of a document. -/
  | load (document : String)
  /-- Dumps all entries. -/
  | dump
  deriving DecidableEq

namespace Command

/-! ## Making commands -/

/-- Fetches the value of a key. -/
def ofGet (key : Bytes) : Except Error Command := (Key.ofBytes key).map .get

/-- Stores a value; the key is checked first. -/
def ofSet (key value : Bytes) : Except Error Command :=
  match Key.ofBytes key with
  | .error e => .error e
  | .ok k => (Value.ofBytes value).map (.set k)

/-- Removes a key. -/
def ofDel (key : Bytes) : Except Error Command := (Key.ofBytes key).map .del

/-- Loads a payload. -/
def ofPayload (payload : Payload) : Except Error Command := payload.document.map .load

/-! ## Frames -/

/-- The kind of a command. -/
def code : Command → CommandCode
  | .get _ => .get
  | .set _ _ => .set
  | .del _ => .del
  | .load _ => .load
  | .dump => .dump

/-- A frame of the fixed size. -/
def fixedFrame (code : CommandCode) (key value : Bytes) : Bytes :=
  code.bytes ++ Bytes.padTo maxKeySize key ++ Bytes.padTo maxValueSize value ++ [terminator]

/-- The frame of a command. -/
def encode : Command → Bytes
  | .get key => fixedFrame .get key.bytes []
  | .set key value => fixedFrame .set key.bytes value.bytes
  | .del key => fixedFrame .del key.bytes []
  | .load document => CommandCode.load.bytes ++ Utf8.encode document ++ [terminator]
  | .dump => fixedFrame .dump [] []

theorem length_fixedFrame {code : CommandCode} {key value : Bytes} (hk : key.length ≤ maxKeySize)
    (hv : value.length ≤ maxValueSize) : (fixedFrame code key value).length = fixedFrameSize := by
  simp only [fixedFrame, List.length_append, CommandCode.length_bytes, Bytes.length_padTo hk,
    Bytes.length_padTo hv, List.length_singleton]
  rfl

theorem length_encode {c : Command} (h : c.code.isFixedSize) :
    c.encode.length = fixedFrameSize := by
  cases c with
  | get key => exact length_fixedFrame key.length_le (Nat.zero_le _)
  | set key value => exact length_fixedFrame key.length_le value.length_le
  | del key => exact length_fixedFrame key.length_le (Nat.zero_le _)
  | load document => exact absurd h Bool.false_ne_true
  | dump => exact length_fixedFrame (Nat.zero_le _) (Nat.zero_le _)

/-- Whether two commands are the same. -/
def beq : Command → Command → Bool
  | .get a, .get b => a == b
  | .set a v, .set b w => a == b && v == w
  | .del a, .del b => a == b
  | .load a, .load b => a == b
  | .dump, .dump => true
  | _, _ => false

instance : BEq Command := ⟨beq⟩

end Command

end KvClient
