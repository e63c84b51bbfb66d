import KvClient.Bytes

/-!
# Distinguished encoding

Values as a tag, a length and a content.  Only definite lengths in their shortest form are read.
-/

namespace KvClient.Tls.Der

/-- A tagged value. -/
structure Element where
  tag : UInt8
  content : Bytes
  deriving Repr, DecidableEq

/-! ## Tags -/

/-- A whole number. -/
def integer : UInt8 := 0x02

/-- A string of bits. -/
def bitString : UInt8 := 0x03

/-- A string of bytes. -/
def octetString : UInt8 := 0x04

/-- The empty value. -/
def null : UInt8 := 0x05

/-- The name of an algorithm, a curve or the like. -/
def objectIdentifier : UInt8 := 0x06

/-- A time with a year of two digits. -/
def utcTime : UInt8 := 0x17

/-- A time with a year of four digits. -/
def generalizedTime : UInt8 := 0x18

/-- Elements one after another. -/
def sequence : UInt8 := 0x30

/-- The tag of a field with a number of its own. -/
def field (n : UInt8) : UInt8 := 0xA0 + n

/-! ## Reading -/

/-- The number of big-endian bytes. -/
def ofBigEndian (bytes : Bytes) : Nat := bytes.foldl (fun n b => n * 256 + b.toNat) 0

/-- The length in front of bytes, and the bytes behind it. -/
def readLength? : Bytes → Option (Nat × Bytes)
  | [] => none
  | b :: rest =>
    if b < 0x80 then some (b.toNat, rest)
    else
      let size := b.toNat - 0x80
      let n := ofBigEndian (rest.take size)
      if size = 0 ∨ 4 < size ∨ rest.length < size ∨ n < 0x80 ∨ n < Nat.pow 256 (size - 1) then none
      else some (n, rest.drop size)

/-- The element in front of bytes, and the bytes behind it. -/
def readElement? : Bytes → Option (Element × Bytes)
  | [] => none
  | tag :: rest =>
    match readLength? rest with
    | none => none
    | some (n, content) =>
      if content.length < n then none else some (⟨tag, content.take n⟩, content.drop n)

/-- The elements that make up bytes, at most `limit` of them. -/
def readAll? : Nat → Bytes → Option (List Element)
  | _, [] => some []
  | 0, _ :: _ => none
  | limit + 1, bytes =>
    match readElement? bytes with
    | none => none
    | some (e, rest) => (readAll? limit rest).map (e :: ·)

/-- The elements that make up bytes. -/
def elements? (bytes : Bytes) : Option (List Element) := readAll? bytes.length bytes

/-- The elements of a sequence that makes up bytes. -/
def sequence? (bytes : Bytes) : Option (List Element) :=
  match elements? bytes with
  | some [e] => if e.tag = sequence then elements? e.content else none
  | _ => none

/-- Whether the elements have these tags, in order. -/
def haveTags (tags : List UInt8) (es : List Element) : Bool := es.map Element.tag == tags

end KvClient.Tls.Der
