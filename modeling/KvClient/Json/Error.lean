import KvClient.Json.Basic
import KvClient.Text.Quoted
import KvClient.Text.Utf8

/-!
# What can be wrong with a JSON document

An error is a cause, and the place in the text where it was found.  Values that never were text
have no places.

* **A place counts lines from one and bytes of the line from zero**: `Position.atIndex`.
-/

namespace KvClient.Json

/-! ## Causes -/

/-- What stands where something else was expected. -/
inductive Found
  | null
  | bool (b : Bool)
  | integer (n : Int)
  | real (x : Float)
  | string (s : String)
  | array
  | object

/-- A value, seen from outside. -/
def Found.ofJson : Json → Found
  | .null => .null
  | .bool b => .bool b
  | .number (.integer n _) => .integer n
  | .number (.real x) => .real x
  | .string s => .string s
  | .array _ => .array
  | .object _ => .object

/-- How it is called in a message. -/
def Found.describe : Found → String
  | .null => "null"
  | .bool b => s!"boolean `{b}`"
  | .integer n => s!"integer `{n}`"
  | .real x => "floating point `" ++ String.ofList (Number.layout.writeFloat x) ++ "`"
  | .string s => "string " ++ Text.quote s
  | .array => "sequence"
  | .object => "map"

/-- What was expected instead. -/
inductive Expected
  | list
  | entry
  | text
  deriving Repr, DecidableEq

/-- How it is called in a message. -/
def Expected.describe : Expected → String
  | .list => "a sequence"
  | .entry => "struct Entry"
  | .text => "a string"

/-- The number of items that was expected. -/
inductive ExpectedLength
  /-- Two, of an entry that is written as a list. -/
  | pair
  /-- Fewer than there are. -/
  | fewer
  deriving Repr, DecidableEq

/-- How it is called in a message. -/
def ExpectedLength.describe : ExpectedLength → String
  | .pair => "struct Entry with 2 elements"
  | .fewer => "fewer elements in array"

/-- The two fields of an entry. -/
inductive Field
  | key
  | value
  deriving Repr, DecidableEq

/-- The name of a field. -/
def Field.name : Field → String
  | .key => "key"
  | .value => "value"

/-- What is wrong. -/
inductive Cause
  | endInList
  | endInObject
  | endInString
  | endInValue
  | expectedLiteral
  | expectedValue
  | expectedColon
  | expectedCommaOrBracket
  | expectedCommaOrBrace
  | trailingComma
  | trailingCharacters
  | keyNotString
  | invalidNumber
  | numberOutOfRange
  | invalidEscape
  | controlCharacter
  | loneSurrogate
  | cutSurrogatePair
  | tooDeep
  | missingField (field : Field)
  | duplicateField (field : Field)
  | invalidType (found : Found) (expected : Expected)
  | invalidLength (length : Nat) (expected : ExpectedLength)

/-- The wording of a cause. -/
def Cause.message : Cause → String
  | .endInList => "EOF while parsing a list"
  | .endInObject => "EOF while parsing an object"
  | .endInString => "EOF while parsing a string"
  | .endInValue => "EOF while parsing a value"
  | .expectedLiteral => "expected ident"
  | .expectedValue => "expected value"
  | .expectedColon => "expected `:`"
  | .expectedCommaOrBracket => "expected `,` or `]`"
  | .expectedCommaOrBrace => "expected `,` or `\x7d`"
  | .trailingComma => "trailing comma"
  | .trailingCharacters => "trailing characters"
  | .keyNotString => "key must be a string"
  | .invalidNumber => "invalid number"
  | .numberOutOfRange => "number out of range"
  | .invalidEscape => "invalid escape"
  | .controlCharacter => "control character (\\u0000-\\u001F) found while parsing a string"
  | .loneSurrogate => "lone leading surrogate in hex escape"
  | .cutSurrogatePair => "unexpected end of hex escape"
  | .tooDeep => "recursion limit exceeded"
  | .missingField field => s!"missing field `{field.name}`"
  | .duplicateField field => s!"duplicate field `{field.name}`"
  | .invalidType found expected =>
    s!"invalid type: {found.describe}, expected {expected.describe}"
  | .invalidLength length expected =>
    s!"invalid length {length}, expected {expected.describe}"

/-! ## Places -/

/-- A place in a text. -/
structure Position where
  line : Nat
  column : Nat
  deriving Repr, DecidableEq

/-- The place behind the first `index` bytes of a text. -/
def Position.atIndex (text : Bytes) (index : Nat) : Position :=
  let before := text.take index
  { line := before.count 0x0A + 1
    column := (before.reverse.takeWhile (· ≠ 0x0A)).length }

/-! ## Errors -/

/-- A cause, and where it was found. -/
structure Error where
  cause : Cause
  position? : Option Position

/-- The wording of an error. -/
def Error.message (e : Error) : String :=
  match e.position? with
  | some p => s!"{e.cause.message} at line {p.line} column {p.column}"
  | none => e.cause.message

end KvClient.Json
