import KvClient.Duration
import KvClient.Json.Error
import KvClient.Protocol
import KvClient.Tls.Fault

/-!
# Errors

One type for every failure, each with the facts it is about.  The wording is in `Error.message`, and
`Error.code` gives the kind, which programs can rely on.

* **Errors found before anything is sent** are told by `Error.isValidation`.
-/

namespace KvClient

/-! ## Causes -/

/-- Why a payload cannot become an import document. -/
inductive PayloadFault
  /-- Raw bytes that are no text. -/
  | notText
  /-- A JSON value of a kind that lists no entries. -/
  | notEntries (kind : String)
  /-- A map with keys that are no text. -/
  | keyNotText
  /-- A map with a key that is not a finite number. -/
  | keyNotFinite
  /-- An integer that JSON values cannot hold. -/
  | numberOutOfRange
  | other (text : String)
  deriving Repr, DecidableEq

/-- The wording of a payload fault. -/
def PayloadFault.message : PayloadFault → String
  | .notText => "payload is neither UTF-8 text nor JSON"
  | .notEntries kind => s!"expected a JSON array or object, got {kind}"
  | .keyNotText => "key must be a string"
  | .keyNotFinite => "float key must be finite (got NaN or +/-inf)"
  | .numberOutOfRange => "number out of range"
  | .other text => text

/-- Why the bytes of a response are none. -/
inductive Malformation
  /-- A terminator where a status should stand. -/
  | noStatus
  | unknownStatus (b : UInt8)
  /-- More than `limit` bytes without a terminator. -/
  | tooLong (limit : Nat)
  /-- The stream ended behind `size` bytes of a frame. -/
  | cut (size : Nat)
  /-- An exported document that is no text. -/
  | notText (fault : Utf8.Fault)
  | other (text : String)
  deriving Repr, DecidableEq

/-- The wording of a malformation. -/
def Malformation.message : Malformation → String
  | .noStatus => "frame terminated before its status byte"
  | .unknownStatus b => "unknown status byte 0x" ++ String.ofList (Text.hexByte b)
  | .tooLong limit => s!"response exceeds {limit} bytes without a terminator"
  | .cut size => s!"stream ended inside a frame ({size} bytes buffered)"
  | .notText fault => s!"export payload is not UTF-8: {fault.message}"
  | .other text => text

/-- A failure. -/
inductive Error
  | keyTooLarge (size : Nat)
  | valueTooLarge (size : Nat)
  | unknownPayload (fault : PayloadFault)
  | badJson (error : Json.Error)
  /-- The terminator inside a field. -/
  | reservedByte (field : String)
  | connectionClosed
  | unauthorized (text : String)
  | timeout (limit : Duration)
  | io (fault : SystemFault)
  /-- The peer reported an error. -/
  | server (text : String)
  | malformed (m : Malformation)
  | setup (fault : Tls.Fault)

/-! ## Codes -/

/-- The kind of a failure. -/
inductive ErrorCode
  | keyTooLarge
  | valueTooLarge
  | unknownPayloadType
  | jsonParse
  | reservedByte
  | malformedResponse
  | connectionClosed
  | unauthorized
  | serverError
  | timeout
  | io
  | setup
  deriving Repr, DecidableEq

/-- The symbolic name of a code. -/
def ErrorCode.text : ErrorCode → String
  | .keyTooLarge => "key-too-large"
  | .valueTooLarge => "value-too-large"
  | .unknownPayloadType => "unknown-payload-type"
  | .jsonParse => "json-parse"
  | .reservedByte => "reserved-byte"
  | .malformedResponse => "malformed-response"
  | .connectionClosed => "connection-closed"
  | .unauthorized => "unauthorized"
  | .serverError => "server-error"
  | .timeout => "timeout"
  | .io => "io"
  | .setup => "setup"

/-- The code that a status byte signals, unless it signals success. -/
def ErrorCode.ofStatusByte? (b : UInt8) : Option ErrorCode :=
  match Status.ofByte? b with
  | some .ok => none
  | some .serverError => some .serverError
  | none => some .malformedResponse

namespace Error

/-- The kind of a failure. -/
def code : Error → ErrorCode
  | .keyTooLarge _ => .keyTooLarge
  | .valueTooLarge _ => .valueTooLarge
  | .unknownPayload _ => .unknownPayloadType
  | .badJson _ => .jsonParse
  | .reservedByte _ => .reservedByte
  | .connectionClosed => .connectionClosed
  | .unauthorized _ => .unauthorized
  | .timeout _ => .timeout
  | .io _ => .io
  | .server _ => .serverError
  | .malformed _ => .malformedResponse
  | .setup _ => .setup

/-- Whether the kind of a failure says that an argument was not valid. -/
def isValidation (e : Error) : Bool :=
  match e.code with
  | .keyTooLarge | .valueTooLarge | .unknownPayloadType | .jsonParse | .reservedByte => true
  | _ => false

/-- The wording of a failure. -/
def message : Error → String
  | .keyTooLarge size => s!"key is {size} bytes, maximum is {maxKeySize}"
  | .valueTooLarge size => s!"value is {size} bytes, maximum is {maxValueSize}"
  | .unknownPayload fault => s!"unsupported import payload: {fault.message}"
  | .badJson error => s!"invalid JSON: {error.message}"
  | .reservedByte field => s!"{field} contains the reserved terminator byte"
  | .connectionClosed => "connection closed"
  | .unauthorized text => s!"unauthorized: {text}"
  | .timeout limit => s!"request timed out after {limit.text}"
  | .io fault => s!"IO error: {fault.message}"
  | .server text => s!"server error: {text}"
  | .malformed m => s!"malformed response: {m.message}"
  | .setup fault => s!"setup error: {fault.message}"

/-- The wordings of a failure and of its causes, the outermost first.  Faults in a document and
faults of the system are causes of their own; all else is told by the failure alone. -/
def chain : Error → List String
  | .badJson error => [message (.badJson error), error.message]
  | .io fault => [message (.io fault), fault.message]
  | e => [message e]

end Error

end KvClient
