import KvClient.Entry.Reader
import KvClient.Entry.Structured
import KvClient.Error

/-!
# Import payloads

What a caller may import: a document as text or as bytes, a JSON value, or a list of entries.  Text
is sent as it was written, once it has proved to be a list of entries; a value is written out.

* **Text that is a document stays as it is**: `document_text`.
-/

namespace KvClient

/-- What a caller hands over for import. -/
inductive Payload
  | text (s : String)
  | raw (bytes : Bytes)
  | structured (v : Json)

namespace Payload

/-- The payload of a list of entries. -/
def ofEntries (entries : List Entry) : Payload := .structured (Entry.document entries)

/-- How a message calls the kind of a value. -/
def kindName : Json → String
  | .null => "null"
  | .bool _ => "a boolean"
  | .number _ => "a number"
  | .string _ => "a string"
  | .array _ => "an array"
  | .object _ => "an object"

/-- The entries of a text. -/
def parseEntries (s : String) : Except Error (List Entry) :=
  match Entry.parse s with
  | .error e => .error (.badJson e)
  | .ok entries => .ok entries

/-- The entries of a value: those that an array lists, or the members of an object. -/
def entriesOf : Json → Except Error (List Entry)
  | .array items =>
    match Entry.listOfJson items with
    | .error cause => .error (.badJson ⟨cause, none⟩)
    | .ok entries => .ok entries
  | .object members => .ok (members.map fun (key, value) => ⟨key, value⟩)
  | v => .error (.unknownPayload (.notEntries (kindName v)))

/-- A text as a document, if it lists entries. -/
def checked (s : String) : Except Error String :=
  match parseEntries s with
  | .error e => .error e
  | .ok _ => .ok s

/-- The document to send. -/
def document : Payload → Except Error String
  | .text s => checked s
  | .raw bytes =>
    match Utf8.decode bytes with
    | .error _ => .error (.unknownPayload .notText)
    | .ok s => checked s
  | .structured v =>
    match entriesOf v with
    | .error e => .error e
    | .ok entries => .ok (Entry.document entries).text

theorem document_text {s t : String} (h : document (.text s) = .ok t) : t = s := by
  change checked s = .ok t at h
  unfold checked at h
  split at h
  · simp at h
  · exact (Except.ok.inj h).symm

end Payload

end KvClient
