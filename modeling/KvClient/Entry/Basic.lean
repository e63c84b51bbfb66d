import KvClient.Json.Printer

/-!
# Entries

The unit of a bulk import or export: a key and any JSON value.  It is written as an object with the
fields `key` and `value`.
-/

namespace KvClient

/-- A record of an import or export document. -/
structure Entry where
  key : String
  value : Json

namespace Entry

/-- Equality of key and value. -/
def beq (a b : Entry) : Bool := a.key == b.key && a.value == b.value

instance : BEq Entry := ⟨beq⟩

/-- The object that an entry is written as. -/
def toJson (e : Entry) : Json := .object [("key", .string e.key), ("value", e.value)]

/-- The entry as text. -/
def text (e : Entry) : String := e.toJson.text

/-- The document that lists entries. -/
def document (entries : List Entry) : Json := .array (entries.map toJson)

end Entry

end KvClient
