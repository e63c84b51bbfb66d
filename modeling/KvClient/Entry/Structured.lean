import KvClient.Entry.Basic
import KvClient.Json.Error

/-!
# Entries in a JSON value

What a document says as text, a JSON value can say too: an array of entries, each of them an object
with the fields `key` and `value`, or an array of the two.
-/

namespace KvClient.Entry

open Json

/-- A key. -/
def keyOfJson : Json → Except Cause String
  | .string s => .ok s
  | v => .error (.invalidType (.ofJson v) .text)

/-- An entry written as an array. -/
def ofItems (items : List Json) : Except Cause Entry :=
  match items with
  | [] => .error (.invalidLength 0 .pair)
  | k :: rest =>
    match keyOfJson k with
    | .error cause => .error cause
    | .ok key =>
      match rest with
      | [] => .error (.invalidLength 1 .pair)
      | [value] => .ok ⟨key, value⟩
      | _ => .error (.invalidLength items.length .fewer)

/-- An entry written as an object. -/
def ofMembers (members : Assoc Json) : Except Cause Entry :=
  match members.find? Field.key.name with
  | none => .error (.missingField .key)
  | some k =>
    match keyOfJson k with
    | .error cause => .error cause
    | .ok key =>
      match members.find? Field.value.name with
      | none => .error (.missingField .value)
      | some value => .ok ⟨key, value⟩

/-- An entry in either form. -/
def ofJson : Json → Except Cause Entry
  | .array items => ofItems items
  | .object members => ofMembers members
  | v => .error (.invalidType (.ofJson v) .entry)

/-- A list of entries; the first that is none decides. -/
def listOfJson : List Json → Except Cause (List Entry)
  | [] => .ok []
  | v :: rest =>
    match ofJson v with
    | .error cause => .error cause
    | .ok e =>
      match listOfJson rest with
      | .error cause => .error cause
      | .ok es => .ok (e :: es)

end KvClient.Entry
