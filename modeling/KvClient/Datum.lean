import KvClient.Payload

/-!
# Values of a caller's program

A caller may hand over values of its own, which are turned into JSON first.  They can say more than
JSON: numbers of any size, numbers that are not finite, and tables with names of any kind.

* A number that is not finite becomes null, but cannot be a name.
* The names of a table are written as text, and the table is sorted by it.
-/

namespace KvClient

/-- A value of a caller's program. -/
inductive Datum
  | json (v : Json)
  | bool (b : Bool)
  | integer (n : Int)
  | real (x : Float)
  | text (s : String)
  | list (items : List Datum)
  | table (rows : List (Datum × Datum))

namespace Datum

/-- A finite number, or null. -/
def realToJson (x : Float) : Json := if x.isFinite then .number (.real x) else .null

/-- The name that a value is as a key of a table. -/
def name : Datum → Except PayloadFault String
  | .text s => .ok s
  | .bool b => .ok (if b then "true" else "false")
  | .integer n => .ok (String.ofList (Json.Number.intText n))
  | .real x =>
    if x.isFinite then .ok (String.ofList (Json.Number.layout.writeFloat x))
    else .error .keyNotFinite
  | _ => .error .keyNotText

mutual

/-- The JSON value of a value. -/
def toJson : Datum → Except PayloadFault Json
  | .json v => .ok v
  | .bool b => .ok (.bool b)
  | .integer n =>
    match Json.Number.ofInt? n with
    | some n => .ok (.number n)
    | none => .error .numberOutOfRange
  | .real x => .ok (realToJson x)
  | .text s => .ok (.string s)
  | .list items => (itemsToJson items).map .array
  | .table rows => (rowsToJson rows).map Json.ofMembers

/-- The JSON values of a list. -/
def itemsToJson : List Datum → Except PayloadFault (List Json)
  | [] => .ok []
  | d :: rest =>
    match toJson d with
    | .error fault => .error fault
    | .ok v => (itemsToJson rest).map (v :: ·)

/-- The named JSON values of a table. -/
def rowsToJson : List (Datum × Datum) → Except PayloadFault (List (String × Json))
  | [] => .ok []
  | (k, d) :: rest =>
    match name k with
    | .error fault => .error fault
    | .ok key =>
      match toJson d with
      | .error fault => .error fault
      | .ok v => (rowsToJson rest).map ((key, v) :: ·)

end

/-- The payload of a value. -/
def toPayload (d : Datum) : Except Error Payload :=
  match d.toJson with
  | .error fault => .error (.unknownPayload fault)
  | .ok v => .ok (.structured v)

end Datum

end KvClient
