import KvClient.Entry.Reader
import KvClient.Protocol
import KvClient.Rehearsal.Pipe

/-!
# The peer of a rehearsal

A peer cuts what it receives into frames and answers them one at a time.  What it does for a frame
is written in a script, or follows from the entries that it stores.

* A script says for each frame what to send, how long to wait, and what to break.
* A store keeps entries, and answers every command.
* A mute peer does not even read.
-/

namespace KvClient.Rehearsal

/-- Something a peer does. -/
inductive Action
  | send (bytes : Bytes)
  /-- Lets milliseconds pass. -/
  | wait (time : Nat)
  | fault (kind : FaultKind)
  /-- Drops the peer's end of the pipe. -/
  | hangUp

/-- How a peer answers. -/
inductive Manner
  /-- What to do for the next frames. -/
  | script (replies : List (List Action))
  | store (entries : Assoc Json)
  | mute

/-- A peer. -/
structure Peer where
  manner : Manner
  /-- What it has read and not yet cut into frames. -/
  inbox : Bytes
  /-- The frames it has handled, the last one first. -/
  received : List Bytes
  /-- What it still has to do for the last frame. -/
  todo : List Action
  /-- When the pause is over that it is making. -/
  pauseUntil? : Option Nat

namespace Peer

/-- A peer that has received nothing. -/
def new (manner : Manner) : Peer := ⟨manner, [], [], [], none⟩

/-! ## Storing -/

/-- How many bytes of payload a reply has room for. -/
def replySize : Nat := maxResponsePayload

/-- A frame with a status and a payload that is filled up with zeros. -/
def paddedReply (status : Status) (payload : Bytes) : Bytes :=
  status.byte :: (Bytes.padTo replySize payload ++ [terminator])

/-- A frame with a status and a payload. -/
def plainReply (status : Status) (payload : Bytes) : Bytes :=
  status.byte :: (payload ++ [terminator])

/-- The text of a region, up to its first zero. -/
def regionText (region : Bytes) : String := Utf8.decodeLossy (region.takeWhile (· != 0))

/-- The key of a frame. -/
def keyText (frame : Bytes) : String := regionText ((frame.drop keyOffset).take maxKeySize)

/-- The value of a frame. -/
def valueText (frame : Bytes) : String := regionText ((frame.drop valueOffset).take maxValueSize)

/-- What a store sends back as the value of a key. -/
def valueBytes : Json → Bytes
  | .string s => Utf8.encode s
  | v => Utf8.encode v.text

/-- The reply to a command for a key that is not there. -/
def notFound : Bytes := paddedReply .serverError (Utf8.encode "key not found")

/-- The entries of a document, if it is one. -/
def readDocument (bytes : Bytes) : Option (List Entry) :=
  match Utf8.decode bytes with
  | .error _ => none
  | .ok text =>
    match Entry.parse text with
    | .error _ => none
    | .ok entries => some entries

/-- All entries of a store, as a document. -/
def allEntries (entries : Assoc Json) : Bytes :=
  Utf8.encode (Entry.document (entries.map fun (key, value) => ⟨key, value⟩)).text

/-- What a frame makes of a store, and the reply. -/
def answer (entries : Assoc Json) (frame : Bytes) : Assoc Json × Bytes :=
  match CommandCode.ofBytes? (frame.take codeSize) with
  | some .get =>
    match entries.find? (keyText frame) with
    | some v => (entries, paddedReply .ok (valueBytes v))
    | none => (entries, notFound)
  | some .set => (entries.insert (keyText frame) (.string (valueText frame)), plainReply .ok [])
  | some .del =>
    match entries.find? (keyText frame) with
    | some _ => (entries.erase (keyText frame), plainReply .ok [])
    | none => (entries, notFound)
  | some .load =>
    match readDocument (frame.drop codeSize).dropLast with
    | some es =>
      (es.foldl (fun table e => table.insert e.key e.value) entries, plainReply .ok [])
    | none => (entries, paddedReply .serverError (Utf8.encode "invalid import document"))
  | some .dump => (entries, plainReply .ok (allEntries entries))
  | none => (entries, paddedReply .serverError (Utf8.encode "unknown command"))

/-! ## Handling frames -/

/-- What a peer does about a frame. -/
def handle (p : Peer) (frame : Bytes) : Peer :=
  let p := { p with received := frame :: p.received }
  match p.manner with
  | .script [] => p
  | .script (reply :: rest) => { p with manner := .script rest, todo := reply }
  | .store entries =>
    let (entries', reply) := answer entries frame
    { p with manner := .store entries', todo := [.send reply] }
  | .mute => p

end Peer

end KvClient.Rehearsal
