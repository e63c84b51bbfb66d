import KvClient.Command
import KvClient.Credentials
import KvClient.Datum
import KvClient.Response

/-!
# Requests and replies

What a caller can ask a client for, and what it gets.  A request is checked before anything else
happens; a request that is refused then has had no effect at all.

* **Only exchanges need the peer**: `Job.exchange` holds the one command that is sent.
-/

namespace KvClient

/-- What a caller asks for. -/
inductive Request
  | get (key : Bytes)
  | set (key value : Bytes)
  | del (key : Bytes)
  | load (payload : Payload)
  /-- Loads a value of the caller's program. -/
  | loadDatum (d : Datum)
  /-- The document of all entries. -/
  | dump
  /-- All entries. -/
  | dumpEntries
  | state
  | close
  /-- Connects with the credentials that the configuration names. -/
  | connect
  | connectWith (credentials : Credentials)

/-- Whether a client can be used. -/
inductive ConnectionState
  /-- It has never been connected. -/
  | unconnected
  | connected
  | closed
  deriving Repr, DecidableEq

/-- What a caller gets. -/
inductive Reply
  | done
  | bytes (b : Bytes)
  | entries (es : List Entry)
  | state (s : ConnectionState)

/-- What becomes of the payload of a response. -/
inductive Yield
  | nothing
  | payload
  | entries
  deriving Repr, DecidableEq

/-- A request that has been checked. -/
inductive Job
  | exchange (command : Command) (yield : Yield)
  | state
  | close
  /-- Connects, with credentials that were handed over or that are to be read. -/
  | connect (credentials? : Option Credentials)

/-- The entries of an exported payload; an empty one has none. -/
def entriesOfPayload (payload : Bytes) : Except Error (List Entry) :=
  if payload.isEmpty then .ok []
  else
    match Utf8.decode payload with
    | .error fault => .error (.malformed (.notText fault))
    | .ok text => Payload.parseEntries text

/-- What the caller gets for a payload. -/
def Yield.reply (bytes : Bytes) : Yield → Except Error Reply
  | .nothing => .ok .done
  | .payload => .ok (.bytes bytes)
  | .entries => (entriesOfPayload bytes).map .entries

/-- What the caller gets for what its exchange came to. -/
def Yield.result (y : Yield) (s : Except Error Response) : Except Error Reply :=
  match s with
  | .error e => .error e
  | .ok r =>
    match r.result with
    | .error e => .error e
    | .ok bytes => y.reply bytes

/-- Checks a request. -/
def Request.check : Request → Except Error Job
  | .get key => (Command.ofGet key).map (.exchange · .payload)
  | .set key value => (Command.ofSet key value).map (.exchange · .nothing)
  | .del key => (Command.ofDel key).map (.exchange · .nothing)
  | .load payload => (Command.ofPayload payload).map (.exchange · .nothing)
  | .loadDatum d =>
    match d.toPayload with
    | .error e => .error e
    | .ok payload => (Command.ofPayload payload).map (.exchange · .nothing)
  | .dump => .ok (.exchange .dump .payload)
  | .dumpEntries => .ok (.exchange .dump .entries)
  | .state => .ok .state
  | .close => .ok .close
  | .connect => .ok (.connect none)
  | .connectWith credentials => .ok (.connect (some credentials))

end KvClient
