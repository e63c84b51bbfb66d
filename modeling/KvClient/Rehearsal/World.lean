import KvClient.Client
import KvClient.Rehearsal.Peer
import KvClient.Tls.Setup

/-!
# The world of a rehearsal

A client, or a bare link, talks to a peer over a pipe.  Several things go on at the same time:
calls, the reader of the link, the peer, and chores such as breaking the pipe at a given moment.

## Waiting

What can go on waits in a queue, in the order in which it was woken.  All else waits for something:
for room or bytes in the pipe, for the gate, for its ticket to be settled, or for a moment in time.
Whatever happens in the world wakes those that wait for it.
-/

namespace KvClient.Rehearsal

/-! ## Participants -/

/-- Something that takes turns. -/
inductive Task
  | call (id : CallId)
  | reader
  | peer
  | chore (id : CallId)
  deriving Repr, DecidableEq

/-- What a call is about: a request to a client, or a frame for a bare link. -/
inductive Matter
  | request (r : Request)
  | frame (bytes : Bytes)

/-- A call. -/
structure Caller where
  id : CallId
  matter : Matter
  /-- After how many milliseconds the call is called off. -/
  cancelAfter? : Option Nat
  started : Bool
  /-- When the time for its exchange is up. -/
  limitAt? : Option Nat
  /-- When it is called off. -/
  cancelAt? : Option Nat

/-- Something that is done beside the calls. -/
inductive Errand
  /-- The peer sends bytes that nobody asked for. -/
  | send (bytes : Bytes)
  /-- The peer's end is dropped. -/
  | hangUp
  | fault (kind : FaultKind)
  /-- A bare link is closed from outside. -/
  | closeLink
  /-- A bare link is shut down by its owner. -/
  | shutDownLink
  /-- Nothing but time. -/
  | pause

/-- A chore: an errand after a delay. -/
structure Chore where
  id : CallId
  errand : Errand
  /-- How many milliseconds it waits. -/
  delay : Nat
  startAt? : Option Nat

/-- What a call or a chore comes to. -/
inductive Outcome
  | done
  | cancelled
  | reply (r : Except Error Reply)
  | response (s : Settlement)

/-- What is rehearsed. -/
inductive Host
  | client (c : Client)
  /-- A bare link, and the call that has an exchange on it. -/
  | link (l : Link) (holder? : Option CallId)

/-- The link that is rehearsed, if there is one. -/
def Host.link? : Host → Option Link
  | .client c => c.link?
  | .link l _ => some l

/-- The call that uses the link. -/
def Host.holder? : Host → Option CallId
  | .client c => c.gate.holder?
  | .link _ holder? => holder?

/-- The world of a rehearsal. -/
structure World where
  /-- Milliseconds since the beginning. -/
  now : Nat
  queue : List Task
  running? : Option Task
  /-- What is woken when, the earliest first. -/
  timers : List (Nat × Task)
  host : Host
  pipe : Pipe
  peer : Peer
  files : Files
  callers : List Caller
  chores : List Chore
  outcomes : List (CallId × Outcome)
  nextId : CallId
  /-- Whether the peer waits for bytes. -/
  peerWaits : Bool
  /-- Whether the reader waits for bytes. -/
  readerWaits : Bool
  /-- The call that waits for room in the pipe. -/
  callWaits? : Option CallId
  /-- What waits for room in the other direction. -/
  sendersWait : List Task

namespace World

/-- A world in which nothing has happened.  The reader starts to listen, and so does the peer. -/
def new (host : Host) (pipe : Pipe) (peer : Peer) (files : Files) : World where
  now := 0
  queue := match peer.manner with
    | .mute => [.reader]
    | _ => [.reader, .peer]
  running? := none
  timers := []
  host := host
  pipe := pipe
  peer := peer
  files := files
  callers := []
  chores := []
  outcomes := []
  nextId := 0
  peerWaits := false
  readerWaits := false
  callWaits? := none
  sendersWait := []

/-! ## Waking and waiting -/

/-- Puts a task at the end of the queue, unless it is there already. -/
def wake (t : Task) (w : World) : World :=
  if w.queue.contains t then w else { w with queue := w.queue ++ [t] }

/-- Wakes tasks one after the other. -/
def wakeAll (ts : List Task) (w : World) : World := ts.foldl (fun w t => w.wake t) w

/-- The task whose turn it is waits. -/
def block (w : World) : World := { w with running? := none }

/-- The timers with one more, behind those of the same moment. -/
def insertTimer (moment : Nat) (t : Task) : List (Nat × Task) → List (Nat × Task)
  | [] => [(moment, t)]
  | (m, u) :: rest =>
    if moment < m then (moment, t) :: (m, u) :: rest else (m, u) :: insertTimer moment t rest

/-- Wakes a task at some moment. -/
def setTimer (moment : Nat) (t : Task) (w : World) : World :=
  { w with timers := insertTimer moment t w.timers }

/-- Wakes the peer if it waits for bytes. -/
def wakePeer (w : World) : World :=
  if w.peerWaits then { w with peerWaits := false }.wake .peer else w

/-- Wakes the reader if it waits for bytes. -/
def wakeReader (w : World) : World :=
  if w.readerWaits then { w with readerWaits := false }.wake .reader else w

/-- Wakes the call that waits for room. -/
def wakeWriter (w : World) : World :=
  match w.callWaits? with
  | some id => { w with callWaits? := none }.wake (.call id)
  | none => w

/-- Wakes what waits for room in the other direction. -/
def wakeSenders (w : World) : World := { w with sendersWait := [] }.wakeAll w.sendersWait

/-! ## The ends of the pipe -/

/-- Tells the peer if the client's end is gone. -/
def noticeClientEnd (w : World) : World :=
  if w.pipe.clientOpen then w else w.wakePeer.wakeSenders

/-- Drops the client's writing half. -/
def dropWriter (w : World) : World :=
  { w with pipe := { w.pipe with writerOpen := false } }.noticeClientEnd

/-- Drops the client's reading half. -/
def dropReader (w : World) : World :=
  { w with pipe := { w.pipe with readerOpen := false } }.noticeClientEnd

/-- Drops the peer's end. -/
def dropPeer (w : World) : World :=
  { w with pipe := { w.pipe with peerOpen := false, toPeer := [] } }.wakeReader.wakeWriter

/-- Shuts down the client's writing half, if that does not fail. -/
def shutPipe (w : World) : World :=
  if w.pipe.fails .shutdown then w else { w with pipe := { w.pipe with shut := true } }.wakePeer

/-- Breaks something at the client's end. -/
def breakPipe (kind : FaultKind) (w : World) : World :=
  let w := { w with pipe := { w.pipe with faults := kind :: w.pipe.faults } }
  match kind with
  | .read => w.wakeReader
  | .write => w.wakeWriter
  | _ => w

/-- Writes to the client as much as there is room for. -/
def sendSome (bytes : Bytes) (w : World) : World × Bytes :=
  let count := min w.pipe.roomToClient bytes.length
  ({ w with pipe := { w.pipe with toClient := w.pipe.toClient ++ bytes.take count } }.wakeReader,
    bytes.drop count)

/-! ## Calls and chores -/

/-- What a call or a chore has come to. -/
def outcome? (w : World) (id : CallId) : Option Outcome :=
  (w.outcomes.find? (·.1 == id)).map (·.2)

/-- A call or a chore has come to something. -/
def record (id : CallId) (o : Outcome) (w : World) : World :=
  { w with outcomes := (id, o) :: w.outcomes }

/-- A call. -/
def caller? (w : World) (id : CallId) : Option Caller := w.callers.find? (·.id == id)

/-- Changes a call. -/
def setCaller (x : Caller) (w : World) : World :=
  { w with callers := w.callers.map fun y => if y.id = x.id then x else y }

/-- Changes a chore. -/
def setChore (x : Chore) (w : World) : World :=
  { w with chores := w.chores.map fun y => if y.id = x.id then x else y }

end World

end KvClient.Rehearsal
