import KvClient.Accumulator

/-!
# A link to the peer

A link carries one exchange at a time.  An exchange registers a ticket, writes its frame, and waits
for a response.  A reader runs beside it, reassembles responses from what arrives, and settles the
ticket that is registered with the next one.  Responses carry no number, so nothing but the order of
events says which request a response answers.

## Events

A link is a state that events take forward; which events are possible depends on the state alone.
The events of the exchange (`begin` to `abandon`), of the reader (`receive` to `stop`) and of
whoever closes the link may come in any order.  Each event tells what it did as a list of effects.
To take the ticket out of the slot and to settle it is one event, also where the reader hands out a
response (`deliver`): nobody else can see the link in between.

* Whoever takes the ticket out of `slot?` settles it, and nobody settles it twice.
* A link that is closed stays closed, and keeps no ticket (`closeWith`).
* An exchange ends only when its frame is written *and* its ticket is settled, unless the write
  fails, the time is up, or the caller goes away.
-/

namespace KvClient

/-- The number of a request on its link. -/
abbrev Ticket := Nat

/-- What a request comes to. -/
abbrev Settlement := Except Error Response

/-- A request that is being written, or waits for its response. -/
structure Exchange where
  ticket : Ticket
  frame : Bytes
  /-- How many bytes of the frame the transport has accepted. -/
  sent : Nat
  /-- Whether the frame is written to its end. -/
  flushed : Bool
  settlement? : Option Settlement

/-- What the reader of a link is doing. -/
inductive ReaderPhase
  /-- It waits for bytes. -/
  | listening (accumulator : Accumulator)
  /-- It hands out responses that arrived together. -/
  | delivering (accumulator : Accumulator) (next : Response) (rest : List Response)
  /-- It is about to close the link. -/
  | stopping (cause : Error)
  | ended

namespace ReaderPhase

/-- The reader hands out responses until there are none; an unusable stream is given up after
that. -/
def handOut (a : Accumulator) : List Response → ReaderPhase
  | r :: rest => .delivering a r rest
  | [] =>
    match a.failure? with
    | some m => .stopping (.malformed m)
    | none => .listening a

/-- What the reader does about a chunk. -/
def afterChunk (a : Accumulator) (chunk : Bytes) : ReaderPhase :=
  match a.feed chunk with
  | (.ok responses, a') => handOut a' responses
  | (.error m, _) => .stopping (.malformed m)

/-- What the reader does about the end of the stream. -/
def afterEnd (a : Accumulator) : ReaderPhase :=
  match a.finish with
  | .ok () => .stopping .connectionClosed
  | .error m => .stopping (.malformed m)

end ReaderPhase

/-- The limits of a link. -/
structure LinkOptions where
  requestTimeout? : Option Duration
  maxResponseSize : Nat
  deriving Repr, DecidableEq

/-- A link. -/
structure Link where
  connected : Bool
  /-- The ticket that the next response settles. -/
  slot? : Option Ticket
  exchange? : Option Exchange
  reader : ReaderPhase
  /-- Whether the reader was told to read no more. -/
  readerAborted : Bool
  requestTimeout? : Option Duration
  nextTicket : Ticket

namespace Link

/-! ## Events and effects -/

/-- What can happen to a link. -/
inductive Event
  /-- A request starts. -/
  | begin (frame : Bytes)
  /-- The transport accepts bytes of the frame. -/
  | accept (count : Nat)
  /-- The transport has sent everything on. -/
  | flush
  /-- The transport refuses to write. -/
  | writeFault
  /-- The request finds its frame written and its ticket settled. -/
  | collect
  /-- The time is up. -/
  | expire
  /-- The caller goes away. -/
  | abandon
  /-- Bytes arrive. -/
  | receive (chunk : Bytes)
  /-- The peer sends no more. -/
  | endOfStream
  /-- The transport refuses to read. -/
  | readFault
  /-- The reader hands out a response. -/
  | deliver
  /-- The reader closes the link. -/
  | stop
  /-- Someone closes the link from outside. -/
  | close
  /-- The owner closes the link, and starts to shut down its writing side. -/
  | beginShutdown
  /-- The writing side is shut down. -/
  | finishShutdown

/-- What an event did. -/
inductive Effect
  | registered (ticket : Ticket)
  /-- The link was closed already, so the request was turned away. -/
  | refused
  | wrote (ticket : Ticket) (bytes : Bytes)
  | settled (ticket : Ticket) (settlement : Settlement)
  | returned (ticket : Ticket) (settlement : Settlement)
  | abandoned (ticket : Ticket)
  /-- A response that nobody waits for. -/
  | dropped (response : Response)

/-! ## Parts of a step -/

/-- A link that has just been opened. -/
def new (options : LinkOptions) : Link where
  connected := true
  slot? := none
  exchange? := none
  reader := .listening (.new options.maxResponseSize)
  readerAborted := false
  requestTimeout? := options.requestTimeout?
  nextTicket := 0

/-- A ticket is settled; the exchange hears of it if it is still there. -/
def settle (l : Link) (ticket : Ticket) (s : Settlement) : Link :=
  { l with exchange? := l.exchange?.map fun x =>
      if x.ticket = ticket then { x with settlement? := some s } else x }

/-- Closes the link, and settles the ticket that is registered with an error. -/
def closeWith (l : Link) (cause : Error) : Link × List Effect :=
  match l.slot? with
  | none => ({ l with connected := false }, [])
  | some t =>
    ({ l.settle t (.error cause) with connected := false, slot? := none },
      [.settled t (.error cause)])

/-- The accumulator of a reader that waits for bytes, and may still read. -/
def listening? (l : Link) : Option Accumulator :=
  match l.reader with
  | .listening a => if l.readerAborted then none else some a
  | _ => none

/-- Ends the exchange: the link is closed for `cause`, and the request comes to it. -/
def failExchange (l : Link) (x : Exchange) (cause : Error) : Link × List Effect :=
  let (l', effects) := l.closeWith cause
  ({ l' with exchange? := none }, effects ++ [.returned x.ticket (.error cause)])

/-! ## Steps -/

/-- A request starts. -/
def begin (l : Link) (frame : Bytes) : Option (Link × List Effect) :=
  match l.exchange? with
  | some _ => none
  | none =>
    if l.connected then
      some ({ l with
          slot? := some l.nextTicket
          exchange? := some ⟨l.nextTicket, frame, 0, false, none⟩
          nextTicket := l.nextTicket + 1 },
        [.registered l.nextTicket])
    else some (l, [.refused])

/-- The transport accepts bytes. -/
def accept (l : Link) (count : Nat) : Option (Link × List Effect) :=
  match l.exchange? with
  | none => none
  | some x =>
    if 0 < count ∧ x.sent + count ≤ x.frame.length then
      some ({ l with exchange? := some { x with sent := x.sent + count } },
        [.wrote x.ticket ((x.frame.drop x.sent).take count)])
    else none

/-- The transport has sent everything on. -/
def flush (l : Link) : Option (Link × List Effect) :=
  match l.exchange? with
  | none => none
  | some x =>
    if x.sent = x.frame.length ∧ !x.flushed then
      some ({ l with exchange? := some { x with flushed := true } }, [])
    else none

/-- The transport refuses to write. -/
def writeFault (l : Link) : Option (Link × List Effect) :=
  match l.exchange? with
  | none => none
  | some x => if x.flushed then none else some (l.failExchange x .connectionClosed)

/-- The settlement that the exchange can return with. -/
def collectable? (l : Link) : Option (Exchange × Settlement) :=
  match l.exchange? with
  | none => none
  | some x =>
    match x.settlement? with
    | none => none
    | some s => if x.flushed then some (x, s) else none

/-- The request returns. -/
def collect (l : Link) : Option (Link × List Effect) :=
  match l.collectable? with
  | none => none
  | some (x, s) => some ({ l with exchange? := none }, [.returned x.ticket s])

/-- The time is up; what could be returned instead is returned first. -/
def expire (l : Link) : Option (Link × List Effect) :=
  match l.exchange?, l.requestTimeout?, l.collectable? with
  | some x, some limit, none => some (l.failExchange x (.timeout limit))
  | _, _, _ => none

/-- The caller goes away. -/
def abandon (l : Link) : Option (Link × List Effect) :=
  match l.exchange? with
  | none => none
  | some x =>
    let (l', effects) := l.closeWith .connectionClosed
    some ({ l' with exchange? := none }, effects ++ [.abandoned x.ticket])

/-- The reader hands out a response. -/
def deliver (l : Link) : Option (Link × List Effect) :=
  match l.reader with
  | .delivering a r rest =>
    let l' := { l with reader := .handOut a rest }
    match l.slot? with
    | some t => some ({ l'.settle t (.ok r) with slot? := none }, [.settled t (.ok r)])
    | none => some (l', [.dropped r])
  | _ => none

/-- The reader closes the link. -/
def stop (l : Link) : Option (Link × List Effect) :=
  match l.reader with
  | .stopping cause =>
    let (l', effects) := l.closeWith cause
    some ({ l' with reader := .ended }, effects)
  | _ => none

/-- The reader goes on to another phase. -/
def listen (l : Link) (next : Accumulator → ReaderPhase) : Option (Link × List Effect) :=
  match l.listening? with
  | none => none
  | some a => some ({ l with reader := next a }, [])

/-- Someone closes the link from outside, and tells the reader to read no more. -/
def close (l : Link) : Link × List Effect :=
  let (l', effects) := l.closeWith .connectionClosed
  ({ l' with readerAborted := true }, effects)

/-- What an event makes of a link; nothing if it cannot happen. -/
def step (l : Link) : Event → Option (Link × List Effect)
  | .begin frame => l.begin frame
  | .accept count => l.accept count
  | .flush => l.flush
  | .writeFault => l.writeFault
  | .collect => l.collect
  | .expire => l.expire
  | .abandon => l.abandon
  | .receive chunk => if chunk.isEmpty then none else l.listen (.afterChunk · chunk)
  | .endOfStream => l.listen .afterEnd
  | .readFault => l.listen fun _ => .stopping .connectionClosed
  | .deliver => l.deliver
  | .stop => l.stop
  | .close => some l.close
  | .beginShutdown =>
    match l.exchange? with
    | some _ => none
    | none => some (l.closeWith .connectionClosed)
  | .finishShutdown => some ({ l with readerAborted := true }, [])

/-! ## Runs -/

/-- What a list of events makes of a link, and all that they did; nothing if one of them cannot
happen. -/
def run (l : Link) : List Event → Option (Link × List Effect)
  | [] => some (l, [])
  | e :: rest =>
    match l.step e with
    | none => none
    | some (l', effects) =>
      match l'.run rest with
      | none => none
      | some (l'', more) => some (l'', effects ++ more)

end Link

end KvClient
