import KvClient.Rehearsal.World

/-!
# Taking turns

The first task in the queue goes on, one step after the other, until it has to wait for something.
So a rehearsal always comes out the same way.  Time stands still as long as there is anything in the
queue, and then moves on to the next moment that something waits for.

## How it ends

A rehearsal takes a limited number of steps (`patience`), each of which is a step of one
participant.
-/

namespace KvClient.Rehearsal

namespace World

/-! ## Events of the host -/

/-- Wakes the reader if it has been told to stop since, or its link is gone. -/
def noticeAbort (before after : Option Link) (w : World) : World :=
  let stopped := match before, after with
    | some l, some l' => !l.readerAborted && l'.readerAborted
    | some _, none => true
    | none, _ => false
  if stopped && w.pipe.readerOpen then { w with readerWaits := false }.wake .reader else w

/-- Wakes a call whose ticket has been settled. -/
def noticeLinkEffect (holder? : Option CallId) (w : World) : Link.Effect → World
  | .settled _ _ =>
    match holder? with
    | some id => w.wake (.call id)
    | none => w
  | _ => w

/-- Takes note of what an event did to a client. -/
def noticeClientEffect (holder? : Option CallId) (w : World) : Client.Effect → World
  | .link e => w.noticeLinkEffect holder? e
  | .finished id result => w.record id (.reply result)
  | .cancelled id => w.record id .cancelled

/-- Wakes the call that the gate has been granted to since. -/
def noticeGrant (before after : Gate CallId) (w : World) : World :=
  match after with
  | .granted next _ => if before = after then w else w.wake (.call next)
  | _ => w

/-- The client goes on to another state. -/
def afterClient (before after : Client) (effects : List Client.Effect) (w : World) : World :=
  let w := { w with host := .client after }
  let w := effects.foldl (noticeClientEffect before.gate.holder?) w
  let w := w.noticeAbort before.link? after.link?
  let w := if before.link?.isSome && after.link?.isNone then w.dropWriter else w
  w.noticeGrant before.gate after.gate

/-- An event of the client; if it cannot happen, the turn is over. -/
def onClient (c : Client) (e : Client.Event) (w : World) : World :=
  match c.step e with
  | some (c', effects) => w.afterClient c c' effects
  | none => w.block

/-- A bare link goes on to another state. -/
def afterLink (before after : Link) (holder? : Option CallId) (effects : List Link.Effect)
    (w : World) : World :=
  let w := { w with host := .link after holder? }
  let w := effects.foldl (noticeLinkEffect holder?) w
  let w := w.noticeAbort (some before) (some after)
  match holder?, Client.returned? effects with
  | some id, some s => { w with host := .link after none }.record id (.response s)
  | _, _ => w

/-- An event of the link; if it cannot happen, the turn is over. -/
def onLink (e : Link.Event) (w : World) : World :=
  match w.host with
  | .client c => w.onClient c (.link e)
  | .link l holder? =>
    match l.step e with
    | some (l', effects) => w.afterLink l l' holder? effects
    | none => w.block

/-! ## Turns of the reader -/

/-- How many bytes the reader takes at a time. -/
def chunkSize : Nat := 8192

/-- A step of the reader. -/
def stepReader (w : World) : World :=
  match w.host.link? with
  | none => w.dropReader.block
  | some l =>
    match l.reader with
    | .ended => w.block
    | .delivering _ _ _ => w.onLink .deliver
    | .stopping _ => (w.onLink .stop).dropReader.block
    | .listening _ =>
      if l.readerAborted then w.dropReader.block
      else if w.pipe.fails .read then w.onLink .readFault
      else if w.pipe.toClient.isEmpty then
        if w.pipe.peerOpen then { w with readerWaits := true }.block else w.onLink .endOfStream
      else
        let chunk := w.pipe.toClient.take chunkSize
        let pipe := { w.pipe with toClient := w.pipe.toClient.drop chunkSize }
        ({ w with pipe }.wakeSenders).onLink (.receive chunk)

/-! ## Turns of the peer -/

/-- How long a peer pauses after sending. -/
def sendPause : Nat := 1

/-- A step of a peer that has something to do for a frame. -/
def stepAction (action : Action) (rest : List Action) (w : World) : World :=
  let go (w : World) (todo : List Action) : World := { w with peer := { w.peer with todo } }
  match action with
  | .send bytes =>
    if bytes.isEmpty ∨ !w.pipe.peerOpen ∨ !w.pipe.clientOpen then go w (.wait sendPause :: rest)
    else if w.pipe.roomToClient = 0 then
      { w with sendersWait := w.sendersWait ++ [Task.peer] }.block
    else
      let (w, left) := w.sendSome bytes
      go w (.send left :: rest)
  | .wait time =>
    match w.peer.pauseUntil? with
    | none =>
      if time = 0 then go w rest
      else
        let peer := { w.peer with pauseUntil? := some (w.now + time) }
        ({ w with peer }.setTimer (w.now + time) .peer).block
    | some moment =>
      if moment ≤ w.now then
        { w with peer := { w.peer with todo := rest, pauseUntil? := none } }
      else w.block
  | .fault kind => go (w.breakPipe kind) rest
  | .hangUp => go w.dropPeer rest

/-- A step of the peer. -/
def stepPeer (w : World) : World :=
  match w.peer.todo with
  | action :: rest => w.stepAction action rest
  | [] =>
    match Wire.cut? w.peer.inbox with
    | some (segment, inbox) =>
      { w with peer := { w.peer with inbox }.handle (segment ++ [terminator]) }
    | none =>
      if !w.pipe.peerOpen then w.block
      else if w.pipe.toPeer.isEmpty then
        if w.pipe.clientDone then w.block else { w with peerWaits := true }.block
      else
        let peer := { w.peer with inbox := w.peer.inbox ++ w.pipe.toPeer }
        { w with peer, pipe := { w.pipe with toPeer := [] } }.wakeWriter

/-! ## Turns of a call -/

/-- Ends the turn of a call, unless it is called off now. -/
def stepWaiting (x : Caller) (w : World) : World :=
  match x.cancelAfter?, x.cancelAt? with
  | none, _ => w.block
  | some time, none =>
    let w := w.setCaller { x with cancelAt? := some (w.now + time) }
    if time = 0 then w else (w.setTimer (w.now + time) (.call x.id)).block
  | some _, some moment =>
    if moment ≤ w.now then
      match w.host with
      | .client c => w.onClient c (.cancel x.id)
      | .link l holder? =>
        match l.step .abandon with
        | some (l', effects) =>
          let w := effects.foldl (noticeLinkEffect holder?) { w with host := .link l' none }
          w.record x.id .cancelled
        | none => (w.record x.id .cancelled).block
    else w.block

/-- Ends the turn of a call that waits in its exchange, unless its time is up. -/
def stepExchangeWaiting (x : Caller) (l : Link) (w : World) : World :=
  match l.requestTimeout?, x.limitAt? with
  | none, _ => w.stepWaiting x
  | some limit, none =>
    let moment := w.now + limit.milliseconds
    let x := { x with limitAt? := some moment }
    let w := w.setCaller x
    if moment ≤ w.now then w.onLink .expire
    else (w.setTimer moment (.call x.id)).stepWaiting x
  | some _, some moment => if moment ≤ w.now then w.onLink .expire else w.stepWaiting x

/-- A step of a call that has an exchange. -/
def stepExchange (caller : Caller) (l : Link) (x : Exchange) (w : World) : World :=
  if x.sent < x.frame.length then
    if w.pipe.fails .write ∨ !w.pipe.peerOpen then w.onLink .writeFault
    else if w.pipe.roomToPeer = 0 then
      { w with callWaits? := some caller.id }.stepExchangeWaiting caller l
    else
      let count := min w.pipe.roomToPeer (x.frame.length - x.sent)
      let bytes := (x.frame.drop x.sent).take count
      let pipe := { w.pipe with toPeer := w.pipe.toPeer ++ bytes }
      ({ w with pipe }.wakePeer).onLink (.accept count)
  else if !x.flushed then
    if w.pipe.fails .flush then w.onLink .writeFault else w.onLink .flush
  else if l.collectable?.isSome then w.onLink .collect
  else w.stepExchangeWaiting caller l

/-- What becomes of an attempt to connect.  Nobody listens in a rehearsal. -/
def dial (config : Config) (credentials? : Option Credentials) (files : Files) :
    Except Error Unit :=
  match Tls.prepareWith files.read config credentials? with
  | .error e => .error e
  | .ok _ => .error (.io .refused)

/-- A step of a call that holds the gate of a client. -/
def stepHolder (caller : Caller) (c : Client) (w : World) : World :=
  match c.job? caller.id, c.link? with
  | some (.exchange _ _), some l =>
    match l.exchange? with
    | some x => w.stepExchange caller l x
    | none => w.onClient c (.act caller.id)
  | some (.connect credentials?), _ =>
    if c.isLive then w.onClient c (.act caller.id)
    else w.onClient c (.dialed caller.id (dial c.config credentials? w.files))
  | some .close, some _ =>
    let w := w.onClient c (.act caller.id)
    match w.host with
    | .client c => w.shutPipe.onClient c (.finishShutdown caller.id)
    | _ => w
  | _, _ => w.onClient c (.act caller.id)

/-- A step of a call to a client. -/
def stepRequest (caller : Caller) (request : Request) (c : Client) (w : World) : World :=
  if !caller.started then
    (w.setCaller { caller with started := true }).onClient c (.issue caller.id request)
  else
    match c.gate with
    | .granted next _ =>
      if next = caller.id then w.onClient c (.resume next) else w.stepWaiting caller
    | .held holder _ => if holder = caller.id then w.stepHolder caller c else w.stepWaiting caller
    | .free => w.block

/-- A step of a call to a bare link. -/
def stepFrame (caller : Caller) (frame : Bytes) (l : Link) (w : World) : World :=
  if !caller.started then
    match l.step (.begin frame) with
    | some (l', effects) =>
      (w.setCaller { caller with started := true }).afterLink l l' (some caller.id) effects
    | none => w.block
  else
    match l.exchange? with
    | some x => w.stepExchange caller l x
    | none => w.block

/-- A step of a call. -/
def stepCall (id : CallId) (w : World) : World :=
  match w.outcome? id, w.caller? id with
  | none, some caller =>
    match caller.matter, w.host with
    | .request r, .client c => w.stepRequest caller r c
    | .frame bytes, .link l _ => w.stepFrame caller bytes l
    | _, _ => w.block
  | _, _ => w.block

/-! ## Turns of a chore -/

/-- A step of a chore whose moment has come. -/
def stepErrand (x : Chore) (w : World) : World :=
  match x.errand with
  | .send bytes =>
    if bytes.isEmpty ∨ !w.pipe.peerOpen ∨ !w.pipe.clientOpen then w.record x.id .done
    else if w.pipe.roomToClient = 0 then
      { w with sendersWait := w.sendersWait ++ [Task.chore x.id] }.block
    else
      let (w, left) := w.sendSome bytes
      w.setChore { x with errand := .send left }
  | .hangUp => w.dropPeer.record x.id .done
  | .fault kind => (w.breakPipe kind).record x.id .done
  | .closeLink => (w.onLink .close).record x.id .done
  | .shutDownLink => (((w.onLink .beginShutdown).shutPipe).onLink .finishShutdown).record x.id .done
  | .pause => w.record x.id .done

/-- A step of a chore. -/
def stepChore (id : CallId) (w : World) : World :=
  match w.outcome? id, w.chores.find? (·.id == id) with
  | none, some x =>
    match x.startAt? with
    | some moment => if moment ≤ w.now then w.stepErrand x else w.block
    | none =>
      let w := w.setChore { x with startAt? := some (w.now + x.delay) }
      if x.delay = 0 then w else (w.setTimer (w.now + x.delay) (.chore id)).block
  | _, _ => w.block

/-! ## Going on -/

/-- A step of a task. -/
def stepTask (w : World) : Task → World
  | .call id => w.stepCall id
  | .reader => w.stepReader
  | .peer => w.stepPeer
  | .chore id => w.stepChore id

/-- Moves on to a moment, and wakes what waits for it. -/
def moveTo (moment : Nat) (w : World) : World :=
  let due := w.timers.filter fun (timer : Nat × Task) => timer.1 ≤ moment
  let later := w.timers.filter fun (timer : Nat × Task) => moment < timer.1
  { w with now := moment, timers := later }.wakeAll (due.map Prod.snd)

/-- How many steps a rehearsal takes before it is given up. -/
def patience : Nat := 100000000

/-- Goes on until there is nothing in the queue and `stop` says that this is enough; time moves on
no further than `limit?`. -/
def goOn (stop : World → Bool) (limit? : Option Nat) : Nat → World → World
  | 0, w => w
  | steps + 1, w =>
    match w.running? with
    | some t => goOn stop limit? steps (w.stepTask t)
    | none =>
      match w.queue with
      | t :: queue => goOn stop limit? steps { w with queue, running? := some t }
      | [] =>
        if stop w then w
        else
          match w.timers with
          | [] => w
          | (moment, _) :: _ =>
            match limit? with
            | some limit =>
              if limit ≤ moment then w else goOn stop limit? steps (w.moveTo moment)
            | none => goOn stop limit? steps (w.moveTo moment)

/-- Goes on until calls and chores have come to something. -/
def await (ids : List CallId) (w : World) : World :=
  goOn (fun w => ids.all fun id => (w.outcome? id).isSome) none patience w

/-- Lets milliseconds pass.  What waits for the last of them is woken, but has not had its turn. -/
def rest (time : Nat) (w : World) : World :=
  let moment := w.now + time
  (goOn (fun _ => false) (some moment) patience w).moveTo moment

end World

end KvClient.Rehearsal
