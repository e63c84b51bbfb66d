import KvClient.Gate
import KvClient.Link
import KvClient.Request

/-!
# The client

A client owns at most one link, and lets one caller at a time use it.  Callers may come at any time;
their requests are checked when they come, and carried out behind the gate, in the order of arrival.

## Events

Like a link, a client is a state that events take forward.  A caller issues a request, resumes when
the gate has been granted to it, and acts when it holds the gate; it may be called off wherever it
is.  What the transport and the reader do to the link are events of the link.

* A request that is refused by its check changes nothing.
* Closing does not wait for the gate with its first half: the link is closed at once, and the caller
  that holds the gate finds out by itself.
* A client lets go of a link that it finds closed after an exchange.
-/

namespace KvClient

/-- The number of a call. -/
abbrev CallId := Nat

/-- What a client has of a link. -/
inductive Session
  | unconnected
  | connected (link : Link)
  | closed

/-- A client. -/
structure Client where
  config : Config
  session : Session
  /-- Whether a handle is at hand that closes the link from outside the gate. -/
  hasCloser : Bool
  gate : Gate CallId
  /-- What the callers at the gate want. -/
  jobs : List (CallId × Job)

namespace Client

/-! ## Events and effects -/

/-- What can happen to a client. -/
inductive Event
  | issue (id : CallId) (request : Request)
  /-- A caller finds that the gate has been granted to it. -/
  | resume (id : CallId)
  /-- The caller that holds the gate sets about its job. -/
  | act (id : CallId)
  /-- Something happens to the link. -/
  | link (e : Link.Event)
  /-- The link of a caller that closes it is shut down. -/
  | finishShutdown (id : CallId)
  /-- A caller that connects has succeeded or failed. -/
  | dialed (id : CallId) (outcome : Except Error Unit)
  | cancel (id : CallId)

/-- What an event did. -/
inductive Effect
  | finished (id : CallId) (result : Except Error Reply)
  | cancelled (id : CallId)
  | link (e : Link.Effect)

/-! ## Making clients -/

/-- The limits of the links of a client. -/
def linkOptions (config : Config) : LinkOptions := ⟨config.requestTimeout?, config.maxResponseSize⟩

/-- A client that has never been connected. -/
def new (config : Config) : Client := ⟨config, .unconnected, false, .free, []⟩

/-- A client over a transport that is open already. -/
def withTransport (config : Config) : Client :=
  ⟨config, .connected (.new (linkOptions config)), true, .free, []⟩

/-! ## Views -/

/-- The link, if there is one. -/
def link? (c : Client) : Option Link :=
  match c.session with
  | .connected l => some l
  | _ => none

/-- Whether there is a link that can be used. -/
def isLive (c : Client) : Bool :=
  match c.link? with
  | some l => l.connected
  | none => false

/-- What a caller is told that asks for the state. -/
def state (c : Client) : ConnectionState :=
  match c.session with
  | .unconnected => .unconnected
  | .connected l => if l.connected then .connected else .closed
  | .closed => .closed

/-- What a caller wants. -/
def job? (c : Client) (id : CallId) : Option Job := (c.jobs.find? (·.1 == id)).map (·.2)

/-! ## Parts of a step -/

/-- A caller is done: it gives the gate back. -/
def finish (c : Client) (id : CallId) (result : Except Error Reply) : Client × List Effect :=
  ({ c with gate := c.gate.release id, jobs := c.jobs.filter (·.1 != id) }, [.finished id result])

/-- Closes the link from outside the gate, if that has not been done. -/
def takeCloser (c : Client) : Client × List Effect :=
  match c.hasCloser, c.session with
  | true, .connected l =>
    let (l', effects) := l.close
    ({ c with session := .connected l', hasCloser := false }, effects.map .link)
  | _, _ => ({ c with hasCloser := false }, [])

/-- Lets go of a link that is closed. -/
def letGo (c : Client) (l : Link) : Client :=
  if l.connected then { c with session := .connected l }
  else { c with session := .closed, hasCloser := false }

/-- The caller that holds the gate has its exchange behind it. -/
def complete (c : Client) (l : Link) (s : Settlement) : Option (Client × List Effect) :=
  match c.gate.holder? with
  | none => none
  | some id =>
    match c.job? id with
    | some (.exchange _ yield) => some ((c.letGo l).finish id (yield.result s))
    | _ => none

/-- What an exchange came to, if these are the effects of its end. -/
def returned? : List Link.Effect → Option Settlement
  | [] => none
  | .returned _ s :: _ => some s
  | .refused :: _ => some (.error .connectionClosed)
  | _ :: rest => returned? rest

/-- Whether an event of the link comes from the transport or the reader, or from the exchange as it
runs; the others are the client's own doing. -/
def isOutside : Link.Event → Bool
  | .begin _ | .abandon | .close | .beginShutdown | .finishShutdown => false
  | _ => true

/-- What an event of the link makes of the client. -/
def onLink (c : Client) (e : Link.Event) : Option (Client × List Effect) :=
  match c.session with
  | .connected l =>
    match l.step e with
    | none => none
    | some (l', effects) =>
      match returned? effects with
      | none => some ({ c with session := .connected l' }, effects.map .link)
      | some s =>
        match c.complete l' s with
        | none => none
        | some (c', more) => some (c', effects.map .link ++ more)
  | _ => none

/-! ## Steps -/

/-- A caller comes with a request. -/
def issue (c : Client) (id : CallId) (request : Request) : Client × List Effect :=
  match request.check with
  | .error e => (c, [.finished id (.error e)])
  | .ok job =>
    let (c', effects) := match job with
      | .close => c.takeCloser
      | _ => (c, [])
    ({ c' with gate := c'.gate.arrive id, jobs := (id, job) :: c'.jobs }, effects)

/-- The caller that holds the gate sets about its job. -/
def act (c : Client) (id : CallId) : Option (Client × List Effect) :=
  if c.gate.holder? = some id then
    match c.job? id, c.session with
    | some (.exchange command _), .connected _ => c.onLink (.begin command.encode)
    | some (.exchange _ _), _ => some (c.finish id (.error .connectionClosed))
    | some .state, _ => some (c.finish id (.ok (.state c.state)))
    | some .close, .connected _ => c.onLink .beginShutdown
    | some .close, _ => some ({ c with session := .closed }.finish id (.ok .done))
    | some (.connect _), _ => if c.isLive then some (c.finish id (.ok .done)) else none
    | none, _ => none
  else none

/-- The link of a caller that closes it is shut down. -/
def finishShutdown (c : Client) (id : CallId) : Option (Client × List Effect) :=
  if c.gate.holder? = some id then
    match c.job? id, c.session with
    | some .close, .connected l =>
      match l.step .finishShutdown with
      | none => none
      | some (_, effects) =>
        let (c', more) := { c with session := .closed }.finish id (.ok .done)
        some (c', effects.map .link ++ more)
    | _, _ => none
  else none

/-- A caller that connects has succeeded or failed. -/
def dialed (c : Client) (id : CallId) (outcome : Except Error Unit) :
    Option (Client × List Effect) :=
  if c.gate.holder? = some id ∧ !c.isLive then
    match c.job? id, outcome with
    | some (.connect _), .error e => some (c.finish id (.error e))
    | some (.connect _), .ok () =>
      some ({ c with session := .connected (.new (linkOptions c.config)), hasCloser := true }.finish
        id (.ok .done))
    | _, _ => none
  else none

/-- Ends the exchange of a caller that goes away, if it has one running. -/
def abandonExchange (c : Client) (id : CallId) : Client × List Effect :=
  match c.session with
  | .connected l =>
    if c.gate.holder? = some id then
      match l.step .abandon with
      | some (l', effects) => ({ c with session := .connected l' }, effects.map .link)
      | none => (c, [])
    else (c, [])
  | _ => (c, [])

/-- Calls a caller off.  If its exchange is running, the link is closed. -/
def cancel (c : Client) (id : CallId) : Option (Client × List Effect) :=
  match c.job? id with
  | none => none
  | some _ =>
    let (c', effects) := c.abandonExchange id
    some ({ c' with gate := c'.gate.cancel id, jobs := c'.jobs.filter (·.1 != id) },
      effects ++ [.cancelled id])

/-- What an event makes of a client; nothing if it cannot happen. -/
def step (c : Client) : Event → Option (Client × List Effect)
  | .issue id request => if (c.job? id).isSome then none else some (c.issue id request)
  | .resume id =>
    match c.gate with
    | .granted next _ => if next = id then some ({ c with gate := c.gate.resume id }, []) else none
    | _ => none
  | .act id => c.act id
  | .link e => if isOutside e then c.onLink e else none
  | .finishShutdown id => c.finishShutdown id
  | .dialed id outcome => c.dialed id outcome
  | .cancel id => c.cancel id

/-! ## Runs -/

/-- What a list of events makes of a client, and all that they did; nothing if one of them cannot
happen. -/
def run (c : Client) : List Event → Option (Client × List Effect)
  | [] => some (c, [])
  | e :: rest =>
    match c.step e with
    | none => none
    | some (c', effects) =>
      match c'.run rest with
      | none => none
      | some (c'', more) => some (c'', effects ++ more)

end Client

end KvClient
