import KvClient.Rehearsal.Turns

/-!
# Sessions

A session is a list of steps.  The parts of a step start together, in order, and the step is over
when all of them have come to something.  Then a while passes in which the others can finish what
they do, and then the world is looked at.

* **One view for each step**: `length_perform`.
-/

namespace KvClient.Rehearsal

/-! ## Steps -/

/-- A part of a step. -/
inductive Part
  /-- A call, and after how many milliseconds it is called off. -/
  | call (matter : Matter) (cancelAfter? : Option Nat)
  /-- An errand, and after how many milliseconds it is done. -/
  | chore (errand : Errand) (delay : Nat)

/-- A step of a session. -/
structure Step where
  parts : List Part
  /-- What is started with the parts but not waited for. -/
  background : List Part

/-- What is seen after a step. -/
structure View where
  /-- What each part has come to, unless it never ends. -/
  results : List (Option Outcome)
  state : ConnectionState
  /-- How many frames the peer has read. -/
  frames : Nat

/-- The state that a look at the host finds. -/
def Host.state : Host → ConnectionState
  | .client c => c.state
  | .link l _ => if l.connected then .connected else .closed

namespace World

/-- Starts a part, and tells its number. -/
def start (p : Part) (w : World) : World × CallId :=
  let id := w.nextId
  let w := { w with nextId := id + 1 }
  match p with
  | .call matter cancelAfter? =>
    let caller : Caller := ⟨id, matter, cancelAfter?, false, none, none⟩
    ({ w with callers := caller :: w.callers }.wake (.call id), id)
  | .chore errand delay =>
    ({ w with chores := ⟨id, errand, delay, none⟩ :: w.chores }.wake (.chore id), id)

/-- Starts parts in order, and tells their numbers. -/
def startAll (w : World) : List Part → World × List CallId
  | [] => (w, [])
  | p :: rest =>
    let (w, id) := w.start p
    let (w, ids) := w.startAll rest
    (w, id :: ids)

/-- How many milliseconds pass before the world is looked at. -/
def pauseBeforeView : Nat := 50

/-- Performs a step. -/
def performStep (s : Step) (w : World) : World × View :=
  let (w, ids) := w.startAll s.parts
  let (w, _) := w.startAll s.background
  let w := w.await ids
  let results := ids.map w.outcome?
  let w := w.rest pauseBeforeView
  (w, ⟨results, w.host.state, w.peer.received.length⟩)

/-- Performs a session. -/
def perform (w : World) : List Step → World × List View
  | [] => (w, [])
  | s :: rest =>
    let (w, view) := w.performStep s
    let (w, views) := w.perform rest
    (w, view :: views)

/-! ## Laws -/

theorem length_perform (w : World) (steps : List Step) :
    (w.perform steps).2.length = steps.length := by
  induction steps generalizing w with
  | nil => rfl
  | cons s rest ih => simp [perform, ih]

/-! ## Worlds to begin with -/

/-- How many bytes a pipe holds in each direction, unless told otherwise. -/
def defaultCapacity : Nat := 65536

/-- A client that is connected by a pipe. -/
def ofClient (config : Config) (manner : Manner) (capacity : Nat) (files : Files) : World :=
  .new (.client (.withTransport config)) (.new capacity) (.new manner) files

/-- A client that is not connected. -/
def ofUnconnected (config : Config) (manner : Manner) (capacity : Nat) (files : Files) : World :=
  .new (.client (.new config)) (.abandoned capacity) (.new manner) files

/-- A bare link. -/
def ofLink (options : LinkOptions) (manner : Manner) (capacity : Nat) : World :=
  .new (.link (.new options) none) (.new capacity) (.new manner) (.ofList [])

end World

end KvClient.Rehearsal
