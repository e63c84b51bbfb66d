import KvClient.Cli.Execution
import KvClient.Rehearsal.Session

/-!
# The program in rehearsal

A command is carried out over a pipe to a peer, in place of a connection, and the client is closed
behind it.  A whole run ends where it would open a connection, since nobody listens.
-/

namespace KvClient.Rehearsal

open Cli

/-- Asks the client for something and closes it. -/
def askAndClose (w : World) (request : Request) : World × Option Outcome :=
  let ask : Step := ⟨[.call (.request request) none], []⟩
  let close : Step := ⟨[.call (.request .close) none], []⟩
  let (w, views) := w.perform [ask, close]
  (w, (views.head?.bind (·.results.head?)).join)

/-- Carries out a command over a pipe. -/
def execute (line : Line) (sources : Sources) (manner : Manner) : Cli.Outcome × World :=
  let w := World.ofClient line.config manner World.defaultCapacity sources.files
  match line.instruction.request sources with
  | .error f => (.failure f sources.files, w)
  | .ok request =>
    match askAndClose w request with
    | (w, some (.reply result)) => (line.instruction.conclude sources.files result, w)
    | (w, _) => (.silent sources.files, w)

/-- Runs the program up to the connection. -/
def runProgram (line : Line) (files : Files) : Cli.Outcome :=
  match World.dial line.config none files with
  | .error e => .failure (.unreachable line.config.endpoint e) files
  | .ok () => .silent files

end KvClient.Rehearsal
