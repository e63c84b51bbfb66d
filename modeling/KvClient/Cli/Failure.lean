import KvClient.Cli.Line
import KvClient.Error
import KvClient.Files

/-!
# How a command fails

A failure is told in one line: what was tried, and behind it each cause in turn.
-/

namespace KvClient.Cli

/-- Why a command fails. -/
inductive Failure
  | emptyKey
  /-- One argument for `set`, and no value in it. -/
  | missingValue (argument : String)
  | unreadable (path : String) (fault : SystemFault)
  | unreadableInput (fault : SystemFault)
  | unwritable (path : String) (fault : SystemFault)
  | failed (verb : Verb) (e : Error)
  | unreachable (endpoint : String) (e : Error)

namespace Failure

/-- What was tried, and the causes, the outermost first. -/
def chain : Failure → List String
  | .emptyKey => ["key must not be empty"]
  | .missingValue argument => [s!"missing value for key '{argument}'"]
  | .unreadable path fault => [s!"failed to read {path}", fault.message]
  | .unreadableInput fault => ["failed to read stdin", fault.message]
  | .unwritable path fault => [s!"failed to write {path}", fault.message]
  | .failed verb e => s!"{verb.text} failed" :: e.chain
  | .unreachable endpoint e => s!"failed to connect to {endpoint}" :: e.chain

/-- The wording of a failure. -/
def message (f : Failure) : String := ": ".intercalate f.chain

/-- The line in which a failure is told. -/
def report (f : Failure) : String := "Error: " ++ f.message ++ "\n"

end Failure

end KvClient.Cli
