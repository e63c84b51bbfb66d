import KvClient.Cli.Execution
import KvClient.Tls.Setup

/-!
# The program

Reads the command line and the environment, and prepares a connection.  There is no transport behind
it: a connection that is prepared is not opened, and the program says so.
-/

namespace KvClient.Cli

/-- The fault that a number of the system stands for. -/
def faultOfNumber (number : UInt32) (text : String) : SystemFault :=
  match number with
  | 2 => .notFound
  | 20 => .notDirectory
  | 21 => .isDirectory
  | 36 => .nameTooLong
  | _ => .other text

/-- The fault behind an error of the system. -/
def faultOfError (e : IO.Error) : SystemFault :=
  match e with
  | .noFileOrDirectory _ number _ => faultOfNumber number (toString e)
  | .inappropriateType _ number _ => faultOfNumber number (toString e)
  | .invalidArgument _ number _ => faultOfNumber number (toString e)
  | .resourceExhausted _ number _ => faultOfNumber number (toString e)
  | e => .other (toString e)

/-- Reads a file. -/
def readSystemFile (path : String) : IO (Except SystemFault Bytes) := do
  try return .ok (← IO.FS.readBinFile path).toList
  catch e => return .error (faultOfError e)

/-- Reads files, so that they can be looked up by their paths. -/
def readSystemFiles (paths : List String) : IO FileReader := do
  let contents ← paths.mapM fun path => return (path, ← readSystemFile path)
  return fun path => (contents.lookup path).getD (.error .notFound)

/-- The variables of the environment that are settings. -/
def readEnvironment : IO Environment := do
  let names := Setting.ofProgram.filterMap Setting.environmentName?
  let values ← names.mapM fun name => return (← IO.getEnv name).map (name, ·)
  return values.filterMap id

/-- How the program is used. -/
def usage : String :=
  "Usage: keyval [OPTIONS] <COMMAND>\n\n" ++
    "Commands: " ++ ", ".intercalate programLevel.commands ++ "\n"

/-- Prints an outcome. -/
def Outcome.print (o : Outcome) : IO UInt32 := do
  let out ← IO.getStdout
  out.write ⟨o.stdout.toArray⟩
  out.flush
  IO.eprint o.stderr
  return o.exitCode.toUInt32

/-- Carries out a command line. -/
def runLine (line : Line) : IO UInt32 := do
  let c := line.config
  let read ← readSystemFiles [c.keyPath, c.certificatePath, c.authorityPath]
  let e := match Tls.prepareWith read c none with
    | .error e => e
    | .ok _ => .io (.other "no transport for secure connections")
  Outcome.print (.failure (.unreachable c.endpoint e) (.ofList []))

end KvClient.Cli

/-- Runs the program. -/
def main (args : List String) : IO UInt32 := do
  match KvClient.Cli.Line.parse (← KvClient.Cli.readEnvironment) args with
  | .ok line => KvClient.Cli.runLine line
  | .error .help =>
    IO.print KvClient.Cli.usage
    return 0
  | .error r =>
    IO.eprint KvClient.Cli.usage
    return r.exitCode.toUInt32
