import KvClient.Config

/-!
# Settings

What can be set on the command line or in the environment, and how a value is read.  A value is
checked as soon as it is known which setting it belongs to.
-/

namespace KvClient.Cli

/-- Why a command line is not carried out. -/
inductive Refusal
  /-- It asks for help. -/
  | help
  /-- It is empty, and nothing is set in the environment either. -/
  | nothingGiven
  /-- It sets something but names no command. -/
  | missingCommand
  | missingArgument
  | unknownArgument
  | unknownCommand
  /-- A setting without a value, or with an empty path. -/
  | missingValue
  /-- A number that is none, or too large. -/
  | badNumber
  | setTwice
  /-- A value for something that takes none. -/
  | needlessValue
  deriving Repr, DecidableEq

/-- The exit code of a refused command line. -/
def Refusal.exitCode : Refusal → Nat
  | .help => 0
  | _ => 2

/-- What can be set. -/
inductive Setting
  | host
  | port
  | serverName
  | certificate
  | key
  | authority
  | timeout
  /-- The file of a command. -/
  | file
  deriving Repr, DecidableEq

namespace Setting

/-- The settings in front of the command. -/
def ofProgram : List Setting :=
  [.host, .port, .serverName, .certificate, .key, .authority, .timeout]

/-- The long names of a setting. -/
def longNames : Setting → List String
  | .host => ["host"]
  | .port => ["port"]
  | .serverName => ["server-name"]
  | .certificate => ["cert"]
  | .key => ["key"]
  | .authority => ["ca", "CAcert"]
  | .timeout => ["timeout"]
  | .file => ["file"]

/-- The letter of a setting. -/
def letter? : Setting → Option Char
  | .host => none
  | .port => some 'p'
  | .serverName => none
  | .certificate => some 'c'
  | .key => some 'k'
  | .authority => some 'r'
  | .timeout => some 't'
  | .file => some 'f'

/-- The variable of a setting. -/
def environmentName? : Setting → Option String
  | .host => some "KEYVAL_HOST"
  | .port => some "KEYVAL_PORT"
  | .serverName => some "KEYVAL_SERVER_NAME"
  | .certificate => some "KEYVAL_CERT"
  | .key => some "KEYVAL_KEY"
  | .authority => some "KEYVAL_CA"
  | .timeout => some "KEYVAL_TIMEOUT"
  | .file => none

end Setting

/-! ## Values -/

/-- The number that a run of digits spells. -/
def number? (ds : List Char) : Option Nat :=
  if ds.isEmpty ∨ !ds.all Char.isDigit then none else some (Decimal.ofDigits ds)

/-- A port.  It may have a sign. -/
def port? (value : String) : Option Nat :=
  match value.toList with
  | '+' :: ds => (number? ds).filter (· < 0x10000)
  | '-' :: ds => (number? ds).filter (· = 0)
  | ds => (number? ds).filter (· < 0x10000)

/-- A count of seconds.  It may have a plus sign. -/
def seconds? (value : String) : Option Nat :=
  match value.toList with
  | '+' :: ds => (number? ds).filter (· < 0x10000000000000000)
  | ds => (number? ds).filter (· < 0x10000000000000000)

/-- A path, which must not be empty. -/
def path? (value : String) : Option String := if value.isEmpty then none else some value

/-! ## Options -/

/-- What the settings amount to. -/
structure Options where
  config : Config
  /-- The file of a command. -/
  file? : Option String
  deriving Repr, DecidableEq

namespace Options

/-- How many seconds connecting and each exchange may take, unless told otherwise. -/
def defaultTimeout : Nat := 20

/-- A configuration with one limit for connecting and for each exchange. -/
def withTimeout (c : Config) (seconds : Nat) : Config :=
  { c with
    connectTimeout? := some (.ofSeconds seconds)
    requestTimeout? := some (.ofSeconds seconds) }

/-- The options before anything is set. -/
def default : Options := ⟨withTimeout .default defaultTimeout, none⟩

/-- The options with one setting changed. -/
def set (o : Options) (s : Setting) (value : String) : Except Refusal Options :=
  let c := o.config
  match s with
  | .host => .ok { o with config := { c with host := value } }
  | .serverName => .ok { o with config := { c with serverName? := some value } }
  | .port =>
    match port? value with
    | none => .error .badNumber
    | some n => .ok { o with config := { c with port := n } }
  | .timeout =>
    match seconds? value with
    | none => .error .badNumber
    | some n => .ok { o with config := withTimeout c n }
  | .certificate =>
    match path? value with
    | none => .error .missingValue
    | some p => .ok { o with config := { c with certificatePath := p } }
  | .key =>
    match path? value with
    | none => .error .missingValue
    | some p => .ok { o with config := { c with keyPath := p } }
  | .authority =>
    match path? value with
    | none => .error .missingValue
    | some p => .ok { o with config := { c with authorityPath := p } }
  | .file =>
    match path? value with
    | none => .error .missingValue
    | some p => .ok { o with file? := some p }

end Options

end KvClient.Cli
