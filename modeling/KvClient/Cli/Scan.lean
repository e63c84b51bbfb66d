import KvClient.Cli.Setting
import KvClient.Text.Split

/-!
# Scanning arguments

Arguments are read from left to right, first those of the program up to the name of a command, then
those of the command.  A setting may carry its value (`--port=7`, `-p7`, `-p=7`) or be followed by
it (`--port 7`, `-p 7`).

## When a value is checked

A value that a setting carries is checked at once.  One that follows is kept (`Scan.pending?`) until
the next setting, or until all arguments are read; a complaint about an argument in between comes
first.

## How it ends

Each step takes one argument (`scan`).
-/

namespace KvClient.Cli

/-! ## Words -/

/-- What an argument looks like. -/
inductive Word
  /-- The mark behind which everything is an operand. -/
  | mark
  | long (name : String) (value? : Option String)
  | short (letter : Char) (rest : List Char)
  | plain
  deriving Repr, DecidableEq

/-- What an argument looks like. -/
def Word.ofArgument (arg : String) : Word :=
  match arg.toList with
  | ['-', '-'] => .mark
  | '-' :: '-' :: name =>
    match Text.splitFirst? '=' name with
    | some (before, behind) => .long (String.ofList before) (some (String.ofList behind))
    | none => .long (String.ofList name) none
  | '-' :: letter :: rest => .short letter rest
  | _ => .plain

/-! ## Levels -/

/-- What may stand at one level: in front of the name of a command, or behind it. -/
structure Level where
  settings : List Setting
  /-- The commands that can be named. -/
  commands : List String
  /-- How many operands there is room for. -/
  places : Nat

/-- How far the arguments of a level have been read. -/
structure Scan where
  options : Options
  /-- What has been set. -/
  given : List Setting
  /-- The setting whose value was to follow, and the value if it has. -/
  pending? : Option (Setting × Option String)
  operands : List String
  /-- Whether the mark has been passed. -/
  isMarked : Bool

namespace Scan

/-- Nothing has been read. -/
def start : Scan := ⟨.default, [], none, [], false⟩

/-- A setting gets a value. -/
def set (s : Scan) (x : Setting) (value : String) : Except Refusal Scan :=
  if s.given.contains x then .error .setTwice
  else
    match s.options.set x value with
    | .error r => .error r
    | .ok options => .ok { s with options, given := x :: s.given }

/-- The setting whose value was to follow gets it. -/
def settle (s : Scan) : Except Refusal Scan :=
  match s.pending? with
  | none => .ok s
  | some (_, none) => .error .missingValue
  | some (x, some value) => { s with pending? := none }.set x value

/-- A setting is met that carries a value, or whose value is to follow. -/
def meet (s : Scan) (x : Setting) (value? : Option String) : Except Refusal Scan :=
  match s.settle with
  | .error r => .error r
  | .ok s =>
    match value? with
    | some value => s.set x value
    | none => .ok { s with pending? := some (x, none) }

/-- Help is asked for. -/
def askHelp (s : Scan) : Except Refusal Scan :=
  match s.settle with
  | .error r => .error r
  | .ok _ => .error .help

/-- The setting that waits for its value. -/
def waiting? (s : Scan) : Option Setting :=
  match s.pending? with
  | some (x, none) => if s.isMarked then none else some x
  | _ => none

/-- An argument that is neither a setting nor a value. -/
def operand (s : Scan) (level : Level) (arg : String) : Except Refusal Scan :=
  if s.operands.length < level.places then .ok { s with operands := s.operands ++ [arg] }
  else if level.commands.isEmpty ∨ s.isMarked ∧ level.commands.contains arg then
    .error .unknownArgument
  else .error .unknownCommand

/-- The value that letters behind the letter of a setting make. -/
def carried? : List Char → Option String
  | [] => none
  | '=' :: value => some (String.ofList value)
  | value => some (String.ofList value)

/-- An argument in front of the mark. -/
def read (s : Scan) (level : Level) (arg : String) : Except Refusal Scan :=
  match Word.ofArgument arg with
  | .mark => .ok { s with isMarked := true }
  | .long "help" none => s.askHelp
  | .long "help" (some _) => .error .needlessValue
  | .long name value? =>
    match level.settings.find? (·.longNames.contains name) with
    | none => .error .unknownArgument
    | some x => s.meet x value?
  | .short 'h' _ => s.askHelp
  | .short letter rest =>
    match level.settings.find? (·.letter? == some letter) with
    | none => .error .unknownArgument
    | some x => s.meet x (carried? rest)
  | .plain =>
    match s.waiting? with
    | some x => .ok { s with pending? := some (x, some arg) }
    | none => s.operand level arg

/-- Reads the arguments of a level, up to the name of a command.  Gives back that name and what
stands behind it. -/
def scan (level : Level) (s : Scan) : List String → Except Refusal (Scan × List String)
  | [] => .ok (s, [])
  | arg :: rest =>
    if s.isMarked then
      match s.operand level arg with
      | .error r => .error r
      | .ok s => scan level s rest
    else if s.waiting?.isNone ∧ level.commands.contains arg then .ok (s, arg :: rest)
    else
      match s.read level arg with
      | .error r => .error r
      | .ok s => scan level s rest

end Scan

end KvClient.Cli
