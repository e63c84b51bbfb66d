import KvClient.Cli.Scan

/-!
# Command lines

A command line is a configuration and one command.  The arguments of the command are read before
the last setting of the program is checked, and the environment is looked at after that, for what
has not been set.
-/

namespace KvClient.Cli

/-! ## Commands -/

/-- The commands. -/
inductive Verb
  | get
  | set
  | del
  /-- Loads entries from a document. -/
  | load
  /-- Dumps all entries as a document. -/
  | dump
  deriving Repr, DecidableEq

namespace Verb

/-- The name of a command. -/
def text : Verb → String
  | .get => "get"
  | .set => "set"
  | .del => "del"
  | .load => "import"
  | .dump => "export"

/-- All commands. -/
def all : List Verb := [.get, .set, .del, .load, .dump]

/-- The command of a name. -/
def ofText? (name : String) : Option Verb := all.find? (·.text == name)

/-- What may stand behind the name of a command. -/
def level : Verb → Level
  | .get | .del => ⟨[], [], 1⟩
  | .set => ⟨[], [], 2⟩
  | .load | .dump => ⟨[.file], [], 0⟩

end Verb

/-- A command with its arguments. -/
inductive Instruction
  | get (key : String)
  /-- Without a value, the key holds both. -/
  | set (key : String) (value? : Option String)
  | del (key : String)
  | load (file? : Option String)
  | dump (file? : Option String)
  deriving Repr, DecidableEq

namespace Instruction

/-- The command of an instruction. -/
def verb : Instruction → Verb
  | .get _ => .get
  | .set _ _ => .set
  | .del _ => .del
  | .load _ => .load
  | .dump _ => .dump

/-- The instruction that a command and its arguments make. -/
def ofScan (verb : Verb) (s : Scan) : Except Refusal Instruction :=
  match verb, s.operands with
  | .get, [key] => .ok (.get key)
  | .set, [key] => .ok (.set key none)
  | .set, [key, value] => .ok (.set key (some value))
  | .del, [key] => .ok (.del key)
  | .load, _ => .ok (.load s.options.file?)
  | .dump, _ => .ok (.dump s.options.file?)
  | _, _ => .error .missingArgument

/-- Reads the arguments of a command. -/
def read (verb : Verb) (args : List String) : Except Refusal Instruction :=
  match Scan.start.scan verb.level args with
  | .error r => .error r
  | .ok (s, _) =>
    match s.settle with
    | .error r => .error r
    | .ok s => ofScan verb s

end Instruction

/-! ## Lines -/

/-- The word that asks for help about a command. -/
def helpName : String := "help"

/-- What may stand in front of the name of a command. -/
def programLevel : Level := ⟨Setting.ofProgram, helpName :: Verb.all.map Verb.text, 0⟩

/-- What comes of asking for help about something. -/
def helpAbout : List String → Refusal
  | [] => .help
  | [name] => if programLevel.commands.contains name then .help else .unknownCommand
  | _ => .unknownCommand

/-- Variables and their values. -/
abbrev Environment := List (String × String)

/-- The value of a variable. -/
def Environment.value? (e : Environment) (name : String) : Option String :=
  (e.find? (·.1 == name)).map (·.2)

/-- Looks into the environment for settings that have not been made. -/
def lookUp (e : Environment) (s : Scan) : List Setting → Except Refusal Scan
  | [] => .ok s
  | x :: rest =>
    match if s.given.contains x then none else x.environmentName?.bind e.value? with
    | none => lookUp e s rest
    | some value =>
      match s.set x value with
      | .error r => .error r
      | .ok s => lookUp e s rest

/-- The settings of the program when all arguments are read. -/
def conclude (e : Environment) (s : Scan) : Except Refusal Scan :=
  match s.settle with
  | .error r => .error r
  | .ok s => lookUp e s Setting.ofProgram

/-- A command line. -/
structure Line where
  config : Config
  instruction : Instruction
  deriving Repr, DecidableEq

/-- Reads a command line. -/
def Line.parse (e : Environment) (args : List String) : Except Refusal Line :=
  match Scan.start.scan programLevel args with
  | .error r => .error r
  | .ok (s, []) =>
    match conclude e s with
    | .error r => .error r
    | .ok s => .error (if s.given.isEmpty then .nothingGiven else .missingCommand)
  | .ok (s, name :: rest) =>
    match Verb.ofText? name with
    | none => .error (helpAbout rest)
    | some verb =>
      match Instruction.read verb rest with
      | .error r => .error r
      | .ok instruction =>
        match conclude e s with
        | .error r => .error r
        | .ok s => .ok ⟨s.options.config, instruction⟩

/-! ## Laws -/

theorem Verb.ofText?_text (v : Verb) : ofText? v.text = some v := by
  cases v <;> decide +kernel

theorem Instruction.verb_ofScan {v : Verb} {s : Scan} {i : Instruction} (h : ofScan v s = .ok i) :
    i.verb = v := by
  unfold ofScan at h
  split at h <;> simp_all [verb] <;> (subst h; rfl)

end KvClient.Cli
