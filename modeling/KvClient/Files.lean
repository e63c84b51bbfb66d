import KvClient.Text.Split
import KvClient.Text.Utf8

/-!
# Files

Files and directories under one root, and the paths that lead to them, from the root or from where
the program runs.  A path is walked one name at a time; the first name that leads nowhere decides how
the walk fails.  There are no links and no devices, and whatever stands somewhere may be read and
written.

* **What was put at a place stands there**: `Files.node?_put`.
-/

namespace KvClient

/-- Why the system refused. -/
inductive SystemFault
  | notFound
  | notDirectory
  | isDirectory
  | nameTooLong
  /-- A name with a zero in it. -/
  | nulInName
  /-- Bytes that should have been text. -/
  | notText
  /-- Nobody listens. -/
  | refused
  | other (text : String)
  deriving Repr, DecidableEq

/-- The wording of a fault. -/
def SystemFault.message : SystemFault → String
  | .notFound => "No such file or directory (os error 2)"
  | .notDirectory => "Not a directory (os error 20)"
  | .isDirectory => "Is a directory (os error 21)"
  | .nameTooLong => "File name too long (os error 36)"
  | .nulInName => "file name contained an unexpected NUL byte"
  | .notText => "stream did not contain valid UTF-8"
  | .refused => "Connection refused (os error 111)"
  | .other text => text

/-- How a file is read, given its path. -/
abbrev FileReader := String → Except SystemFault Bytes

/-- The names on the way from the root to a place. -/
abbrev FilePath := List String

/-- What the root holds, and where in it the program runs.  A directory with something in it need not
be listed, nor need the one where the program runs. -/
structure Files where
  /-- Contents of files, and `none` for directories. -/
  nodes : List (FilePath × Option Bytes)
  /-- The working directory. -/
  here : FilePath

namespace Files

/-! ## Places -/

/-- What stands at some place. -/
inductive Node
  | file (content : Bytes)
  | directory
  deriving Repr, DecidableEq

/-- Whether something stands at a place or below it, or the program runs there. -/
def isAbove (files : Files) (place : FilePath) : Bool :=
  place.isPrefixOf files.here || files.nodes.any fun n => place.isPrefixOf n.1

/-- What stands at a place. -/
def node? (files : Files) (place : FilePath) : Option Node :=
  match files.nodes.find? (·.1 == place) with
  | some (_, some content) => some (.file content)
  | some (_, none) => some .directory
  | none => if files.isAbove place then some .directory else none

/-- The longest name, in bytes. -/
def maxNameSize : Nat := 255

/-- The longest path, in bytes. -/
def maxPathSize : Nat := 4095

/-- One step of a walk; `none` if nothing stands there.  Above the root is the root. -/
def step (files : Files) (place : FilePath) (name : String) :
    Except SystemFault (Option FilePath) :=
  match files.node? place with
  | some .directory =>
    if (Utf8.encode name).length > maxNameSize then .error .nameTooLong
    else if name = "." then .ok (some place)
    else if name = ".." then .ok (some place.dropLast)
    else if (files.node? (place ++ [name])).isSome then .ok (some (place ++ [name]))
    else .ok none
  | _ => .error .notDirectory

/-- A walk along names that must all be there. -/
def walk (files : Files) (place : FilePath) : FilePath → Except SystemFault FilePath
  | [] => .ok place
  | name :: rest =>
    match files.step place name with
    | .error fault => .error fault
    | .ok none => .error .notFound
    | .ok (some next) => files.walk next rest

/-- A path, taken apart. -/
structure Route where
  /-- Whether it leads from the root, and not from where the program runs. -/
  absolute : Bool
  names : FilePath
  /-- Whether the path says that a directory is meant. -/
  directory : Bool

/-- Takes a path apart. -/
def route (path : String) : Except SystemFault Route :=
  let size := (Utf8.encode path).length
  let pieces := Text.splitOn '/' path.toList
  if path.toList.contains (Char.ofNat 0) then .error .nulInName
  else if size = 0 then .error .notFound
  else if size > maxPathSize then .error .nameTooLong
  else
    .ok
      { absolute := path.toList.head? = some '/'
        names := (pieces.filter (!·.isEmpty)).map String.ofList
        directory := pieces.getLast? = some [] }

/-- Where a route starts. -/
def start (files : Files) (r : Route) : FilePath := if r.absolute then [] else files.here

/-- Where a route leads. -/
def find (files : Files) (r : Route) : Except SystemFault FilePath :=
  files.walk (files.start r) r.names

/-! ## Reading and writing -/

/-- What is read at the end of a route. -/
def contentAt (files : Files) (r : Route) (place : FilePath) : Except SystemFault Bytes :=
  match files.node? place with
  | some (.file content) => if r.directory then .error .notDirectory else .ok content
  | _ => .error .isDirectory

/-- The content of a file. -/
def read (files : Files) (path : String) : Except SystemFault Bytes :=
  match route path with
  | .error fault => .error fault
  | .ok r =>
    match files.find r with
    | .error fault => .error fault
    | .ok place => files.contentAt r place

/-- The text of a file. -/
def readText (files : Files) (path : String) : Except SystemFault String :=
  match files.read path with
  | .error fault => .error fault
  | .ok content =>
    match Utf8.decode content with
    | .error _ => .error .notText
    | .ok text => .ok text

/-- The place of a file that is written in a directory, new or not. -/
def destinationIn (files : Files) (place : FilePath) (name : String) :
    Except SystemFault FilePath :=
  match files.step place name with
  | .error fault => .error fault
  | .ok none => .ok (place ++ [name])
  | .ok (some next) =>
    match files.node? next with
    | some (.file _) => .ok next
    | _ => .error .isDirectory

/-- The place of a file that is written. -/
def destination (files : Files) (path : String) : Except SystemFault FilePath :=
  match route path with
  | .error fault => .error fault
  | .ok r =>
    match r.names.getLast? with
    | none => .error .isDirectory
    | some name =>
      match files.walk (files.start r) r.names.dropLast with
      | .error fault => .error fault
      | .ok place =>
        if files.node? place ≠ some .directory then .error .notDirectory
        else if r.directory then .error .isDirectory
        else files.destinationIn place name

/-- The files with other content at a place. -/
def put (files : Files) (place : FilePath) (content : Bytes) : Files :=
  { files with nodes := (place, some content) :: files.nodes.filter (·.1 != place) }

/-- The files after a file was written. -/
def write (files : Files) (path : String) (content : Bytes) : Except SystemFault Files :=
  match files.destination path with
  | .error fault => .error fault
  | .ok place => .ok (files.put place content)

/-- The content of a file, if it can be read. -/
def content? (files : Files) (path : String) : Option Bytes :=
  match files.read path with
  | .ok content => some content
  | .error _ => none

/-- A working directory that holds the files of a list. -/
def ofList (entries : List (String × Option Bytes)) : Files :=
  let here := ["tmp", "work"]
  { nodes := entries.map fun (name, content) =>
      (here ++ ((Text.splitOn '/' name.toList).filter (!·.isEmpty)).map String.ofList, content)
    here }

theorem node?_put (files : Files) (place : FilePath) (content : Bytes) :
    (files.put place content).node? place = some (.file content) := by
  simp [put, node?]

end Files

end KvClient
