/-
  The world of a run: what the command can see and change.

  It has files, the text of the standard input and of the standard output.  Directories are the
  working directory, those above it and the beginnings of places of files; of all others the root,
  `/dev` and `/tmp` are taken to exist, and `/dev` holds the devices.

  A path is walked name by name.  Every name but the last has to lead to a directory; a name that
  does not, or is too long to be looked up, is the fault, and the first one is reported.  The last
  name decides what is read or written.  A directory can be neither; a slash behind the last name
  keeps a file from being read, and keeps anything from being written.
-/
import GanttChart.Command.Place

namespace GanttChart.Command

/-- Why a file cannot be read or written. -/
inductive FileFault where
  | missing
  | isDirectory
  | notDirectory
  | nameTooLong
  | notText
  /-- Anything else, in the words of the system. -/
  | other (description : String)
  deriving DecidableEq

/-- The wording of a fault. -/
def FileFault.message : FileFault → String
  | .missing => "No such file or directory (os error 2)"
  | .isDirectory => "Is a directory (os error 21)"
  | .notDirectory => "Not a directory (os error 20)"
  | .nameTooLong => "File name too long (os error 36)"
  | .notText => "stream did not contain valid UTF-8"
  | .other description => description

/-- Files and standard streams. -/
structure World where
  files : List (Place × ByteArray) := []
  input : ByteArray := .empty
  output : String := ""

/-- What looks like a file, but is not kept in a directory. -/
inductive Device where
  /-- Empty, and swallows what is written. -/
  | null
  | input
  | output
  | error
  deriving DecidableEq

/-- What a place holds. -/
inductive Entry where
  | directory
  | file (content : ByteArray)
  | device (device : Device)

namespace World

/-! ## Places -/

/-- A place below the root. -/
def system (names : List String) : Place := { start := .root, names := names.map String.toList }

/-- The directories that exist below the root. -/
def systemDirectories : List Place := [system ["dev"], system ["tmp"]]

/-- The devices and their places. -/
def devices : List (Place × Device) :=
  [(system ["dev", "null"], .null), (system ["dev", "stdin"], .input),
    (system ["dev", "stdout"], .output), (system ["dev", "stderr"], .error)]

/-- What a place holds, if anything. -/
def entryAt? (world : World) (place : Place) : Option Entry :=
  if place.names.isEmpty || place ∈ systemDirectories then some .directory
  else
    match devices.lookup place with
    | some device => some (.device device)
    | none =>
      match world.files.lookup place with
      | some content => some (.file content)
      | none => if world.files.any fun file => place.isAbove file.1 then some .directory else none

/-! ## Walking a path -/

/-- The directory that a name in a directory leads to. -/
def step (world : World) (place : Place) (name : Name) : Except FileFault Place :=
  if name = dot then .ok place
  else if name = dots then .ok place.parent
  else if isTooLong name then .error .nameTooLong
  else
    match world.entryAt? (place.child name) with
    | some .directory => .ok (place.child name)
    | some _ => .error .notDirectory
    | none => .error .missing

/-- The directory that names lead to from another one. -/
def walk (world : World) (place : Place) : List Name → Except FileFault Place
  | [] => .ok place
  | name :: rest =>
    match world.step place name with
    | .ok place => world.walk place rest
    | .error fault => .error fault

/-- Where a path ends: at a directory that it does not name, or at a name in a directory. -/
inductive Ending where
  | directory
  | name (place : Place) (name : Name)
  deriving DecidableEq

/-- The end of a path, if its directories exist. -/
def ending (world : World) (path : Path) : Except FileFault Ending :=
  match path.names.getLast? with
  | none => .ok .directory
  | some last =>
    match world.walk path.start path.names.dropLast with
    | .error fault => .error fault
    | .ok place => if last = dot ∨ last = dots then .ok .directory else .ok (.name place last)

/-- The path that a text writes; an empty text writes none, and a long one is refused. -/
def path (text : String) : Except FileFault Path :=
  if text.isEmpty then .error .missing
  else if 4096 ≤ byteCount text.toList then .error .nameTooLong
  else .ok (.ofText text.toList)

/-! ## Reading and writing -/

/-- What a device gives to a reader. -/
def receive (world : World) : Device → ByteArray
  | .input => world.input
  | _ => .empty

/-- The content of a file or device of a name. -/
def readName (world : World) (slashed : Bool) (place : Place) (name : Name) :
    Except FileFault ByteArray :=
  if isTooLong name then .error .nameTooLong
  else
    match world.entryAt? (place.child name) with
    | none => .error .missing
    | some .directory => .error .isDirectory
    | some (.file content) => if slashed then .error .notDirectory else .ok content
    | some (.device device) => if slashed then .error .notDirectory else .ok (world.receive device)

/-- The content of the file that a path leads to. -/
def read (world : World) (text : String) : Except FileFault ByteArray := do
  let path ← path text
  match ← world.ending path with
  | .directory => .error .isDirectory
  | .name place name => world.readName path.slashed place name

/-- The world after printing a text. -/
def print (world : World) (text : String) : World := { world with output := world.output ++ text }

/-- The world after sending a text to a device. -/
def send (world : World) (text : String) : Device → World
  | .output => world.print text
  | _ => world

/-- The world with a file replaced or added. -/
def put (world : World) (place : Place) (content : ByteArray) : World :=
  { world with files := (place, content) :: world.files.filter fun file => file.1 != place }

/-- The world after writing a text to a name. -/
def writeName (world : World) (slashed : Bool) (place : Place) (name : Name) (text : String) :
    Except FileFault World :=
  if slashed then .error .isDirectory
  else if isTooLong name then .error .nameTooLong
  else
    match world.entryAt? (place.child name) with
    | some .directory => .error .isDirectory
    | some (.device device) => .ok (world.send text device)
    | _ => .ok (world.put (place.child name) text.toUTF8)

/-- The world after writing a text to where a path leads. -/
def write (world : World) (destination text : String) : Except FileFault World := do
  let path ← path destination
  match ← world.ending path with
  | .directory => .error .isDirectory
  | .name place name => world.writeName path.slashed place name text

/-- A world with files at the places of some paths, and a standard input. -/
def ofFiles (files : List (String × ByteArray)) (input : ByteArray) : World :=
  { files := files.map fun (text, content) => ((Path.ofText text.toList).place, content), input }

/-! ## What a file that is put leaves in place

  A path that led somewhere still leads there when a file is put where no directory is.  So a
  file can be read again by the path that it was written to. -/

end World

end GanttChart.Command
