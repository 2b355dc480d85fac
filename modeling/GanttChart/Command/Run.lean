/-
  The command: it reads a schedule from a file or from its input, and writes the document to a file
  or to its output.

  `Arguments.document` is what it computes from the bytes that it has read, and says which of
  several faults is reported: that of reading first, then that of the date given as today, then
  that of the schedule.  `run` adds the world: it writes only when everything else has gone well,
  so a run that fails leaves all files and the output alone.
-/
import GanttChart.Command.Arguments
import GanttChart.Command.World
import GanttChart.Drawing

namespace GanttChart.Command

open GanttChart

/-- Why the command fails. -/
inductive CommandFault where
  | unreadableFile (path : String) (fault : FileFault)
  | unreadableInput (fault : FileFault)
  | today (fault : LineFault)
  | drawing (fault : DrawingFault)
  | unwritableFile (path : String) (fault : FileFault)
  deriving DecidableEq

/-- The wording of a fault. -/
def CommandFault.message : CommandFault → String
  | .unreadableFile path fault => "cannot read '" ++ path ++ "': " ++ fault.message
  | .unreadableInput fault => "cannot read stdin: " ++ fault.message
  | .today fault => "--today: " ++ fault.message
  | .drawing fault => fault.message
  | .unwritableFile path fault => "cannot write '" ++ path ++ "': " ++ fault.message

/-- The line that reports a fault. -/
def CommandFault.line (fault : CommandFault) : String := "error: " ++ fault.message

namespace Arguments

/-- The fault of reading, for the place that is read from. -/
def readFault (a : Arguments) (fault : FileFault) : CommandFault :=
  match a.input with
  | some path => .unreadableFile path fault
  | none => .unreadableInput fault

/-- The text of what was read. -/
def text (a : Arguments) (content : Except FileFault ByteArray) : Except CommandFault String :=
  match content with
  | .error fault => .error (a.readFault fault)
  | .ok bytes =>
    match String.fromUTF8? bytes with
    | some text => .ok text
    | none => .error (a.readFault .notText)

/-- The instant that counts as now: the one given as today, or that of the clock. -/
def now (a : Arguments) (clock : Instant) : Except CommandFault Instant :=
  match a.today with
  | none => .ok clock
  | some today =>
    match Instant.ofLiteral today.toList with
    | .ok t => .ok t
    | .error fault => .error (.today fault)

/-- The settings of the chart at an instant. -/
def config (a : Arguments) (now : Instant) : Config := { width := a.width.getD 800, now }

/-- The document for what was read. -/
def document (a : Arguments) (clock : Instant) (content : Except FileFault ByteArray) :
    Except CommandFault String := do
  let text ← a.text content
  let now ← a.now clock
  match drawText text (a.config now) (!a.plain) with
  | .ok document => return document
  | .error fault => throw (.drawing fault)

end Arguments

/-- What a run leaves behind. -/
structure Outcome where
  exit : Nat
  error : Option String := none
  world : World

/-- A run that ends with a fault. -/
def Outcome.failed (fault : CommandFault) (world : World) : Outcome :=
  { exit := 1, error := some fault.line, world }

/-- What is read for arguments: a file, or else the input. -/
def Arguments.content (a : Arguments) (world : World) : Except FileFault ByteArray :=
  match a.input with
  | some path => world.read path
  | none => .ok world.input

/-- A run for arguments that are in order. -/
def runWith (a : Arguments) (clock : Instant) (world : World) : Outcome :=
  match a.document clock (a.content world) with
  | .error fault => .failed fault world
  | .ok document =>
    match a.output with
    | none => { exit := 0, world := world.print (document ++ "\n") }
    | some path =>
      match world.write path document with
      | .ok world => { exit := 0, world }
      | .error fault => .failed (.unwritableFile path fault) world

/-- A run of the command. -/
def run (arguments : List String) (clock : Instant) (world : World) : Outcome :=
  match Arguments.read {} arguments with
  | .request a => runWith a clock world
  | .information => { exit := 0, world }
  | .misuse => { exit := 2, world }

end GanttChart.Command
