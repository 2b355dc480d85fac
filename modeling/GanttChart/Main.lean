/-
  The program: the command with the real clock, files and streams.

  Everything that it decides is decided in `GanttChart.Command`; here bytes are read and written
  and faults of the system are named.
-/
import GanttChart.Command.Run
import Std.Time.Zoned

namespace GanttChart.Command

/-- The fault that a system error stands for. -/
def FileFault.ofError : IO.Error → FileFault
  | .noFileOrDirectory .. => .missing
  | .inappropriateType _ code description =>
    if code = 20 then .notDirectory else if code = 21 then .isDirectory else .other description
  | .invalidArgument _ code description => if code = 36 then .nameTooLong else .other description
  | error => .other (toString error)

/-- A reading that may fail. -/
def attempt (reading : IO ByteArray) : IO (Except FileFault ByteArray) := do
  try
    return .ok (← reading)
  catch error =>
    return .error (.ofError error)

/-- The local date and time. -/
def clock : IO Instant := do
  let t ← Std.Time.PlainDateTime.now
  let date := Date.of? t.year.toInt t.month.toNat t.day.toNat
  let time := TimeOfDay.of? t.hour.toNat t.minute.toNat t.second.toNat t.nanosecond.toNat
  return ⟨date.getD .epoch, time.getD .midnight⟩

/-- A line about the use of the command. -/
def usage : String :=
  "usage: gantt-chart [INPUT] [-w WIDTH] [-o OUTPUT] [--today DATE] [--no-style] [-v]"

/-- Reports a fault. -/
def fail (fault : CommandFault) : IO UInt32 := do
  IO.eprintln fault.line
  return 1

/-- Reads, draws and writes for arguments that are in order. -/
def perform (a : Arguments) : IO UInt32 := do
  let content ←
    match a.input with
    | some path => attempt (IO.FS.readBinFile path)
    | none => attempt (do (← IO.getStdin).readBinToEnd)
  match a.document (← clock) content with
  | .error fault => fail fault
  | .ok document =>
    match a.output with
    | none =>
      IO.println document
      return 0
    | some path =>
      try
        IO.FS.writeBinFile path document.toUTF8
        return 0
      catch error =>
        fail (.unwritableFile path (.ofError error))

end GanttChart.Command

/-- The command line. -/
def main (arguments : List String) : IO UInt32 := do
  match GanttChart.Command.Arguments.read {} arguments with
  | .request a => GanttChart.Command.perform a
  | .information =>
    IO.println GanttChart.Command.usage
    return 0
  | .misuse =>
    IO.eprintln GanttChart.Command.usage
    return 2
