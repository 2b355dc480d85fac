/-
  Faults: what can be wrong with a schedule's text, and what can keep a schedule from being drawn.

  `LineFault` lists what can be wrong with one line, with the words that the message repeats, and
  `LineFault.message` is the wording.  `LocatedFault` adds the number of the line, from 1.
  `LayoutFault` is about a schedule as a whole, so it names no line.
-/
import GanttChart.Schedule.Options

namespace GanttChart

/-! ## Faults of a text -/

/-- What is wrong with a line. -/
inductive LineFault where
  /-- The line starts with no keyword. -/
  | noKeyword
  /-- The body of a task, milestone or click has too many or too few fields. -/
  | taskFields (body : String)
  | milestoneFields (body : String)
  | clickFields (body : String)
  | emptyId
  | progress (text : String)
  /-- A relative date has more than one marker. -/
  | relativeDate (text : String)
  /-- The part of a duration before its unit is no number. -/
  | amount (number duration : String)
  /-- A duration leads out of the calendar. -/
  | outOfRange (duration : String)
  | duplicateId (id : String)
  | unknownId (id : String)
  | unknownUnit (duration : String)
  | unknownEvent (word : String)
  | invalidDate (text : String)
  deriving DecidableEq

namespace LineFault

/-- What a line may start with. -/
def openings : List String := ["%%", "click", "group", "milestone", "option", "task"]

/-- The openings as they are listed in a message. -/
def openingList : String := ", ".intercalate openings

/-- The wording of a fault. -/
def message : LineFault → String
  | .noKeyword =>
    "syntax error: expecting the line to start with a keyword (" ++ openingList ++ ")"
  | .taskFields body =>
    "syntax error: '" ++ body ++ "': a task should have 5 to 7 arguments separated by a comma"
  | .milestoneFields body =>
    "syntax error: '" ++ body ++ "': a milestone should have 4 to 6 arguments separated by a comma"
  | .clickFields body =>
    "syntax error: '" ++ body ++
      "': a click should have 3 arguments (id, type, url) separated by a comma"
  | .emptyId => "syntax error: the element ID must not be empty"
  | .progress text => "syntax error: progress '" ++ text ++ "' should be a number"
  | .relativeDate text =>
    "syntax error: '" ++ text ++
      "' should read like '1D after taskId' where 1D is a duration (number + unit)"
  | .amount number duration =>
    "syntax error: '" ++ number ++ "' in '" ++ duration ++ "' should be a number"
  | .outOfRange duration => "syntax error: '" ++ duration ++ "' moves the date out of range"
  | .duplicateId id => "duplicate key: the element ID '" ++ id ++ "' already exists"
  | .unknownId id => "element not found: '" ++ id ++ "' is not defined as a task or milestone"
  | .unknownUnit duration =>
    "unknown unit in '" ++ duration ++ "'; the unit should be one of D, W, H, m, M, S, Y"
  | .unknownEvent word => "event type '" ++ word ++ "' not recognized; use one of popup, goto"
  | .invalidDate text =>
    "invalid date '" ++ text ++ "'; expected YYYY-MM-DD, YYYY-MM-DD HH:MM[:SS] or RFC 3339"

end LineFault

/-- A fault and the line it is on. -/
structure LocatedFault where
  line : Nat
  fault : LineFault
  deriving DecidableEq

/-- The wording of a fault with its place. -/
def LocatedFault.message (located : LocatedFault) : String :=
  "line " ++ toString located.line ++ ": " ++ located.fault.message

/-! ## Faults of a layout -/

/-- Why a schedule cannot be drawn. -/
inductive LayoutFault where
  /-- An item depends on an id that no item has. -/
  | unknownDependency (dependency dependent : String)
  | invalidUrl (url : String)
  | invalidOption (key : OptionKey) (value : String)
  /-- An instant of the time axis is outside the calendar. -/
  | dateOutOfRange
  deriving DecidableEq

/-- The wording of a fault. -/
def LayoutFault.message : LayoutFault → String
  | .unknownDependency dependency dependent =>
    "dependency '" ++ dependency ++ "' of '" ++ dependent ++
      "' is not defined as a task or milestone"
  | .invalidUrl url => "error generating click action: the URL is incorrect '" ++ url ++ "'"
  | .invalidOption key value => "invalid value '" ++ value ++ "' for option '" ++ key.name ++ "'"
  | .dateOutOfRange => "date arithmetic out of range while building the time axis"

end GanttChart
