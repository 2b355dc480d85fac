/-
  The fields of an item that say when it starts and ends.

  1. **Durations**: a number and the letter of a unit, such as `3D`, `-2W` or `1.5H`.  Weeks, days,
     hours, minutes and seconds have a fixed length, and a broken amount of them is kept to the
     millisecond.  Months and years follow the calendar, and their amount is cut to whole months.
     The letters are case-sensitive: `m` is a minute and `M` a month.

     An amount of at most 9 * 10 ^ 15 milliseconds or 10 ^ 12 months is exact as an integer; a larger
     one is refused, for no date of the calendar is that far from another.

  2. **Date fields**: instants given by a literal or relative to an item.  `after b` is the anchor of
     the item `b`, and `3D after b` a duration after it; the anchor is a task's end or a milestone's
     instant.  The word has to be in small letters and stand between spaces, or at the front with a
     space behind it, and may occur only once.  Any other field is a literal.
-/
import GanttChart.Binary64.Bits
import GanttChart.Calendar.Literal
import GanttChart.Schedule.Basic
import GanttChart.Schedule.Fault
import GanttChart.Text.Words

namespace GanttChart

open GanttChart.Text

/-! ## Durations -/

/-- The units of durations. -/
inductive TimeUnit where
  | day
  | week
  | hour
  | minute
  | month
  | second
  | year
  deriving DecidableEq

namespace TimeUnit

/-- The unit of a letter. -/
def ofLetter? : Char → Option TimeUnit
  | 'D' => some .day
  | 'W' => some .week
  | 'H' => some .hour
  | 'm' => some .minute
  | 'M' => some .month
  | 'S' => some .second
  | 'Y' => some .year
  | _ => none

/-- The instant a number of milliseconds later, rounded to whole ones. -/
def addRounded? (t : Instant) (amount : Binary64) : Option Instant :=
  let whole := amount.round
  if !whole.isFinite || Binary64.lt 9e15 whole.abs then none
  else t.addMilliseconds? whole.toInt

/-- The whole number in an amount of months; zero if it is not a number. -/
def wholeMonths? (amount : Binary64) : Option Int :=
  let whole := amount.trunc
  if Binary64.lt 1e12 whole.abs then none else some whole.toInt

/-- The instant `amount` units later. -/
def add? (unit : TimeUnit) (t : Instant) (amount : Binary64) : Option Instant :=
  match unit with
  | .day => addRounded? t (amount * 86400000)
  | .week => addRounded? t (amount * 7 * 86400000)
  | .hour => addRounded? t (amount * 3600000)
  | .minute => addRounded? t (amount * 60000)
  | .second => addRounded? t (amount * 1000)
  | .month => (wholeMonths? amount).bind t.addMonths?
  | .year => (wholeMonths? (amount * 12)).bind t.addMonths?

end TimeUnit

namespace Duration

/-- The amount of a duration; without any text it is zero. -/
def amount? (text : List Char) : Option Binary64 :=
  let text := trim text
  if text.isEmpty then some 0
  else (Binary64.ofNumeral? text).filter Binary64.isFinite

/-- The instant a duration after another one. -/
def after (t : Instant) (text : List Char) : Except LineFault Instant :=
  match text.getLast?.bind TimeUnit.ofLetter? with
  | none => .error (.unknownUnit (String.ofList text))
  | some unit =>
    match amount? text.dropLast with
    | none => .error (.amount (String.ofList text.dropLast) (String.ofList text))
    | some amount =>
      match unit.add? t amount with
      | none => .error (.outOfRange (String.ofList text))
      | some later => .ok later

end Duration

namespace Instant

/-- The instant that a literal denotes, or the fault that it denotes none. -/
def ofLiteral (text : List Char) : Except LineFault Instant :=
  match ofLiteral? text with
  | some t => .ok t
  | none => .error (.invalidDate (String.ofList (trim text)))

/-- The end of an item that starts at `t`: a duration, or else a literal. -/
def ofEndField (t : Instant) (text : List Char) : Except LineFault Instant :=
  match Duration.after t text with
  | .ok later => .ok later
  | .error _ => ofLiteral text

end Instant

/-! ## Date fields -/

/-- What a date field says. -/
inductive DateField where
  | literal (text : List Char)
  /-- A duration, possibly without any text, after the anchor of an item. -/
  | relative (duration reference : List Char)
  deriving DecidableEq

namespace DateField

/-- The word for a relative date, with the spaces around it. -/
def marker : List Char := " after ".toList

/-- The same at the front of a field. -/
def openingMarker : List Char := "after ".toList

/-- What a text says as a date field. -/
def ofText (text : List Char) : Except LineFault DateField :=
  match openingMarker.isPrefixOf? text with
  | some reference => .ok (.relative [] (trim reference))
  | none =>
    match breakOn? marker text with
    | none => .ok (.literal text)
    | some (duration, reference) =>
      if (breakOn? marker reference).isSome then .error (.relativeDate (String.ofList text))
      else .ok (.relative (trim duration) (trim reference))

end DateField

namespace Schedule

/-- The instant of a date field among the items of a schedule. -/
def resolve (s : Schedule) : DateField → Except LineFault Instant
  | .literal text => Instant.ofLiteral text
  | .relative duration reference =>
    match s.anchor? (String.ofList reference) with
    | none => .error (.unknownId (String.ofList reference))
    | some anchor => Duration.after anchor (if duration.isEmpty then "0D".toList else duration)

/-- The instant that the text of a date field means. -/
def instant (s : Schedule) (text : List Char) : Except LineFault Instant := do
  s.resolve (← DateField.ofText text)

end Schedule

end GanttChart
