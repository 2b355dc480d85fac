/-
  Statements: how one line changes a schedule.

  A statement is checked completely before it changes anything, and sees only what earlier lines
  declared.  Each of the five kinds adds one thing:

  * `option <key> <value ...>`   — sets an option; without a value, or for an unknown key, nothing;
  * `group <title>`              — appends a group, which later items belong to;
  * `task <title>,<id>,<style>,<start>,<end>[,<dependencies>][,<progress>]`;
  * `milestone <title>,<id>,<style>,<date>[,<dependencies>][,<progress>]`;
  * `click <id>,<kind>,<url>`    — appends a click event.

  Of several faults in one line the first in this order is reported: the number of fields, the
  id, the start, the end, the dependencies, the progress; for a click, its item, then its kind.
-/
import GanttChart.Schedule.DateField
import GanttChart.Schedule.Line
import GanttChart.Text.Words
import GanttChart.Text.Casing

namespace GanttChart.Schedule

open GanttChart.Text

/-! ## Fields -/

/-- The text of a field, without the blanks around it. -/
def fieldText (field : List Char) : String := String.ofList (trim field)

/-- The ids in a field, all of which have to be declared. -/
def dependencies (s : Schedule) (field : List Char) : Except LineFault (List String) :=
  let ids := (words field).map String.ofList
  match ids.find? fun id => !s.contains id with
  | some missing => .error (.unknownId missing)
  | none => .ok ids

/-- The number of a progress field, a percentage with or without its sign; blanks do not count. -/
def progress (field : List Char) : Except LineFault (Option Binary64) :=
  let text := field.filter fun c => !isBlank c
  let number := if text.getLast? = some '%' then text.dropLast else text
  if number.isEmpty then .ok none
  else
    match (Binary64.ofNumeral? number).filter Binary64.isFinite with
    | some n => .ok (some (n / 100))
    | none => .error (.progress (fieldText field))

/-- An id that no item has yet. -/
def freshId (s : Schedule) (field : List Char) : Except LineFault String :=
  let id := fieldText field
  if (trim field).isEmpty then .error .emptyId
  else if s.contains id then .error (.duplicateId id)
  else .ok id

/-- The fields that may follow an item's dates: dependencies, then progress. -/
def withOptionalFields (s : Schedule) (item : Item) (optional : List (List Char)) :
    Except LineFault Item := do
  let dependencies ←
    match optional.head? with
    | some field => s.dependencies field
    | none => pure []
  let progress ←
    match optional.tail.head? with
    | some field => progress field
    | none => pure none
  return { item with dependencies, progress }

/-- An item of the current group, with its first four fields. -/
def newItem (s : Schedule) (title id style start : List Char) : Except LineFault Item := do
  let id ← s.freshId id
  let start ← s.instant (trim start)
  return { id, title := fieldText title, style := fieldText style, start, group := s.currentGroup? }

/-! ## Statements -/

/-- The task of a statement's body. -/
def newTask (s : Schedule) (body : List Char) : Except LineFault Task :=
  match fields body with
  | title :: id :: style :: start :: finish :: optional =>
    if 2 < optional.length then .error (.taskFields (String.ofList body))
    else do
      let item ← s.newItem title id style start
      let finish ← item.start.ofEndField (trim finish)
      let item ← s.withOptionalFields item optional
      return { item with finish }
  | _ => .error (.taskFields (String.ofList body))

/-- The milestone of a statement's body. -/
def newMilestone (s : Schedule) (body : List Char) : Except LineFault Item :=
  match fields body with
  | title :: id :: style :: date :: optional =>
    if 2 < optional.length then .error (.milestoneFields (String.ofList body))
    else do
      let item ← s.newItem title id style date
      s.withOptionalFields item optional
  | _ => .error (.milestoneFields (String.ofList body))

/-- The click event of a statement's body. -/
def newEvent (s : Schedule) (body : List Char) : Except LineFault Event :=
  match fields body with
  | [id, kind, url] =>
    let target := fieldText id
    if !s.contains target then .error (.unknownId target)
    else
      match EventKind.ofKeyword? (trim kind) with
      | none => .error (.unknownEvent (String.ofList (lowercase (trim kind))))
      | some kind => .ok { target, kind, url := fieldText url }
  | _ => .error (.clickFields (String.ofList body))

/-- The options after an option statement's body. -/
def newOptions (options : Options) (body : List Char) : Options :=
  match words body with
  | key :: value :: rest =>
    match OptionKey.ofWord? key with
    | some key => options.set key (String.ofList (unwords (value :: rest)))
    | none => options
  | _ => options

/-- The schedule after a statement. -/
def addStatement (s : Schedule) (body : List Char) : Keyword → Except LineFault Schedule
  | .option => .ok { s with options := newOptions s.options body }
  | .group => .ok { s with groups := s.groups ++ [{ title := String.ofList body }] }
  | .task => (s.newTask body).map fun task => { s with tasks := s.tasks ++ [task] }
  | .milestone =>
    (s.newMilestone body).map fun milestone => { s with milestones := s.milestones ++ [milestone] }
  | .click => (s.newEvent body).map fun event => { s with events := s.events ++ [event] }

/-- The schedule after a line. -/
def addLine (s : Schedule) (text : List Char) : Except LineFault Schedule :=
  match Line.ofText text with
  | .statement keyword body => s.addStatement body keyword
  | .ignored => .ok s
  | .unknown => .error .noKeyword

/-! ## Texts -/

/-- The schedule after several lines, of which the first has the number `line`. -/
def addLines (s : Schedule) (line : Nat) : List (List Char) → Except LocatedFault Schedule
  | [] => .ok s
  | text :: rest =>
    match s.addLine text with
    | .ok s => addLines s (line + 1) rest
    | .error fault => .error { line, fault }

/-- Lines count one after the other. -/
theorem addLines_append (s : Schedule) (line : Nat) (front rest : List (List Char)) :
    s.addLines line (front ++ rest) =
      (s.addLines line front).bind fun s => s.addLines (line + front.length) rest := by
  induction front generalizing s line with
  | nil => rfl
  | cons text front ih =>
    simp only [List.cons_append, addLines]
    split
    · rw [ih, List.length_cons, Nat.add_right_comm, Nat.add_assoc line]
    · rfl

/-- The schedule that a text describes, or the first fault in it. -/
def ofText (text : String) : Except LocatedFault Schedule :=
  addLines {} 1 (lines text.toList)

end GanttChart.Schedule
