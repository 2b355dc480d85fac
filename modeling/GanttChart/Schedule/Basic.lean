/-
  Schedules: what a chart shows.

  A schedule owns its options and four lists, each in the order of declaration: groups, tasks,
  milestones and click events.  A task is an item that also has an end; a milestone is an item as
  it is.  An item names its group by position and its dependencies by id.
-/
import GanttChart.Binary64.Basic
import GanttChart.Calendar.Instant
import GanttChart.Schedule.Options

namespace GanttChart

open GanttChart.Text

/-- A titled group of items. -/
structure Group where
  title : String
  deriving DecidableEq

/-- What tasks and milestones have in common. -/
structure Item where
  id : String
  title : String := ""
  /-- A free word for the style sheet. -/
  style : String := ""
  start : Instant
  /-- The ids of the items that this one depends on. -/
  dependencies : List String := []
  /-- The part that is done. -/
  progress : Option Binary64 := none
  /-- The position of the item's group. -/
  group : Option Nat := none
  deriving DecidableEq

/-- An item with an end. -/
structure Task extends Item where
  finish : Instant
  deriving DecidableEq

/-- What a click does. -/
inductive EventKind where
  | goTo
  | popup
  deriving DecidableEq

namespace EventKind

/-- The word for the kind. -/
def keyword : EventKind → String
  | .goTo => "goto"
  | .popup => "popup"

/-- The kind that a word means, in any case. -/
def ofKeyword? (word : List Char) : Option EventKind :=
  if alike "popup".toList word then some .popup
  else if alike "goto".toList word then some .goTo
  else none

end EventKind

/-- A click on the item `target`. -/
structure Event where
  target : String
  kind : EventKind
  url : String
  deriving DecidableEq

/-- Options, groups, tasks, milestones and events, in the order of declaration. -/
structure Schedule where
  options : Options := {}
  groups : List Group := []
  tasks : List Task := []
  milestones : List Item := []
  events : List Event := []
  deriving DecidableEq

namespace Schedule

/-- The number of tasks and milestones. -/
def size (s : Schedule) : Nat := s.tasks.length + s.milestones.length

/-- The first task with an id. -/
def task? (s : Schedule) (id : String) : Option Task := s.tasks.find? fun task => task.id == id

/-- The first milestone with an id. -/
def milestone? (s : Schedule) (id : String) : Option Item :=
  s.milestones.find? fun milestone => milestone.id == id

/-- A task or milestone has the id. -/
def contains (s : Schedule) (id : String) : Bool := (s.task? id).isSome || (s.milestone? id).isSome

/-- The instant that dates count from: the end of the task, or else the milestone's. -/
def anchor? (s : Schedule) (id : String) : Option Instant :=
  match s.task? id with
  | some task => some task.finish
  | none => (s.milestone? id).map Item.start

/-- The position of the last group, which new items belong to. -/
def currentGroup? (s : Schedule) : Option Nat :=
  if s.groups.isEmpty then none else some (s.groups.length - 1)

/-- The items of all tasks, then the milestones. -/
def items (s : Schedule) : List Item := s.tasks.map Task.toItem ++ s.milestones

/-- An id is in use if an item has it. -/
theorem contains_iff {s : Schedule} {id : String} :
    s.contains id = true ↔ ∃ item ∈ s.items, item.id = id := by
  simp only [contains, task?, milestone?, items, Bool.or_eq_true, List.find?_isSome,
    List.mem_append, List.mem_map, beq_iff_eq]
  constructor
  · rintro (⟨task, h, rfl⟩ | ⟨item, h, rfl⟩)
    · exact ⟨task.toItem, .inl ⟨task, h, rfl⟩, rfl⟩
    · exact ⟨item, .inr h, rfl⟩
  · rintro ⟨item, ⟨task, h, rfl⟩ | h, rfl⟩
    · exact .inl ⟨task, h, rfl⟩
    · exact .inr ⟨item, h, rfl⟩

/-- An id can be counted from exactly if an item has it. -/
theorem anchor?_isSome {s : Schedule} {id : String} :
    (s.anchor? id).isSome = s.contains id := by
  unfold anchor? contains
  cases s.task? id <;> simp

end Schedule

end GanttChart
