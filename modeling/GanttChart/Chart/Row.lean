/-
  Rows: tasks and milestones in the order in which a chart shows them, and what belongs to rows.

  1. **Order.**  Rows are sorted by a key, the start in milliseconds since the epoch times the
     position of the group counted from 1, or times 0 without a group.  Equal keys keep the order of
     declaration, tasks before milestones, since the sort is stable.

  2. **Bands**, the range of rows that each group takes up.  They follow each other without a gap in
     the order of the groups, each as long as its group has rows, and alternate between two styles.

  3. **Edges.**  An id means the last row that has it.  The edges of a list of rows are the pairs of
     the row depended on and the row that depends, in the order of the rows and, for one row, in the
     order in which its dependencies are listed; repetitions stay.  A dependency that no row has is a
     fault, and the first one in this order is reported.
-/
import GanttChart.Schedule.Basic
import GanttChart.Schedule.Fault

namespace GanttChart

/-! ## Order -/

/-- What a row shows. -/
inductive RowKind where
  | task
  | milestone
  deriving DecidableEq

/-- An item on its row; a milestone ends when it starts. -/
structure Row extends Item where
  kind : RowKind
  finish : Instant
  /-- The position of the row, from the top. -/
  index : Nat := 0
  deriving DecidableEq

namespace Row

/-- The row of a task. -/
def ofTask (task : Task) : Row := { task.toItem with kind := .task, finish := task.finish }

/-- The row of a milestone. -/
def ofMilestone (item : Item) : Row := { item with kind := .milestone, finish := item.start }

/-- The key that rows are sorted by. -/
def sortKey (row : Row) : Int :=
  row.start.timestampMilliseconds *
    match row.group with
    | some position => (position : Int) + 1
    | none => 0

end Row

namespace Schedule

/-- The rows in the order of declaration, tasks before milestones. -/
def declaredRows (s : Schedule) : List Row :=
  s.tasks.map Row.ofTask ++ s.milestones.map Row.ofMilestone

/-- The rows of a schedule, from the top. -/
def rows (s : Schedule) : List Row :=
  (s.declaredRows.mergeSort fun a b => a.sortKey ≤ b.sortKey).mapIdx
    fun index row => { row with index }

end Schedule

/-! ## Bands -/

/-- The rows from `start` to just before `finish`, for the group at the position `group`. -/
structure Band where
  group : Nat
  title : String
  start : Nat
  finish : Nat
  style : String
  deriving DecidableEq

namespace Band

/-- The number of rows of a band. -/
def count (band : Band) : Nat := band.finish - band.start

/-- The style of the band at a position. -/
def styleAt (position : Nat) : String := if position % 2 = 0 then "even" else "odd"

/-- The number of rows that belong to the group at a position. -/
def size (rows : List Row) (position : Nat) : Nat :=
  rows.countP fun row => row.group == some position

/-- The bands of groups, of which the first is at `position` and begins at the row `start`. -/
def listFrom (rows : List Row) (position start : Nat) : List Group → List Band
  | [] => []
  | group :: rest =>
    let finish := start + size rows position
    { group := position, title := group.title, start, finish, style := styleAt position } ::
      listFrom rows (position + 1) finish rest

end Band

/-- The bands of a schedule's groups over some rows. -/
def Schedule.bands (s : Schedule) (rows : List Row) : List Band := Band.listFrom rows 0 0 s.groups

/-! ## Edges -/

/-- From the row that is depended on to the row that depends on it. -/
structure Edge where
  source : Nat
  target : Nat
  deriving DecidableEq

/-- The last row with an id. -/
def Row.last? (rows : List Row) (id : String) : Option Row :=
  rows.reverse.find? fun row => row.id == id

/-- The number of different ids among some rows. -/
def Row.countIds (rows : List Row) : Nat := (rows.map fun row => row.id).eraseDups.length

namespace Edge

/-- The edge from a dependency of a row to the row. -/
def ofDependency (rows : List Row) (row : Row) (dependency : String) : Except LayoutFault Edge :=
  match Row.last? rows dependency with
  | none => .error (.unknownDependency dependency row.id)
  | some source =>
    .ok { source := source.index, target := ((Row.last? rows row.id).getD row).index }

/-- The edges of all dependencies of some rows. -/
def ofRows (rows : List Row) : Except LayoutFault (List Edge) := do
  let lists ← rows.mapM fun row => row.dependencies.mapM (ofDependency rows row)
  return lists.flatten

end Edge

end GanttChart
