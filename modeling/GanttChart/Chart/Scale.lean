/-
  The scales of a chart, and the settings that they depend on.

  1. **Settings** that are not part of a chart's text: the canvas, the measures in pixels, the scheme
     of deep links, and the instant that counts as now.

  2. **Heights.**  The canvas is cut into equal slots, one for each row, one above them for the title
     and one below for the axis.  The formulas hold for numbers of any kind: charts use binary64
     numbers, and over the rationals the same formulas are exact.

  3. **Time.**  `Schedule.range?` is the span from the earliest to the latest instant of a schedule;
     one that is shorter than a millisecond becomes a day, so that the scale never divides by zero.
     A `Scale` maps the span onto a part of the plot area, to the right of the column of group
     labels, and measures in whole milliseconds.  `Scale.ticks?` are instants at equal distances over
     the span, with both ends.
-/
import GanttChart.Schedule.Basic

namespace GanttChart

/-! ## Settings -/

/-- The settings of a chart; lengths are in pixels. -/
structure Config where
  width : Binary64 := 800
  rowHeight : Binary64 := 50
  /-- Added to the height of the rows. -/
  heightPadding : Binary64 := 100
  /-- The vertical distance of a bar from the edges of its row. -/
  taskPadding : Binary64 := 5
  /-- The part of the plot area that the time scale covers. -/
  widthScale : Binary64 := 0.95
  /-- The part of the width that is kept for group labels. -/
  groupColumnSize : Binary64 := 0.1
  /-- The mean width of a character in the labels of tasks and milestones. -/
  taskGlyphWidth : Binary64 := 6
  /-- The mean width of a character in the labels of groups. -/
  groupGlyphWidth : Binary64 := 8
  lineHeight : Binary64 := 15
  /-- The scheme of links into another program, such as `obsidian`. -/
  deepLinkScheme : String := "obsidian"
  now : Instant
  deriving DecidableEq

/-! ## Heights -/

/-- What vertical positions depend on. -/
structure Metrics (α : Type) where
  rows : Nat
  height : α
  rowHeight : α
  taskPadding : α
  deriving DecidableEq

namespace Metrics

variable {α : Type} [Add α] [Sub α] [Mul α] [Div α] [NatCast α]

/-- The metrics of a number of rows; the canvas is as high as they are, and some padding. -/
def ofRows (rows : Nat) (rowHeight heightPadding taskPadding : α) : Metrics α :=
  { rows, height := (rows : α) * rowHeight + heightPadding, rowHeight, taskPadding }

/-- The height of a slot. -/
def pitch (m : Metrics α) : α := m.height / ((m.rows : α) + ((2 : Nat) : α))

/-- The top of a row's slot. -/
def rowTop (m : Metrics α) (row : Nat) : α := ((row : α) + ((1 : Nat) : α)) * m.pitch

/-- The height at which a row's connectors and labels are centred. -/
def rowCenter (m : Metrics α) (row : Nat) : α := m.rowTop row + m.rowHeight / ((2 : Nat) : α)

/-- The top of a row's bar. -/
def barTop (m : Metrics α) (row : Nat) : α := m.rowTop row + m.taskPadding

/-- The height of a bar. -/
def barHeight (m : Metrics α) : α := m.rowHeight - ((2 : Nat) : α) * m.taskPadding

end Metrics

/-! ## Time -/

namespace Schedule

/-- Start and end of every task, then the milestones. -/
def instants (s : Schedule) : List Instant :=
  s.tasks.flatMap (fun task => [task.start, task.finish]) ++ s.milestones.map Item.start

/-- The earliest and the latest of some instants; twice `now` if there are none. -/
def extent (now : Instant) : List Instant → Instant × Instant
  | [] => (now, now)
  | first :: rest => rest.foldl (fun span t => (min t span.1, max t span.2)) (first, first)

/-- The time that a chart spans; `none` if it has to be widened and leaves the calendar. -/
def range? (s : Schedule) (now : Instant) : Option (Instant × Instant) :=
  let (start, finish) := extent now s.instants
  if finish.millisecondsSince start = 0 then
    (start.addMilliseconds? 86400000).map fun finish => (start, finish)
  else some (start, finish)

end Schedule

/-- A span of time and the part of the plot area that it covers. -/
structure Scale where
  start : Instant
  finish : Instant
  plotOffset : Binary64
  plotWidth : Binary64
  widthScale : Binary64
  deriving DecidableEq

namespace Scale

/-- The scale of a span on the canvas of a configuration. -/
def ofSpan (config : Config) (start finish : Instant) : Scale where
  start
  finish
  plotOffset := config.width * config.groupColumnSize
  plotWidth := config.width * (1 - config.groupColumnSize)
  widthScale := config.widthScale

/-- The length of the span in milliseconds. -/
def length (scale : Scale) : Int := scale.finish.millisecondsSince scale.start

/-- The position of an instant as a part of the plot area. -/
def fraction (scale : Scale) (t : Instant) : Binary64 :=
  .ofInt (t.millisecondsSince scale.start) / .ofInt scale.length * scale.widthScale

/-- The position of an instant in pixels. -/
def x (scale : Scale) (t : Instant) : Binary64 :=
  scale.fraction t * scale.plotWidth + scale.plotOffset

/-- The distance of a tick from the start in milliseconds, held to 64 bits. -/
def tickOffset (scale : Scale) (count i : Nat) : Int :=
  let step : Binary64 := .ofInt scale.length / .ofNat (count - 1)
  (step * .ofNat i).round.toIntWithin (-0x8000000000000000) 0x7FFFFFFFFFFFFFFF

/-- A number of ticks from the start to the end; `none` if one is outside the calendar. -/
def ticks? (scale : Scale) (count : Nat) : Option (List Instant) :=
  if count = 0 then some []
  else if count = 1 then some [scale.start]
  else (List.range count).mapM fun i => scale.start.addMilliseconds? (scale.tickOffset count i)

end Scale

end GanttChart
