/-
  The layout of a chart: its instructions, layer by layer.

  Labels are texts wrapped to the room that they have.  The room is a number of characters of a mean
  width, at least one.  A block of lines is centred on a height: its first baseline stands half the
  height of the further lines above it.

  Each layer is a list of its own, drawn from the plan; `Plan.instructions` joins them in the order
  of painting.  Only the grid can fail.  The today marker, the connectors and the title are drawn
  when their options say so.
-/
import GanttChart.Chart.Axis
import GanttChart.Text.Wrap

/-! ## Labels -/

namespace GanttChart.Label

open GanttChart.Text

/-- How many characters of a mean width fit; at least one, and at most 2 ^ 64 - 1. -/
def budget (width glyphWidth : Binary64) : Nat :=
  let n := (width / glyphWidth).floor
  if n.isFinite && !Binary64.lt n 1 then (n.toIntWithin 0 0xFFFFFFFFFFFFFFFF).toNat else 1

/-- A text in lines of at most `budget` characters. -/
def wrapped (text : String) (budget : Nat) : List String :=
  (wrap budget text.toList).map String.ofList

/-- The first baseline of a number of lines centred on a height, moved down by `nudge`. -/
def firstBaseline (center : Binary64) (lines : Nat) (lineHeight nudge : Binary64) : Binary64 :=
  center + nudge - .ofNat (lines - 1) * lineHeight / 2

/-- Lines of text centred on a height. -/
def block (x center : Binary64) (lines : List String) (lineHeight : Binary64)
    (anchor : TextAnchor) : Shape :=
  .text x (firstBaseline center lines.length lineHeight (lineHeight / 3)) lines lineHeight anchor

end GanttChart.Label

namespace GanttChart.Plan

/-- The distance of a label from what it stands beside. -/
def labelMargin : Binary64 := 5

/-- Lines of text centred on a height. -/
def label (plan : Plan) (x center : Binary64) (lines : List String) (anchor : TextAnchor) : Shape :=
  Label.block x center lines plan.config.lineHeight anchor

/-! ## Groups -/

/-- The bands that have a row. -/
def shownBands (plan : Plan) : List Band := plan.bands.filter fun band => band.count != 0

/-- The top of a band. -/
def bandTop (plan : Plan) (band : Band) : Binary64 := plan.metrics.rowTop band.start

/-- The height of a band. -/
def bandHeight (plan : Plan) (band : Band) : Binary64 := .ofNat band.count * plan.metrics.pitch

/-- The background of a band. -/
def groupBlock (plan : Plan) (band : Band) : Instruction where
  layer := .groupBlocks
  shape := .rect 0 (plan.bandTop band) plan.config.width (plan.bandHeight band) 0
  style := band.style

/-- How many characters fit into the column of group labels. -/
def groupBudget (plan : Plan) : Nat :=
  Label.budget (plan.config.width * plan.config.groupColumnSize) plan.config.groupGlyphWidth

/-- The title of a band. -/
def groupLabel (plan : Plan) (band : Band) : Instruction where
  layer := .groupLabels
  shape := plan.label labelMargin (plan.bandTop band + plan.bandHeight band / 2)
    (Label.wrapped band.title plan.groupBudget) .start
  style := band.style

/-! ## Items -/

/-- An instruction for a row, with all that it takes from its item. -/
def itemInstruction (plan : Plan) (layer : Layer) (row : Row) (shape : Shape) : Instruction where
  layer
  shape
  style := row.style
  action := plan.action? row.id
  item := some row.id
  progress := row.progress

/-- The rows of one kind. -/
def rowsOf (plan : Plan) (kind : RowKind) : List Row :=
  plan.rows.filter fun row => row.kind == kind

/-- The width of a task's bar. -/
def barWidth (plan : Plan) (row : Row) : Binary64 :=
  (plan.scale.x row.finish - plan.scale.x row.start).abs

/-- The bar of a task; its ends may be in either order. -/
def bar (plan : Plan) (row : Row) : Instruction :=
  plan.itemInstruction .tasks row
    (.rect ((plan.scale.x row.start).min (plan.scale.x row.finish))
      (plan.metrics.barTop row.index) (plan.barWidth row) plan.metrics.barHeight 10)

/-- The label of a task, over the middle of its bar. -/
def barLabel (plan : Plan) (row : Row) : Instruction :=
  plan.itemInstruction .taskLabels row
    (plan.label ((plan.scale.x row.start + plan.scale.x row.finish) / 2)
      (plan.metrics.rowCenter row.index)
      (Label.wrapped row.title (Label.budget (plan.barWidth row) plan.config.taskGlyphWidth))
      .middle)

/-- The side of a diamond whose height is that of a bar. -/
def diamondSize (plan : Plan) : Binary64 := plan.metrics.barHeight / 1.4142135623730951

/-- The diamond of a milestone. -/
def diamond (plan : Plan) (row : Row) : Instruction :=
  plan.itemInstruction .milestones row
    (.diamond ⟨plan.scale.x row.start, plan.metrics.rowCenter row.index⟩ plan.diamondSize)

/-- How many characters fit into a line of a milestone's label, which is three rows wide. -/
def diamondBudget (plan : Plan) : Nat :=
  Label.budget (plan.metrics.rowHeight * 3) plan.config.taskGlyphWidth

/-- The label of a milestone, to the right of its diamond. -/
def diamondLabel (plan : Plan) (row : Row) : Instruction :=
  plan.itemInstruction .milestoneLabels row
    (plan.label (plan.scale.x row.start + plan.metrics.barHeight / 2 + labelMargin)
      (plan.metrics.rowCenter row.index) (Label.wrapped row.title plan.diamondBudget) .start)

/-! ## Decorations -/

/-- A line at the instant that counts as now. -/
def todayMarker (plan : Plan) : Instruction where
  layer := .todayMarker
  shape := .line ⟨plan.scale.x plan.config.now, 0⟩
    ⟨plan.scale.x plan.config.now, plan.metrics.height⟩
  style := "today"

/-- The line and the arrow head of an edge; nothing if it leads back in time. -/
def connector (plan : Plan) (edge : Edge) : List Instruction :=
  match plan.rows[edge.source]?, plan.rows[edge.target]? with
  | some source, some target =>
    match Connector.route? source target plan.scale plan.metrics with
    | none => []
    | some connector =>
      [{ layer := .dependencies, shape := .path connector.path, style := source.style ++ " path" },
        { layer := .dependencies, shape := .path connector.arrowHead,
          style := source.style ++ " arrow-head" }]
  | _, _ => []

/-- The title, over the middle of the canvas. -/
def titleText (plan : Plan) (title : String) : Instruction where
  layer := .title
  shape := plan.label (plan.config.width / 2) (plan.metrics.pitch / 2) [title] .middle
  style := "title"

/-! ## The whole chart -/

/-- All instructions but those of the grid, in the order of painting. -/
def overlay (plan : Plan) : List Instruction :=
  plan.shownBands.map plan.groupBlock ++
    plan.shownBands.map plan.groupLabel ++
    (if plan.options.isOn .todayMarker then [plan.todayMarker] else []) ++
    (plan.rowsOf .task).map plan.bar ++
    (plan.rowsOf .task).map plan.barLabel ++
    (plan.rowsOf .milestone).map plan.diamond ++
    (plan.rowsOf .milestone).map plan.diamondLabel ++
    (if plan.options.isOn .dependencies then plan.edges.flatMap plan.connector else []) ++
    (plan.options.title.map plan.titleText).toList

/-- The chart with its instructions. -/
def geometry (plan : Plan) : Except LayoutFault Geometry := do
  let grid ← plan.grid
  return {
    width := plan.config.width
    height := plan.metrics.height
    start := plan.scale.start
    finish := plan.scale.finish
    rows := plan.rows
    bands := plan.bands
    instructions := grid ++ plan.overlay }

end GanttChart.Plan

namespace GanttChart

/-- The chart of a schedule. -/
def Schedule.layout (s : Schedule) (config : Config) : Except LayoutFault Geometry := do
  (← Plan.ofSchedule s config).geometry

end GanttChart
