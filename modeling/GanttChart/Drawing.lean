/-
  From text to document: a schedule's text is read, laid out and written as SVG.

  A fault in the text keeps the schedule from being laid out, so it is the one reported.
-/
import GanttChart.Chart.Layout
import GanttChart.Schedule.Statement
import GanttChart.Svg.Document

namespace GanttChart

/-- Why a text cannot be drawn. -/
inductive DrawingFault where
  | text (located : LocatedFault)
  | layout (fault : LayoutFault)
  deriving DecidableEq

/-- The wording of a fault. -/
def DrawingFault.message : DrawingFault → String
  | .text located => located.message
  | .layout fault => fault.message

/-- The chart that a text describes. -/
def layoutText (source : String) (config : Config) : Except DrawingFault Geometry :=
  match Schedule.ofText source with
  | .error located => .error (.text located)
  | .ok s =>
    match s.layout config with
    | .error fault => .error (.layout fault)
    | .ok g => .ok g

/-- A text is laid out through its schedule. -/
theorem layoutText_eq_ok_iff {source : String} {config : Config} {g : Geometry} :
    layoutText source config = .ok g ↔
      ∃ s, Schedule.ofText source = .ok s ∧ s.layout config = .ok g := by
  unfold layoutText
  cases Schedule.ofText source with
  | error located => simp
  | ok s => cases hlayout : s.layout config <;> simp [hlayout]

/-- The document of the chart that a text describes. -/
def drawText (source : String) (config : Config) (styled : Bool) : Except DrawingFault String :=
  (layoutText source config).map (Svg.render styled)

end GanttChart
