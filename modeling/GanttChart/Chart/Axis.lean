/-
  The time axis: a line below the rows, with ticks and their labels.

  The number of ticks and the pattern of the labels can be set by options.  The number is a hint
  and is held to 100, but it has to be a number; the pattern has to show something of an instant,
  and every label has to succeed.
-/
import GanttChart.Calendar.Pattern.Label
import GanttChart.Calendar.Pattern
import GanttChart.Chart.Plan

namespace GanttChart.Plan

/-! ## Settings -/

/-- The number of ticks if none is asked for. -/
def defaultTicks : Nat := 6

/-- The most ticks that are drawn. -/
def maximalTicks : Nat := 100

/-- The pattern of the labels if none is set. -/
def defaultPattern : String := "%Y-%m-%d"

/-- The number of ticks to draw. -/
def tickCount (plan : Plan) : Except LayoutFault Nat :=
  match plan.options.requestedTicks with
  | .ok none => .ok defaultTicks
  | .ok (some n) => .ok (min n maximalTicks)
  | .error value => .error (.invalidOption .axisTicks value)

/-- The pattern of the labels, as it is set. -/
def patternText (plan : Plan) : String := plan.options.outputDateFormat.getD defaultPattern

/-- The fault of an unusable pattern. -/
def patternFault (plan : Plan) : LayoutFault := .invalidOption .outputDateFormat plan.patternText

/-- The pattern of the labels. -/
def pattern (plan : Plan) : Except LayoutFault (List Pattern.Item) :=
  match Pattern.fieldsOfText? (Pattern.directives plan.patternText.toList) with
  | some items => .ok items
  | none => .error plan.patternFault

/-! ## Drawing -/

/-- The height of the axis. -/
def axisY (plan : Plan) : Binary64 := plan.metrics.height * 0.95

/-- The line of the axis, from the start of the time scale to its end. -/
def axisLine (plan : Plan) : Instruction where
  layer := .grid
  shape := .line ⟨plan.scale.x plan.scale.start, plan.axisY⟩
    ⟨plan.scale.x plan.scale.finish, plan.axisY⟩
  style := "domain"

/-- The line of a tick, from the top of the canvas to the axis. -/
def tickLine (plan : Plan) (t : Instant) : Instruction where
  layer := .grid
  shape := .line ⟨plan.scale.x t, 0⟩ ⟨plan.scale.x t, plan.axisY⟩
  style := "tick"

/-- The label of a tick, below the axis. -/
def tickLabel (plan : Plan) (t : Instant) (label : List Char) : Instruction where
  layer := .grid
  shape := .text (plan.scale.x t) (plan.axisY + plan.config.lineHeight) [String.ofList label]
    plan.config.lineHeight .middle
  style := "tick-label"

/-- A tick's line and label. -/
def tick (plan : Plan) (items : List Pattern.Item) (t : Instant) :
    Except LayoutFault (List Instruction) :=
  match Pattern.label? t items with
  | some label => .ok [plan.tickLine t, plan.tickLabel t label]
  | none => .error plan.patternFault

/-- The axis with its ticks. -/
def grid (plan : Plan) : Except LayoutFault (List Instruction) := do
  let count ← plan.tickCount
  let items ← plan.pattern
  match plan.scale.ticks? count with
  | none => .error .dateOutOfRange
  | some ticks =>
    let drawn ← ticks.mapM (plan.tick items)
    return plan.axisLine :: drawn.flatten

end GanttChart.Plan
