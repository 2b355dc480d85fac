/-
  Connectors: the lines that show dependencies.

  A connector leaves its source on the middle of the row, runs right to a turning column, goes
  straight up or down to the edge of the target's row, bends into the row and runs right to where
  it lands; an arrow head stands there.  No part of it goes past the landing place: the start,
  the column and the end of the bend are each held back to it.

  A target that starts no later than its source gets no connector.
-/
import GanttChart.Chart.Scale
import GanttChart.Chart.Shape

namespace GanttChart

/-- A line and its arrow head. -/
structure Connector where
  path : List PathStep
  arrowHead : List PathStep
  deriving DecidableEq

namespace Connector

/-- The distance from the middle of a milestone to where a connector lands, in row heights. -/
def milestoneOffset : Binary64 := 0.65

/-- The length of an arrow head. -/
def arrowLength : Binary64 := 10

/-- Half the width of an arrow head. -/
def arrowHalfWidth : Binary64 := 5

/-- A closed triangle that points right, with its tip on a point. -/
def arrowHeadAt (tip : Point) : List PathStep :=
  [.moveTo tip, .lineTo (tip.offset (-arrowLength) arrowHalfWidth),
    .lineTo (tip.offset (-arrowLength) (-arrowHalfWidth)), .close]

/-- Where a connector to a row lands. -/
def landingX (target : Row) (scale : Scale) (metrics : Metrics Binary64) : Binary64 :=
  match target.kind with
  | .task => scale.x target.start
  | .milestone => scale.x target.start - milestoneOffset * metrics.rowHeight

/-- Where a connector from a row begins, before it is held back. -/
def departureX (source : Row) (scale : Scale) : Binary64 :=
  match source.kind with
  | .task => scale.x source.finish
  | .milestone => scale.x source.start

/-- The connector from one row to another, unless the target starts no later. -/
def route? (source target : Row) (scale : Scale) (metrics : Metrics Binary64) :
    Option Connector :=
  if target.start ≤ source.start then none
  else
    let rowHeight := metrics.rowHeight
    let targetX := landingX target scale metrics
    let sourceX := (departureX source scale).min targetX
    let sourceY := metrics.rowCenter source.index
    let targetY := metrics.rowCenter target.index
    let turnX := (sourceX + rowHeight).min targetX
    let approachY :=
      if source.index < target.index then targetY - rowHeight / 2 else targetY + rowHeight / 2
    let bendX := (turnX + rowHeight / 2).min targetX
    let corner : Point := ⟨turnX, targetY⟩
    let landing : Point := ⟨targetX, targetY⟩
    some
      { path :=
          [.moveTo ⟨sourceX, sourceY⟩, .lineTo ⟨turnX, sourceY⟩, .lineTo ⟨turnX, approachY⟩,
            .curveTo corner corner ⟨bendX, targetY⟩, .lineTo landing]
        arrowHead := arrowHeadAt landing }

end Connector

end GanttChart
