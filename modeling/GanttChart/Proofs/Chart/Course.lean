/-
  The course of connectors.

  1. **Paths.**  The points of a path shape it in their order, and its straight pieces lead from each point
     that is reached to the next (`Segment.ofSteps`).

  2. **Columns.**  A connector starts, turns, bends and lands in four columns, whatever its rows are
     (`Connector.eq_ofColumns`).  Each column is a step to the right of the one before, held back to where
     the connector lands, so they stand in this order (`Connector.columns_le`).

  3. **Connectors.**  If the height of rows is not negative, a connector runs to the right
     (`Connector.RunsRight`) exactly if it lands at a number (`Connector.runsRight_iff`), and so if the
     coordinates of its path are finite (`Connector.route?_runsRight`).  How late the source ends does
     not matter, nor how far to the left of it the landing place of a milestone lies.
-/
import GanttChart.Chart.Connector
import GanttChart.Proofs.Binary64.Order
import Mathlib.Data.List.Pairwise

namespace GanttChart

/-! ## Paths -/

/-- Both coordinates are finite. -/
def Point.IsFinite (p : Point) : Prop := p.x.isFinite = true ∧ p.y.isFinite = true

instance (p : Point) : Decidable p.IsFinite := inferInstanceAs (Decidable (_ ∧ _))

/-- The points of a step, the one that it leads to at the end. -/
def PathStep.points : PathStep → List Point
  | .moveTo p => [p]
  | .lineTo p => [p]
  | .curveTo control₁ control₂ p => [control₁, control₂, p]
  | .close => []

/-- A straight piece of a path. -/
structure Segment where
  source : Point
  target : Point

namespace Segment

/-- The piece keeps its height. -/
def IsHorizontal (piece : Segment) : Prop := piece.source.y = piece.target.y

/-- The piece keeps its column. -/
def IsVertical (piece : Segment) : Prop := piece.source.x = piece.target.x

/-- The straight pieces of the steps that go on from `last`; a close leads back to `first`. -/
def ofSteps (first last : Point) : List PathStep → List Segment
  | [] => []
  | .moveTo p :: steps => ofSteps p p steps
  | .lineTo p :: steps => ⟨last, p⟩ :: ofSteps first p steps
  | .curveTo _ _ p :: steps => ofSteps first p steps
  | .close :: steps => ⟨last, first⟩ :: ofSteps first first steps

/-- The straight pieces of a path, which begins with a move. -/
def ofPath : List PathStep → List Segment
  | .moveTo p :: steps => ofSteps p p steps
  | _ => []

end Segment

namespace Connector

/-- The points of the path. -/
def points (c : Connector) : List Point := c.path.flatMap PathStep.points

/-- A connector does not run backwards. -/
structure RunsRight (c : Connector) : Prop where
  /-- The start, the turn at both of its heights and as both control points, the end of the bend, and the
      landing place. -/
  columns : ∃ start turn bend landing,
    c.points.map Point.x = [start, turn, turn, turn, turn, bend, landing]
  ordered : (c.points.map Point.x).Pairwise (· ≤ ·)
  segments : ∃ departure drop arrival, Segment.ofPath c.path = [departure, drop, arrival] ∧
    departure.IsHorizontal ∧ drop.IsVertical ∧ arrival.IsHorizontal
  /-- The path ends at the tip of the arrow head, and neither of them has a point to the right of it. -/
  landing : ∃ tip, c.points.getLast? = some tip ∧ c.arrowHead = arrowHeadAt tip ∧
    ∀ p ∈ c.points ++ c.arrowHead.flatMap PathStep.points, p.x ≤ tip.x

/-! ## Columns -/

/-- A connector in four columns, from one height to another with a turn between. -/
def ofColumns (start turn bend landing sourceY turnY targetY : Binary64) : Connector where
  path :=
    [.moveTo ⟨start, sourceY⟩, .lineTo ⟨turn, sourceY⟩, .lineTo ⟨turn, turnY⟩,
      .curveTo ⟨turn, targetY⟩ ⟨turn, targetY⟩ ⟨bend, targetY⟩, .lineTo ⟨landing, targetY⟩]
  arrowHead := arrowHeadAt ⟨landing, targetY⟩

variable {start turn bend landing sourceY turnY targetY : Binary64}

/-- The points of such a path, one after the other. -/
theorem points_ofColumns :
    (ofColumns start turn bend landing sourceY turnY targetY).points =
      [⟨start, sourceY⟩, ⟨turn, sourceY⟩, ⟨turn, turnY⟩, ⟨turn, targetY⟩, ⟨turn, targetY⟩,
        ⟨bend, targetY⟩, ⟨landing, targetY⟩] := rfl

/-- An arrow head points to the right. -/
theorem neg_arrowLength_le : -arrowLength ≤ 0 := by decide +kernel

/-- Its length is a number to reckon with. -/
theorem isFinite_neg_arrowLength : (-arrowLength).isFinite = true := by decide +kernel

/-- No corner of an arrow head is to the right of its tip. -/
theorem le_tip_of_mem_arrowHead {tip p : Point} (htip : tip.x.IsNumber)
    (hp : p ∈ (arrowHeadAt tip).flatMap PathStep.points) : p.x ≤ tip.x := by
  have hback : tip.x + -arrowLength ≤ tip.x :=
    Binary64.add_le_of_nonpos htip isFinite_neg_arrowLength neg_arrowLength_le
  have hcases : p = tip ∨ p = tip.offset (-arrowLength) arrowHalfWidth ∨
      p = tip.offset (-arrowLength) (-arrowHalfWidth) := by
    simpa [arrowHeadAt, PathStep.points] using hp
  rcases hcases with rfl | rfl | rfl
  · exact Binary64.le_refl htip
  · exact hback
  · exact hback

/-- Columns in their order make a connector that runs to the right. -/
theorem runsRight_ofColumns (hturn : start ≤ turn) (hbend : turn ≤ bend) (hlanding : bend ≤ landing) :
    (ofColumns start turn bend landing sourceY turnY targetY).RunsRight := by
  have hnumber : landing.IsNumber := hlanding.2.1
  have hordered : [start, turn, turn, turn, turn, bend, landing].Pairwise (· ≤ ·) := by
    have hsame : turn ≤ turn := Binary64.le_refl hbend.1
    rw [← List.isChain_iff_pairwise]
    simp [hturn, hsame, hbend, hlanding]
  constructor
  case columns => exact ⟨start, turn, bend, landing, rfl⟩
  case ordered => exact hordered
  case segments => exact ⟨_, _, _, rfl, rfl, rfl, rfl⟩
  case landing =>
    refine ⟨⟨landing, targetY⟩, rfl, rfl, fun p hp => ?_⟩
    rcases List.mem_append.1 hp with hpath | harrow
    · -- in an ordered list every column is at most the last one
      exact hordered.rel_getLast_of_rel_getLast_getLast (List.mem_map_of_mem hpath)
        (Binary64.le_refl hnumber)
    · exact le_tip_of_mem_arrowHead hnumber harrow

variable {source target : Row} {scale : Scale} {metrics : Metrics Binary64} {c : Connector}

/-- Where a connector starts. -/
def startX (source target : Row) (scale : Scale) (metrics : Metrics Binary64) : Binary64 :=
  (departureX source scale).min (landingX target scale metrics)

/-- Where a connector turns. -/
def turnX (source target : Row) (scale : Scale) (metrics : Metrics Binary64) : Binary64 :=
  (startX source target scale metrics + metrics.rowHeight).min (landingX target scale metrics)

/-- Where the bend of a connector ends. -/
def bendX (source target : Row) (scale : Scale) (metrics : Metrics Binary64) : Binary64 :=
  (turnX source target scale metrics + metrics.rowHeight / 2).min (landingX target scale metrics)

/-- **Connectors differ in their columns and heights only.** -/
theorem eq_ofColumns (h : route? source target scale metrics = some c) :
    ∃ sourceY turnY targetY,
      c = ofColumns (startX source target scale metrics) (turnX source target scale metrics)
        (bendX source target scale metrics) (landingX target scale metrics) sourceY turnY targetY := by
  rw [route?] at h
  split at h
  · cases h
  · exact ⟨_, _, _, (Option.some.inj h).symm⟩

/-- **The columns stand in their order.** -/
theorem columns_le (source : Row) (hrow : 0 ≤ metrics.rowHeight)
    (hlanding : (landingX target scale metrics).IsNumber) :
    startX source target scale metrics ≤ turnX source target scale metrics ∧
      turnX source target scale metrics ≤ bendX source target scale metrics ∧
      bendX source target scale metrics ≤ landingX target scale metrics := by
  have htwo : 2 * Binary64.unit ≠ 0 := Nat.mul_ne_zero (by decide) (Nat.ne_of_gt Binary64.unit_pos)
  have hhalf : 0 ≤ metrics.rowHeight / 2 :=
    Binary64.div_nonneg hrow (Binary64.is_ofNat (by decide)) htwo
  -- a step to the right, held back to the landing place, is still to the right of where it began,
  -- as that place is
  exact ⟨Binary64.le_min_add (Binary64.min_le_right hlanding) hrow,
    Binary64.le_min_add (Binary64.min_le_right hlanding) hhalf, Binary64.min_le_right hlanding⟩

/-! ## Connectors -/

/-- A connector runs to the right exactly if it lands at a number. -/
theorem runsRight_iff (h : route? source target scale metrics = some c)
    (hrow : 0 ≤ metrics.rowHeight) :
    c.RunsRight ↔ (landingX target scale metrics).IsNumber := by
  obtain ⟨sourceY, turnY, targetY, rfl⟩ := eq_ofColumns h
  constructor
  · intro hright
    obtain ⟨tip, htip, _, hall⟩ := hright.landing
    obtain rfl := Option.some.inj htip
    exact (hall _ (List.mem_append_left _ (List.mem_of_getLast? htip))).1
  · intro hlanding
    obtain ⟨hturn, hbend, hend⟩ := columns_le source hrow hlanding
    exact runsRight_ofColumns hturn hbend hend

/-- **Connectors do not run backwards**: if the height of rows is not negative, a connector whose path has
    finite coordinates runs to the right, wherever its source ends and its target stands. -/
theorem route?_runsRight (h : route? source target scale metrics = some c)
    (hrow : 0 ≤ metrics.rowHeight) (hfinite : ∀ p ∈ c.points, p.IsFinite) : c.RunsRight := by
  rw [runsRight_iff h hrow]
  obtain ⟨sourceY, turnY, targetY, rfl⟩ := eq_ofColumns h
  have hlanding := hfinite ⟨landingX target scale metrics, targetY⟩ (by simp [points_ofColumns])
  exact Binary64.isNumber_of_isFinite hlanding.1

/-- A task of nine days, from the epoch on. -/
def nineDays : Row :=
  .ofTask { id := "T", start := .atMidnight .epoch, finish := .atMidnight ⟨9, by decide, by decide⟩ }

/-- A milestone on the row below, six hours after the epoch. -/
def sixHours : Row :=
  { Row.ofMilestone { id := "M", start := ⟨.epoch, (TimeOfDay.of? 6 0 0 0).getD .midnight⟩ } with
    index := 1 }

/-- Ten days on the usual canvas. -/
def tenDays : Scale :=
  .ofSpan { now := default } (.atMidnight .epoch) (.atMidnight ⟨10, by decide, by decide⟩)

/-- The usual metrics of two rows. -/
def twoRows : Metrics Binary64 := .ofRows 2 50 100 5

/-- The task ends more than eight days after the milestone, and the connector lands to the left of where
    the task starts. -/
theorem route?_runsRight_overlapping :
    ∃ c, route? nineDays sixHours tenDays twoRows = some c ∧ 0 ≤ twoRows.rowHeight ∧
      (∀ p ∈ c.points, p.IsFinite) ∧
      Binary64.lt (tenDays.x sixHours.start) (tenDays.x nineDays.finish) = true ∧
      Binary64.lt (landingX sixHours tenDays twoRows) (tenDays.x nineDays.start) = true ∧
      c.RunsRight := by
  have hok : (route? nineDays sixHours tenDays twoRows).map
      (fun c => decide (∀ p ∈ c.points, p.IsFinite)) = some true := by decide +kernel
  obtain ⟨c, hc, hdecided⟩ := Option.map_eq_some_iff.1 hok
  have hrow : 0 ≤ twoRows.rowHeight := by decide +kernel
  have hfinite := of_decide_eq_true hdecided
  exact ⟨c, hc, hrow, hfinite, by decide +kernel, by decide +kernel,
    route?_runsRight hc hrow hfinite⟩

end Connector

end GanttChart
