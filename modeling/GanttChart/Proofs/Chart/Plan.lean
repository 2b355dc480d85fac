/-
  Plans and layouts taken apart.

  A layout that succeeds has a plan, and everything in the plan is known: the scale, the edges and
  the actions are those of the schedule, and the rows are its items in another order
  (`Schedule.map_toItem_rows`).  Results about a finished chart start from
  `Schedule.layout_eq_ok_iff` and never open the layout again.

  1. **Plans.**  `Plan.assemble` is the plan of a schedule once the three steps that may fail have
     succeeded (`Plan.ofSchedule_eq_ok_iff`).

  2. **Layouts.**  With the grid there are four such steps.  A layout succeeds if all of them do, and
     its fault is that of the first one that fails (`Schedule.layout_eq_error_iff`).

  3. **Computed charts.**  A chart whose rows are in order as declared can be evaluated without a sort
     (`Schedule.layoutAsDeclared`); this is how charts of concrete texts are computed.
-/
import GanttChart.Chart.Layout
import GanttChart.Proofs.Chart.Row
import GanttChart.Proofs.Outcome

namespace GanttChart

/-! ## Plans -/

namespace Plan

/-- The plan of a schedule, from the results of the steps that can fail. -/
def assemble (s : Schedule) (config : Config) (scale : Scale) (edges : List Edge)
    (actions : List (String × Action)) : Plan where
  options := s.options
  config := config
  scale := scale
  rows := s.rows
  metrics := metricsOf config s.rows.length
  bands := s.bands s.rows
  edges := edges
  actions := actions

/-- **A plan is assembled from three results**, each of which may fail on its own. -/
theorem ofSchedule_eq_ok_iff {s : Schedule} {config : Config} {plan : Plan} :
    ofSchedule s config = .ok plan ↔
      ∃ scale edges actions, scaleOf s config = .ok scale ∧ Edge.ofRows s.rows = .ok edges ∧
        actionsOf config.deepLinkScheme s.events = .ok actions ∧
        plan = assemble s config scale edges actions := by
  unfold ofSchedule
  constructor
  · intro h
    obtain ⟨scale, hscale, h⟩ := Outcome.bind_eq_ok_iff.1 h
    obtain ⟨edges, hedges, h⟩ := Outcome.bind_eq_ok_iff.1 h
    obtain ⟨actions, hactions, h⟩ := Outcome.bind_eq_ok_iff.1 h
    exact ⟨scale, edges, actions, hscale, hedges, hactions, (Except.ok.inj h).symm⟩
  · rintro ⟨scale, edges, actions, hscale, hedges, hactions, rfl⟩
    refine Outcome.bind_eq_ok_iff.2 ⟨scale, hscale, ?_⟩
    refine Outcome.bind_eq_ok_iff.2 ⟨edges, hedges, ?_⟩
    exact Outcome.bind_eq_ok_iff.2 ⟨actions, hactions, rfl⟩

/-! ## Layouts -/

/-- The chart of a plan, from the instructions of its grid. -/
def finish (plan : Plan) (grid : List Instruction) : Geometry where
  width := plan.config.width
  height := plan.metrics.height
  start := plan.scale.start
  finish := plan.scale.finish
  rows := plan.rows
  bands := plan.bands
  instructions := grid ++ plan.overlay

/-- Only the grid of a chart may fail. -/
theorem geometry_eq_ok_iff {plan : Plan} {g : Geometry} :
    plan.geometry = .ok g ↔ ∃ grid, plan.grid = .ok grid ∧ g = plan.finish grid := by
  unfold geometry
  constructor
  · intro h
    obtain ⟨grid, hgrid, h⟩ := Outcome.bind_eq_ok_iff.1 h
    exact ⟨grid, hgrid, (Except.ok.inj h).symm⟩
  · rintro ⟨grid, hgrid, rfl⟩
    rw [hgrid]
    rfl

end Plan

/-- A schedule is laid out through its plan and its grid. -/
theorem Schedule.layout_eq_ok_iff {s : Schedule} {config : Config} {g : Geometry} :
    s.layout config = .ok g ↔
      ∃ plan grid, Plan.ofSchedule s config = .ok plan ∧ plan.grid = .ok grid ∧
        g = plan.finish grid := by
  unfold layout
  simp only [Outcome.bind_eq_ok_iff, Plan.geometry_eq_ok_iff]
  constructor
  · rintro ⟨plan, hplan, grid, hgrid, rfl⟩
    exact ⟨plan, grid, hplan, hgrid, rfl⟩
  · rintro ⟨plan, grid, hplan, hgrid, rfl⟩
    exact ⟨plan, hplan, grid, hgrid, rfl⟩

/-- A schedule that is not laid out has a fault in one of four steps, and the first one counts. -/
theorem Schedule.layout_eq_error_iff {s : Schedule} {config : Config} {fault : LayoutFault} :
    s.layout config = .error fault ↔
      Plan.scaleOf s config = .error fault ∨ ∃ scale, Plan.scaleOf s config = .ok scale ∧
        (Edge.ofRows s.rows = .error fault ∨ ∃ edges, Edge.ofRows s.rows = .ok edges ∧
          (Plan.actionsOf config.deepLinkScheme s.events = .error fault ∨
            ∃ actions, Plan.actionsOf config.deepLinkScheme s.events = .ok actions ∧
              (Plan.assemble s config scale edges actions).grid = .error fault)) := by
  -- in a chart only the grid may fail
  have hgeometry : ∀ plan : Plan, plan.geometry = .error fault ↔ plan.grid = .error fault := by
    intro plan
    unfold Plan.geometry
    rw [Outcome.bind_eq_error_iff]
    refine or_iff_left ?_
    rintro ⟨_, _, h⟩
    cases h
  unfold layout Plan.ofSchedule
  simp only [bind_assoc, pure_bind, Outcome.bind_eq_error_iff]
  refine or_congr_right (exists_congr fun scale => and_congr_right fun _ =>
    or_congr_right (exists_congr fun edges => and_congr_right fun _ =>
      or_congr_right (exists_congr fun actions => and_congr_right fun _ => ?_)))
  exact hgeometry (Plan.assemble s config scale edges actions)

/-! ## Charts of rows in order as declared -/

/-- The plan of a schedule that has the given rows. -/
def Plan.ofRows (s : Schedule) (config : Config) (rows : List Row) : Except LayoutFault Plan := do
  let scale ← scaleOf s config
  let edges ← Edge.ofRows rows
  let actions ← actionsOf config.deepLinkScheme s.events
  return {
    options := s.options
    config
    scale
    rows
    metrics := metricsOf config rows.length
    bands := s.bands rows
    edges
    actions }

/-- The chart of a schedule whose rows are in order as declared; it can be computed without
    sorting. -/
def Schedule.layoutAsDeclared (s : Schedule) (config : Config) : Except LayoutFault Geometry := do
  (← Plan.ofRows s config s.numberedRows).geometry

/-- Without sorting the chart is the same, if there is nothing to sort. -/
theorem Schedule.layout_eq_layoutAsDeclared {s : Schedule} (h : s.declaredInOrder = true)
    (config : Config) : s.layout config = s.layoutAsDeclared config := by
  unfold layoutAsDeclared
  rw [← rows_eq_numberedRows h]
  rfl

/-- A value computed from the chart of a text whose rows are in order as declared. -/
theorem Schedule.layout_of_layoutAsDeclared {ε α : Type} {text : Except ε Schedule}
    {config : Config} {f : Schedule → Geometry → α} {value : α}
    (h : (text.map fun s => (s.declaredInOrder, (s.layoutAsDeclared config).map (f s))) =
      .ok (true, .ok value)) :
    ∃ s g, text = .ok s ∧ s.layout config = .ok g ∧ f s g = value := by
  obtain ⟨s, hs, hresult⟩ := Outcome.map_eq_ok_iff.1 h
  obtain ⟨horder, hlayout⟩ := Prod.mk.inj hresult
  obtain ⟨g, hg, hvalue⟩ := Outcome.map_eq_ok_iff.1 hlayout
  exact ⟨s, g, hs, by rw [layout_eq_layoutAsDeclared horder, hg], hvalue⟩

end GanttChart
