/-
  The clock: what a chart takes from the instant that counts as now.

  1. **Span.**  Now is asked for a span only if there are no instants (`Schedule.extent_eq`).  So with
     a task or a milestone the findings of a layout do not depend on it (`Schedule.findings_now`).

  2. **Drawing.**  A plan that is seen at another instant differs in one setting, and the today marker
     is the only layer that looks at it (`Plan.drawn_seenAt`).

  Without the marker the chart is the same at all times, and so is the document that is written from
  it.
-/
import GanttChart.Drawing
import GanttChart.Proofs.Chart.Finding

namespace GanttChart

/-- The instructions are equal, or both are today markers. -/
def Instruction.SameButMarker (a b : Instruction) : Prop :=
  a = b ∨ (a.layer = .todayMarker ∧ b.layer = .todayMarker)

/-- The charts are equal but for the instruction of the today marker. -/
structure Geometry.SameButMarker (g h : Geometry) : Prop where
  width : g.width = h.width
  height : g.height = h.height
  start : g.start = h.start
  finish : g.finish = h.finish
  rows : g.rows = h.rows
  bands : g.bands = h.bands
  instructions : List.Forall₂ Instruction.SameButMarker g.instructions h.instructions

/-! ## Drawing -/

namespace Plan

/-- The plan with another instant as now. -/
def seenAt (plan : Plan) (now : Instant) : Plan :=
  { plan with config := { plan.config with now } }

variable (plan : Plan) (now : Instant)

/-- **A layer does not look at the clock**, unless it is the marker and is shown. -/
theorem drawn_seenAt (ticks : List (Instant × List Char)) {layer : Layer}
    (h : layer = .todayMarker → plan.options.isOn .todayMarker = false) :
    (plan.seenAt now).drawn ((plan.seenAt now).axis ticks) layer =
      plan.drawn (plan.axis ticks) layer := by
  cases layer with
  | todayMarker =>
    have hoff : ¬ plan.options.isOn .todayMarker = true := by
      rw [h rfl]
      exact Bool.false_ne_true
    exact (if_neg hoff).trans (if_neg hoff).symm
  | _ => rfl

/-- The marker is drawn at every instant, or at none. -/
theorem forall₂_drawn_seenAt (ticks : List (Instant × List Char)) (layer : Layer) :
    List.Forall₂ Instruction.SameButMarker (plan.drawn (plan.axis ticks) layer)
      ((plan.seenAt now).drawn ((plan.seenAt now).axis ticks) layer) := by
  by_cases h : layer = .todayMarker
  · subst h
    show List.Forall₂ _ (if plan.options.isOn .todayMarker then [plan.todayMarker] else [])
      (if plan.options.isOn .todayMarker then [(plan.seenAt now).todayMarker] else [])
    split
    · exact .cons (.inr ⟨rfl, rfl⟩) .nil
    · exact .nil
  · rw [plan.drawn_seenAt now ticks fun hmarker => absurd hmarker h]
    exact List.forall₂_same.2 fun _ _ => .inl rfl

/-- At another instant a chart differs in its marker at most. -/
theorem chart_seenAt (ticks : List (Instant × List Char)) :
    (plan.finish (plan.axis ticks)).SameButMarker
      ((plan.seenAt now).finish ((plan.seenAt now).axis ticks)) := by
  constructor
  case instructions => exact forall₂_finish (plan.forall₂_drawn_seenAt now ticks)
  all_goals rfl

/-- A chart without the marker does not look at the clock. -/
theorem chart_seenAt_eq (h : plan.options.isOn .todayMarker = false)
    (ticks : List (Instant × List Char)) :
    (plan.seenAt now).finish ((plan.seenAt now).axis ticks) = plan.finish (plan.axis ticks) := by
  have hinstructions : ((plan.seenAt now).finish ((plan.seenAt now).axis ticks)).instructions =
      (plan.finish (plan.axis ticks)).instructions := by
    rw [instructions_finish, instructions_finish]
    exact List.flatMap_congr fun layer _ => plan.drawn_seenAt now ticks fun _ => h
  -- the rest of a chart is read off the plan, none of it off the setting that differs
  exact congrArg (fun instructions => { plan.finish [] with instructions }) hinstructions

end Plan

/-! ## Span -/

namespace Schedule

variable {s : Schedule}

/-- Every item has an instant. -/
theorem instants_ne_nil (h : s.size ≠ 0) : s.instants ≠ [] := by
  intro hnil
  obtain ⟨htasks, hmilestones⟩ := List.append_eq_nil_iff.1 hnil
  apply h
  -- a task has two instants, so there is no task
  have hnotask : s.tasks = [] := by
    cases hs : s.tasks with
    | nil => rfl
    | cons task tasks =>
      rw [hs] at htasks
      cases htasks
  unfold size
  rw [hnotask, List.map_eq_nil_iff.1 hmilestones]
  rfl

/-- Now is only the span of no instants. -/
theorem extent_eq {instants : List Instant} (h : instants ≠ []) (now now' : Instant) :
    extent now instants = extent now' instants := by
  cases instants with
  | nil => exact absurd rfl h
  | cons first rest => rfl

/-- With an item the span is that of the items, whatever the time is. -/
theorem span_eq (h : s.size ≠ 0) (now now' : Instant) : s.span now = s.span now' := by
  unfold span range?
  rw [extent_eq (instants_ne_nil h) now now']

/-- **With an item the findings do not depend on now.** -/
theorem findings_now (h : s.size ≠ 0) (config : Config) (now : Instant) :
    s.findings { config with now } = s.findings config := by
  unfold findings
  -- with the same span the ticks are looked for on the same scale, and nothing else asks for now
  rw [span_eq h now config.now]
  rfl

/-- At another instant the same findings give the same plan, seen at that instant. -/
theorem planOf_now (s : Schedule) (config : Config) (now : Instant) (f : Findings) :
    s.planOf { config with now } f = (s.planOf config f).seenAt now := rfl

/-- Without the marker the layouts are equal. -/
theorem layout_now_eq (h : s.size ≠ 0) (hoff : s.options.isOn .todayMarker = false)
    (config : Config) (now : Instant) : s.layout { config with now } = s.layout config := by
  rw [layout_eq_map, layout_eq_map, findings_now h]
  have hchart : s.chart { config with now } = s.chart config := by
    funext f
    unfold chart
    rw [planOf_now, Plan.chart_seenAt_eq (s.planOf config f) now hoff]
  rw [hchart]

end Schedule

/-- **The clock shows in the today marker only**: at another instant the layout of a schedule with an
    item succeeds or fails with the same fault, and the chart is the same but for the marker.  If the
    marker is not on, the chart is the same, and so is the document of the schedule or of a text that
    describes it. -/
theorem layout_now {s : Schedule} (h : s.size ≠ 0) (config : Config) (now : Instant) :
    Outcome.Alike Geometry.SameButMarker (s.layout config) (s.layout { config with now }) ∧
      (s.options.isOn .todayMarker = false →
        s.layout { config with now } = s.layout config ∧
          ∀ styled,
            (s.layout { config with now }).map (Svg.render styled) =
                (s.layout config).map (Svg.render styled) ∧
              ∀ text, Schedule.ofText text = .ok s →
                drawText text { config with now } styled = drawText text config styled) := by
  -- the first half is drawn from the same findings; the second needs no more than that the layouts
  -- are equal, as a document is made of the layout alone
  constructor
  · refine Schedule.layout_alike (Schedule.findings_now h config now) fun f _ => ?_
    unfold Schedule.chart
    rw [Schedule.planOf_now]
    exact (s.planOf config f).chart_seenAt now f.ticks
  · intro hoff
    have hsame := Schedule.layout_now_eq h hoff config now
    refine ⟨hsame, fun styled => ⟨by rw [hsame], fun text hs => ?_⟩⟩
    unfold drawText layoutText
    rw [hs]
    dsimp only
    rw [hsame]

/-- A task without a marker looks on its second day, the 2nd of January 2024, as it does at the epoch. -/
theorem layout_now_without_marker :
    ∃ s g, Schedule.ofText "task T,a,,2024-01-01,2D" = .ok s ∧ s.size ≠ 0 ∧
      s.options.isOn .todayMarker = false ∧ s.layout { now := default } = .ok g ∧
      s.layout { now := .atMidnight ⟨19724, by decide, by decide⟩ } = .ok g ∧
      drawText "task T,a,,2024-01-01,2D" { now := .atMidnight ⟨19724, by decide, by decide⟩ } true =
        drawText "task T,a,,2024-01-01,2D" { now := default } true := by
  have hok : ((Schedule.ofText "task T,a,,2024-01-01,2D").map fun s =>
      (s.declaredInOrder, (s.layoutAsDeclared { now := default }).map fun _ =>
        (s.size, s.options.isOn .todayMarker))) = .ok (true, .ok (1, false)) := by decide +kernel
  obtain ⟨s, g, hs, hg, hresult⟩ := Schedule.layout_of_layoutAsDeclared hok
  obtain ⟨hsize, hoff⟩ := Prod.mk.inj hresult
  have hitem : s.size ≠ 0 := by
    rw [hsize]
    decide
  obtain ⟨hlayout, hdocuments⟩ :=
    (layout_now hitem { now := default } (.atMidnight ⟨19724, by decide, by decide⟩)).2 hoff
  exact ⟨s, g, hs, hitem, hoff, hg, hlayout.trans hg, (hdocuments true).2 _ hs⟩

/-- With the marker the chart of that day is another one. -/
theorem layout_shows_now :
    ¬ ∀ (s : Schedule) (config : Config) (now : Instant), s.size ≠ 0 →
      s.layout { config with now } = s.layout config := by
  intro hall
  have hok : ((Schedule.ofText "option todaymarker on\ntask T,a,,2024-01-01,2D").map fun s =>
      (s.declaredInOrder, s.size,
        decide (s.layoutAsDeclared { now := .atMidnight ⟨19724, by decide, by decide⟩ } =
          s.layoutAsDeclared { now := default }))) = .ok (true, 1, false) := by decide +kernel
  obtain ⟨s, _, hresult⟩ := Outcome.map_eq_ok_iff.1 hok
  obtain ⟨horder, hresult⟩ := Prod.mk.inj hresult
  obtain ⟨hsize, hother⟩ := Prod.mk.inj hresult
  have hitem : s.size ≠ 0 := by
    rw [hsize]
    decide
  have hsame := hall s { now := default } (.atMidnight ⟨19724, by decide, by decide⟩) hitem
  rw [Schedule.layout_eq_layoutAsDeclared horder, Schedule.layout_eq_layoutAsDeclared horder]
    at hsame
  exact of_decide_eq_false hother hsame

end GanttChart
