/-
  A layout finds, then draws.

  1. **Findings.**  What may fail in a layout is worked out without drawing anything: the span, the
     edges, the actions, and the ticks with their labels (`Schedule.findings`).

  2. **Drawing.**  The chart is drawn from the findings and cannot fail (`Schedule.chart`).

  A layout is the one after the other (`Schedule.layout_eq_map`).  So layouts with the same findings
  succeed or fail together, and only their drawings have to be compared (`Schedule.layout_alike`).

  The layout itself draws its grid tick by tick and stops at the first label that fails.  Separating the
  labels from the instructions is the only rearrangement there is, and `Plan.grid_eq_map` is where it
  is justified: drawing a tick cannot fail, so all labels may be found first.
-/
import GanttChart.Proofs.Chart.Painting

namespace GanttChart

/-- Two lists made from one are related if their members are. -/
theorem forall₂_map {α β γ : Type} {R : β → γ → Prop} {f : α → β} {g : α → γ}
    (h : ∀ x, R (f x) (g x)) (xs : List α) : List.Forall₂ R (xs.map f) (xs.map g) := by
  rw [List.forall₂_map_left_iff, List.forall₂_map_right_iff, List.forall₂_same]
  exact fun x _ => h x

/-- Lists that are made element by element are related if what is made of each element is. -/
theorem forall₂_flatMap {α β γ : Type} {R : β → γ → Prop} {f : α → List β} {g : α → List γ}
    (h : ∀ x, List.Forall₂ R (f x) (g x)) (xs : List α) :
    List.Forall₂ R (xs.flatMap f) (xs.flatMap g) := by
  induction xs with
  | nil => exact .nil
  | cons x xs ih =>
    rw [List.flatMap_cons, List.flatMap_cons]
    exact List.rel_append (h x) ih

/-! ## The grid -/

namespace Plan

/-- A tick with its label. -/
def labelled (plan : Plan) (items : List Pattern.Item) (t : Instant) :
    Except LayoutFault (Instant × List Char) :=
  match Pattern.label? t items with
  | some label => .ok (t, label)
  | none => .error plan.patternFault

/-- The ticks with their labels. -/
def labelledTicks (plan : Plan) : Except LayoutFault (List (Instant × List Char)) := do
  let count ← plan.tickCount
  let items ← plan.pattern
  match plan.scale.ticks? count with
  | none => .error .dateOutOfRange
  | some ticks => ticks.mapM (plan.labelled items)

/-- The line and the label of a tick. -/
def drawTick (plan : Plan) (tick : Instant × List Char) : List Instruction :=
  [plan.tickLine tick.1, plan.tickLabel tick.1 tick.2]

/-- The line of the axis with the ticks. -/
def axis (plan : Plan) (ticks : List (Instant × List Char)) : List Instruction :=
  plan.axisLine :: ticks.flatMap plan.drawTick

/-- A tick is drawn once its label is found. -/
theorem tick_eq_map (plan : Plan) (items : List Pattern.Item) (t : Instant) :
    plan.tick items t = (plan.labelled items t).map plan.drawTick := by
  unfold tick labelled
  cases Pattern.label? t items with
  | none => rfl
  | some label => rfl

/-- The labels of all ticks are found before anything is drawn: a list of steps that may fail,
    each with something made of its result, is the steps first and the making after. -/
theorem grid_eq_map (plan : Plan) : plan.grid = plan.labelledTicks.map plan.axis := by
  unfold grid labelledTicks
  cases plan.tickCount with
  | error fault => rfl
  | ok count =>
    cases plan.pattern with
    | error fault => rfl
    | ok items =>
      simp only [bind, Except.bind]
      cases plan.scale.ticks? count with
      | none => rfl
      | some ticks =>
        have hdrawn : ticks.mapM (plan.tick items) =
            (ticks.mapM (plan.labelled items)).map (List.map plan.drawTick) := by
          rw [← Outcome.mapM_map_eq, funext (plan.tick_eq_map items)]
        dsimp only
        rw [hdrawn]
        cases ticks.mapM (plan.labelled items) with
        | error fault => rfl
        | ok found =>
          simp only [Except.map, axis, List.flatMap_def]
          rfl

/-- Charts are related instruction by instruction if their layers are. -/
theorem forall₂_finish {p q : Plan} {grid grid' : List Instruction}
    {R : Instruction → Instruction → Prop}
    (h : ∀ layer, List.Forall₂ R (p.drawn grid layer) (q.drawn grid' layer)) :
    List.Forall₂ R (p.finish grid).instructions (q.finish grid').instructions := by
  rw [instructions_finish, instructions_finish]
  exact forall₂_flatMap h Layer.all

/-- The chart of a plan is drawn from its labelled ticks. -/
theorem geometry_eq_map (plan : Plan) :
    plan.geometry = plan.labelledTicks.map fun ticks => plan.finish (plan.axis ticks) := by
  unfold geometry
  rw [grid_eq_map]
  cases plan.labelledTicks with
  | error fault => rfl
  | ok ticks => rfl

end Plan

/-! ## Findings -/

/-- What a chart is drawn from. -/
structure Findings where
  start : Instant
  finish : Instant
  edges : List Edge
  actions : List (String × Action)
  ticks : List (Instant × List Char)

namespace Schedule

/-- The time that a chart spans, or the fault that it cannot be widened. -/
def span (s : Schedule) (now : Instant) : Except LayoutFault (Instant × Instant) :=
  match s.range? now with
  | none => .error .dateOutOfRange
  | some span => .ok span

/-- The scale is made from the span. -/
theorem scaleOf_eq_map (s : Schedule) (config : Config) :
    Plan.scaleOf s config =
      (s.span config.now).map fun span => .ofSpan config span.1 span.2 := by
  unfold Plan.scaleOf span
  cases s.range? config.now with
  | none => rfl
  | some span => rfl

/-- Everything in a layout that may fail. -/
def findings (s : Schedule) (config : Config) : Except LayoutFault Findings := do
  let (start, finish) ← s.span config.now
  let edges ← Edge.ofRows s.rows
  let actions ← Plan.actionsOf config.deepLinkScheme s.events
  let ticks ← (Plan.assemble s config (.ofSpan config start finish) edges actions).labelledTicks
  return { start, finish, edges, actions, ticks }

/-- The plan of a chart whose findings are known. -/
def planOf (s : Schedule) (config : Config) (f : Findings) : Plan :=
  Plan.assemble s config (.ofSpan config f.start f.finish) f.edges f.actions

/-- The chart that is drawn from some findings. -/
def chart (s : Schedule) (config : Config) (f : Findings) : Geometry :=
  (s.planOf config f).finish ((s.planOf config f).axis f.ticks)

/-- **A layout finds, then draws.**  Both sides go through the same steps in the same order; a
    fault in one of them is the fault of both. -/
theorem layout_eq_map (s : Schedule) (config : Config) :
    s.layout config = (s.findings config).map (s.chart config) := by
  unfold layout Plan.ofSchedule findings
  rw [scaleOf_eq_map]
  cases s.span config.now with
  | error fault => rfl
  | ok span =>
    simp only [Except.map, bind, Except.bind]
    cases Edge.ofRows s.rows with
    | error fault => rfl
    | ok edges =>
      dsimp only
      cases Plan.actionsOf config.deepLinkScheme s.events with
      | error fault => rfl
      | ok actions =>
        show (Plan.assemble s config (.ofSpan config span.1 span.2) edges actions).geometry = _
        rw [Plan.geometry_eq_map]
        dsimp only
        cases (Plan.assemble s config (.ofSpan config span.1 span.2) edges actions).labelledTicks with
        | error fault => rfl
        | ok ticks => rfl

/-- The findings of a chart hold the actions of the events and the ticks. -/
theorem findings_eq_ok {s : Schedule} {config : Config} {f : Findings}
    (h : s.findings config = .ok f) :
    Plan.actionsOf config.deepLinkScheme s.events = .ok f.actions ∧
      (s.planOf config f).labelledTicks = .ok f.ticks := by
  obtain ⟨⟨start, finish⟩, _, h⟩ := Outcome.bind_eq_ok_iff.1 h
  obtain ⟨edges, _, h⟩ := Outcome.bind_eq_ok_iff.1 h
  obtain ⟨actions, hactions, h⟩ := Outcome.bind_eq_ok_iff.1 h
  obtain ⟨ticks, hticks, h⟩ := Outcome.bind_eq_ok_iff.1 h
  cases h
  exact ⟨hactions, hticks⟩

/-! ## Charts -/

/-- What is drawn for a layer from some findings. -/
def drawn (s : Schedule) (config : Config) (f : Findings) (layer : Layer) : List Instruction :=
  (s.planOf config f).drawn ((s.planOf config f).axis f.ticks) layer

/-- A chart is drawn layer by layer. -/
theorem instructions_chart (s : Schedule) (config : Config) (f : Findings) :
    (s.chart config f).instructions = Layer.all.flatMap (s.drawn config f) :=
  Plan.instructions_finish _ _

/-- What is drawn for a layer belongs to it. -/
theorem layer_of_mem_drawn {s : Schedule} {config : Config} {f : Findings}
    (h : s.findings config = .ok f) (layer : Layer) :
    ∀ instruction ∈ s.drawn config f layer, instruction.layer = layer := by
  apply Plan.layer_of_mem_drawn
  rw [Plan.grid_eq_map, (findings_eq_ok h).2]
  rfl

/-- Some layers of a chart are what was drawn for them. -/
theorem filter_chart {s : Schedule} {config : Config} {f : Findings}
    (h : s.findings config = .ok f) (shown : Layer → Bool) :
    (s.chart config f).instructions.filter (fun instruction => shown instruction.layer) =
      (Layer.all.filter shown).flatMap (s.drawn config f) := by
  rw [instructions_chart]
  exact filter_layers (layer_of_mem_drawn h) shown Layer.all

/-- One layer of a chart is what was drawn for it. -/
theorem layer_chart {s : Schedule} {config : Config} {f : Findings}
    (h : s.findings config = .ok f) (layer : Layer) :
    (s.chart config f).layer layer = s.drawn config f layer := by
  unfold Geometry.layer
  rw [instructions_chart]
  exact filter_stack (layer_of_mem_drawn h) layer

/-- **Layouts with the same findings** succeed or fail together, and are alike if their charts are. -/
theorem layout_alike {s other : Schedule} {config config' : Config} {R : Geometry → Geometry → Prop}
    (hfindings : other.findings config' = s.findings config)
    (hchart : ∀ f, s.findings config = .ok f → R (s.chart config f) (other.chart config' f)) :
    Outcome.Alike R (s.layout config) (other.layout config') := by
  rw [layout_eq_map, layout_eq_map, hfindings]
  exact .of_map hchart

end Schedule

end GanttChart
