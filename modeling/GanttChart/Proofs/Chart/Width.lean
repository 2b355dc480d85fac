/-
  The width of the canvas.

  1. **Profiles.**  The profile of a shape is what is left of it when positions and lengths along the
     width are dropped: its heights, and for a text its lines and how they are set (`Shape.profile`).

  2. **Plans.**  Another width leaves the findings of a layout alone, since they hold instants and no
     positions (`Schedule.findings_width`).  So the plans differ in the width and in the scale only
     (`Schedule.planOf_width`).

  3. **Instructions.**  Such plans draw every layer with the same profiles in the same order
     (`Plan.SameUpright.drawn`).  Whether an edge has a connector depends on instants, and none of its
     heights on a position.  The labels of groups and tasks are the exception: their lines are wrapped
     to a room that follows the width, and with the number of lines goes the height of the first one.
-/
import GanttChart.Proofs.Chart.Finding

namespace GanttChart

/-! ## Profiles -/

/-- The height of a point. -/
def Point.profile (p : Point) : Point := ⟨0, p.y⟩

/-- The piece of a path with the heights of its points. -/
def PathStep.profile : PathStep → PathStep
  | .moveTo p => .moveTo p.profile
  | .lineTo p => .lineTo p.profile
  | .curveTo control₁ control₂ p => .curveTo control₁.profile control₂.profile p.profile
  | .close => .close

/-- The shape without its positions and lengths along the width. -/
def Shape.profile : Shape → Shape
  | .rect _ y _ height cornerRadius => .rect 0 y 0 height cornerRadius
  | .diamond center size => .diamond center.profile size
  | .line source target => .line source.profile target.profile
  | .text _ y lines lineHeight anchor => .text 0 y lines lineHeight anchor
  | .path steps => .path (steps.map PathStep.profile)

/-- The kinds of shapes. -/
inductive ShapeKind where
  | rect
  | diamond
  | line
  | text
  | path
  deriving DecidableEq

/-- The kind of a shape. -/
def Shape.kind : Shape → ShapeKind
  | .rect .. => .rect
  | .diamond .. => .diamond
  | .line .. => .line
  | .text .. => .text
  | .path .. => .path

/-- The instructions differ along the width only, or they are labels that are wrapped to a room that
    follows the width. -/
structure Instruction.SameUpright (a b : Instruction) : Prop where
  layer : a.layer = b.layer
  style : a.style = b.style
  action : a.action = b.action
  item : a.item = b.item
  progress : a.progress = b.progress
  kind : a.shape.kind = b.shape.kind
  profile : a.layer ≠ .groupLabels → a.layer ≠ .taskLabels → a.shape.profile = b.shape.profile

/-- The charts differ along the width only. -/
structure Geometry.SameUpright (g h : Geometry) : Prop where
  height : g.height = h.height
  start : g.start = h.start
  finish : g.finish = h.finish
  rows : g.rows = h.rows
  bands : g.bands = h.bands
  instructions : List.Forall₂ Instruction.SameUpright g.instructions h.instructions

/-! ## Plans

  The lemmas that follow compare what two such plans draw, one shape at a time.  Each rests on
  one or two of the fields above, and together they name every field. -/

/-- The plans agree on everything that heights depend on; the widths of their canvas and of their scales
    may differ. -/
structure Plan.SameUpright (p q : Plan) : Prop where
  options : p.options = q.options
  rows : p.rows = q.rows
  metrics : p.metrics = q.metrics
  bands : p.bands = q.bands
  edges : p.edges = q.edges
  actions : p.actions = q.actions
  start : p.scale.start = q.scale.start
  finish : p.scale.finish = q.scale.finish
  lineHeight : p.config.lineHeight = q.config.lineHeight
  glyphWidth : p.config.taskGlyphWidth = q.config.taskGlyphWidth

/-- Where a connector runs up and down does not depend on the scale, nor does whether there is one. -/
theorem Connector.profile_route? (source target : Row) (scale scale' : Scale)
    (metrics : Metrics Binary64) :
    (route? source target scale metrics).map
        (fun c => (c.path.map PathStep.profile, c.arrowHead.map PathStep.profile)) =
      (route? source target scale' metrics).map
        fun c => (c.path.map PathStep.profile, c.arrowHead.map PathStep.profile) := by
  unfold route?
  split
  · rfl
  · simp only [Option.map_some, List.map_cons, List.map_nil, PathStep.profile, Point.profile,
      arrowHeadAt, Point.offset]

/-- A profile is a shape of the same kind. -/
theorem Shape.kind_profile (shape : Shape) : shape.profile.kind = shape.kind := by
  cases shape with
  | rect x y width height cornerRadius => rfl
  | diamond center size => rfl
  | line source target => rfl
  | text x y lines lineHeight anchor => rfl
  | path steps => rfl

/-- Instructions that differ in shapes of one profile. -/
theorem Instruction.SameUpright.of_profile {layer : Layer} {shape shape' : Shape} {style : String}
    {action : Option Action} {item : Option String} {progress : Option Binary64}
    (h : shape.profile = shape'.profile) :
    Instruction.SameUpright { layer, shape, style, action, item, progress }
      { layer, shape := shape', style, action, item, progress } where
  layer := rfl
  style := rfl
  action := rfl
  item := rfl
  progress := rfl
  kind := by rw [← Shape.kind_profile shape, h, Shape.kind_profile]
  profile _ _ := h

/-- Labels that are wrapped to different rooms. -/
theorem Instruction.SameUpright.of_label {layer : Layer} {shape shape' : Shape} {style : String}
    {action : Option Action} {item : Option String} {progress : Option Binary64}
    (hlayer : layer = .groupLabels ∨ layer = .taskLabels) (hshape : shape.kind = .text)
    (hshape' : shape'.kind = .text) :
    Instruction.SameUpright { layer, shape, style, action, item, progress }
      { layer, shape := shape', style, action, item, progress } where
  layer := rfl
  style := rfl
  action := rfl
  item := rfl
  progress := rfl
  kind := hshape.trans hshape'.symm
  profile hgroup htask := by
    rcases hlayer with hlayer | hlayer
    · exact absurd hlayer hgroup
    · exact absurd hlayer htask

namespace Plan.SameUpright

variable {p q : Plan}

/-- The axis runs on the same height. -/
theorem axisY_eq (h : p.SameUpright q) : p.axisY = q.axisY := by
  unfold Plan.axisY
  rw [h.metrics]

/-- The same lines centred on the same height. -/
theorem profile_label (h : p.SameUpright q) (x x' center : Binary64) (lines : List String)
    (anchor : TextAnchor) :
    (p.label x center lines anchor).profile = (q.label x' center lines anchor).profile := by
  simp only [Plan.label, Label.block, Shape.profile, h.lineHeight]

/-- The same click belongs to an item. -/
theorem action?_eq (h : p.SameUpright q) (id : String) : p.action? id = q.action? id := by
  unfold Plan.action?
  rw [h.actions]

/-- The line of the axis lies on the axis. -/
theorem axisLine (h : p.SameUpright q) : p.axisLine.SameUpright q.axisLine :=
  .of_profile (by simp only [Shape.profile, Point.profile, h.axisY_eq])

/-- The line of a tick runs from the top of the canvas to the axis. -/
theorem tickLine (h : p.SameUpright q) (t : Instant) : (p.tickLine t).SameUpright (q.tickLine t) :=
  .of_profile (by simp only [Shape.profile, Point.profile, h.axisY_eq])

/-- The label of a tick is set one line below the axis, and the height of a line is a setting. -/
theorem tickLabel (h : p.SameUpright q) (t : Instant) (label : List Char) :
    (p.tickLabel t label).SameUpright (q.tickLabel t label) := by
  unfold Plan.tickLabel
  rw [h.lineHeight]
  exact .of_profile (by simp only [Shape.profile, h.axisY_eq])

/-- The block of a group covers the same rows. -/
theorem groupBlock (h : p.SameUpright q) (band : Band) :
    (p.groupBlock band).SameUpright (q.groupBlock band) :=
  .of_profile (by simp only [Shape.profile, Plan.bandTop, Plan.bandHeight, h.metrics])

/-- The title of a band may be broken into other lines. -/
theorem groupLabel (p q : Plan) (band : Band) :
    (p.groupLabel band).SameUpright (q.groupLabel band) :=
  .of_label (.inl rfl) rfl rfl

/-- An instruction of an item, whose action does not depend on the scale. -/
theorem itemInstruction (h : p.SameUpright q) {layer : Layer} (row : Row) {shape shape' : Shape}
    (hshape : shape.profile = shape'.profile) :
    (p.itemInstruction layer row shape).SameUpright (q.itemInstruction layer row shape') := by
  unfold Plan.itemInstruction
  rw [h.action?_eq]
  exact .of_profile hshape

/-- A bar keeps its height and its place among the rows. -/
theorem bar (h : p.SameUpright q) (row : Row) : (p.bar row).SameUpright (q.bar row) :=
  h.itemInstruction row (by simp only [Shape.profile, h.metrics])

/-- The title of a task may be broken into other lines. -/
theorem barLabel (h : p.SameUpright q) (row : Row) :
    (p.barLabel row).SameUpright (q.barLabel row) := by
  unfold Plan.barLabel Plan.itemInstruction
  rw [h.action?_eq]
  exact .of_label (.inr rfl) rfl rfl

/-- The size of a diamond follows the height of bars. -/
theorem diamond (h : p.SameUpright q) (row : Row) : (p.diamond row).SameUpright (q.diamond row) :=
  h.itemInstruction row (by
    simp only [Shape.profile, Point.profile, Plan.diamondSize, h.metrics])

/-- The room of a milestone's label is a number of rows, and so the title is broken the same. -/
theorem diamondLabel (h : p.SameUpright q) (row : Row) :
    (p.diamondLabel row).SameUpright (q.diamondLabel row) := by
  have hbudget : p.diamondBudget = q.diamondBudget := by
    unfold Plan.diamondBudget
    rw [h.metrics, h.glyphWidth]
  refine h.itemInstruction row ?_
  rw [hbudget, h.metrics]
  exact h.profile_label _ _ _ _ _

/-- The marker runs over the whole height. -/
theorem todayMarker (h : p.SameUpright q) : p.todayMarker.SameUpright q.todayMarker :=
  .of_profile (by simp only [Shape.profile, Point.profile, h.metrics])

/-- The title is one line in the top row. -/
theorem titleText (h : p.SameUpright q) (title : String) :
    (p.titleText title).SameUpright (q.titleText title) := by
  refine .of_profile ?_
  rw [h.metrics]
  exact h.profile_label _ _ _ _ _

/-- Either both plans connect an edge, or neither does. -/
theorem connector (h : p.SameUpright q) (edge : Edge) :
    List.Forall₂ Instruction.SameUpright (p.connector edge) (q.connector edge) := by
  -- the rows of the edge are the same, so only the two routes have to be compared
  unfold Plan.connector
  rw [h.rows, h.metrics]
  cases q.rows[edge.source]? with
  | none => exact .nil
  | some source =>
    cases q.rows[edge.target]? with
    | none => exact .nil
    | some target =>
      have hroute := Connector.profile_route? source target p.scale q.scale q.metrics
      dsimp only
      cases hp : Connector.route? source target p.scale q.metrics with
      | none =>
        rw [hp, Option.map_none, eq_comm, Option.map_eq_none_iff] at hroute
        rw [hroute]
        exact .nil
      | some c =>
        rw [hp, Option.map_some, eq_comm, Option.map_eq_some_iff] at hroute
        obtain ⟨c', hq, hprofile⟩ := hroute
        obtain ⟨hpath, hhead⟩ := Prod.mk.inj hprofile
        rw [hq]
        exact .cons (.of_profile (congrArg Shape.path hpath.symm))
          (.cons (.of_profile (congrArg Shape.path hhead.symm)) .nil)

/-! ## Layers -/

/-- A tick has its line and its label. -/
theorem drawTick (h : p.SameUpright q) (tick : Instant × List Char) :
    List.Forall₂ Instruction.SameUpright (p.drawTick tick) (q.drawTick tick) :=
  .cons (h.tickLine tick.1) (.cons (h.tickLabel tick.1 tick.2) .nil)

/-- The same bands are shown. -/
theorem shownBands_eq (h : p.SameUpright q) : p.shownBands = q.shownBands := by
  unfold Plan.shownBands
  rw [h.bands]

/-- The same rows are shown of either kind. -/
theorem rowsOf_eq (h : p.SameUpright q) (kind : RowKind) : p.rowsOf kind = q.rowsOf kind := by
  unfold Plan.rowsOf
  rw [h.rows]

/-- **Every layer has the same instructions**, up to their places along the width. -/
theorem drawn (h : p.SameUpright q) (ticks : List (Instant × List Char)) (layer : Layer) :
    List.Forall₂ Instruction.SameUpright (p.drawn (p.axis ticks) layer)
      (q.drawn (q.axis ticks) layer) := by
  -- the lists that the layers run over are the same, so each layer is compared member by member
  cases layer with
  | grid =>
    show List.Forall₂ _ (p.axisLine :: ticks.flatMap p.drawTick)
      (q.axisLine :: ticks.flatMap q.drawTick)
    exact .cons h.axisLine (forall₂_flatMap h.drawTick ticks)
  | groupBlocks =>
    show List.Forall₂ _ (p.shownBands.map p.groupBlock) (q.shownBands.map q.groupBlock)
    rw [h.shownBands_eq]
    exact forall₂_map h.groupBlock q.shownBands
  | groupLabels =>
    show List.Forall₂ _ (p.shownBands.map p.groupLabel) (q.shownBands.map q.groupLabel)
    rw [h.shownBands_eq]
    exact forall₂_map (groupLabel p q) q.shownBands
  | todayMarker =>
    show List.Forall₂ _ (if p.options.isOn .todayMarker then [p.todayMarker] else [])
      (if q.options.isOn .todayMarker then [q.todayMarker] else [])
    rw [h.options]
    split
    · exact .cons h.todayMarker .nil
    · exact .nil
  | tasks =>
    show List.Forall₂ _ ((p.rowsOf .task).map p.bar) ((q.rowsOf .task).map q.bar)
    rw [h.rowsOf_eq]
    exact forall₂_map h.bar (q.rowsOf .task)
  | taskLabels =>
    show List.Forall₂ _ ((p.rowsOf .task).map p.barLabel) ((q.rowsOf .task).map q.barLabel)
    rw [h.rowsOf_eq]
    exact forall₂_map h.barLabel (q.rowsOf .task)
  | milestones =>
    show List.Forall₂ _ ((p.rowsOf .milestone).map p.diamond)
      ((q.rowsOf .milestone).map q.diamond)
    rw [h.rowsOf_eq]
    exact forall₂_map h.diamond (q.rowsOf .milestone)
  | milestoneLabels =>
    show List.Forall₂ _ ((p.rowsOf .milestone).map p.diamondLabel)
      ((q.rowsOf .milestone).map q.diamondLabel)
    rw [h.rowsOf_eq]
    exact forall₂_map h.diamondLabel (q.rowsOf .milestone)
  | dependencies =>
    show List.Forall₂ _ (if p.options.isOn .dependencies then p.edges.flatMap p.connector else [])
      (if q.options.isOn .dependencies then q.edges.flatMap q.connector else [])
    rw [h.options, h.edges]
    split
    · exact forall₂_flatMap h.connector q.edges
    · exact .nil
  | title =>
    show List.Forall₂ _ (p.options.title.map p.titleText).toList
      (q.options.title.map q.titleText).toList
    rw [h.options]
    cases q.options.title with
    | none => exact .nil
    | some title => exact .cons (h.titleText title) .nil

/-- The chart keeps its height and its span, and every instruction. -/
theorem chart (h : p.SameUpright q) (ticks : List (Instant × List Char)) :
    (p.finish (p.axis ticks)).SameUpright (q.finish (q.axis ticks)) where
  height := congrArg Metrics.height h.metrics
  start := h.start
  finish := h.finish
  rows := h.rows
  bands := h.bands
  instructions := Plan.forall₂_finish (h.drawn ticks)

end Plan.SameUpright

/-! ## Widths -/

namespace Schedule

variable (s : Schedule) (config : Config) (width : Binary64)

/-- **The width has no part in the findings**, which hold instants and no positions. -/
theorem findings_width : s.findings { config with width } = s.findings config := rfl

/-- Of one set of findings, plans for two widths agree on everything upright. -/
theorem planOf_width (f : Findings) :
    (s.planOf config f).SameUpright (s.planOf { config with width } f) where
  options := rfl
  rows := rfl
  metrics := rfl
  bands := rfl
  edges := rfl
  actions := rfl
  start := rfl
  finish := rfl
  lineHeight := rfl
  glyphWidth := rfl

end Schedule

/-- **The width of the canvas shows along the width only**: with another one a layout succeeds or
    fails with the same fault, and the chart is the same from the top to the bottom.

    Nothing is assumed of either width.  A canvas too narrow for its labels only breaks them into
    more lines. -/
theorem layout_width (s : Schedule) (config : Config) (width : Binary64) :
    Outcome.Alike Geometry.SameUpright (s.layout config) (s.layout { config with width }) := by
  refine Schedule.layout_alike (s.findings_width config width) fun f _ => ?_
  exact (s.planOf_width config width f).chart f.ticks

end GanttChart
