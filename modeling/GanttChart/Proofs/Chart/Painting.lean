/-
  What a chart paints, layer by layer.

  1. **Layers.**  The instructions of a chart are those drawn for each of the layers, one layer after
     the other (`Plan.instructions_finish`).  So a layer of the chart is what was drawn for it
     (`Plan.layer_finish`), and nothing is painted below an earlier instruction.

  2. **Items.**  The four layers of items draw every row of their kind once, and what they draw is
     stamped with the row's id, style and progress.

  3. **Connectors.**  An edge that leads forward in time gives a line and an arrow head, and any other
     edge nothing (`Plan.connector_cases`), so the layer is a list of pairs, one for each forward edge.

  `Paints` says all of this of a finished chart, and `layout_paints` that every chart is so.  The
  connectors are drawn only if their option is on; without it even a forward edge has none
  (`layout_hides_connectors`).
-/
import GanttChart.Proofs.Chart.Actions
import GanttChart.Proofs.Chart.Band

namespace GanttChart

/-! ## Layers

  What is painted is the stack of all layers, each drawn for itself.  The four lemmas of the
  section know nothing of plans: `draw` is any drawing that puts on a layer only what belongs to
  it.  Then a layer is got back from the stack by filtering. -/

/-- How many layers lie below. -/
def Layer.depth (layer : Layer) : Nat := Layer.all.idxOf layer

/-- The list of layers goes from the lowest one up. -/
theorem Layer.pairwise_all : Layer.all.Pairwise fun a b => a.depth ≤ b.depth := by decide

section Stack

variable {draw : Layer → List Instruction}

/-- Of what is drawn for one layer, a choice of layers keeps all or nothing. -/
theorem filter_layer (hdraw : ∀ layer, ∀ instruction ∈ draw layer, instruction.layer = layer)
    (shown : Layer → Bool) (layer : Layer) :
    (draw layer).filter (fun instruction => shown instruction.layer) =
      if shown layer then draw layer else [] := by
  split
  · rename_i hshown
    rw [List.filter_eq_self]
    intro instruction hi
    rw [hdraw layer instruction hi]
    exact hshown
  · rename_i hhidden
    rw [List.filter_eq_nil_iff]
    intro instruction hi
    rw [hdraw layer instruction hi]
    exact hhidden

/-- Some layers of a stack are what was drawn for them. -/
theorem filter_layers (hdraw : ∀ layer, ∀ instruction ∈ draw layer, instruction.layer = layer)
    (shown : Layer → Bool) (layers : List Layer) :
    (layers.flatMap draw).filter (fun instruction => shown instruction.layer) =
      (layers.filter shown).flatMap draw := by
  induction layers with
  | nil => rfl
  | cons layer layers ih =>
    rw [List.flatMap_cons, List.filter_append, ih, filter_layer hdraw, List.filter_cons]
    split
    · rw [List.flatMap_cons]
    · rw [List.nil_append]

/-- A layer of the stack of all layers is what was drawn for it. -/
theorem filter_stack (hdraw : ∀ layer, ∀ instruction ∈ draw layer, instruction.layer = layer)
    (layer : Layer) :
    (Layer.all.flatMap draw).filter (fun instruction => instruction.layer == layer) =
      draw layer := by
  have hone : Layer.all.filter (fun other => other == layer) = [layer] := by
    cases layer <;> decide
  rw [filter_layers hdraw fun other => other == layer, hone, List.flatMap_singleton]

/-- The instructions of the stack never go down. -/
theorem pairwise_stack (hdraw : ∀ layer, ∀ instruction ∈ draw layer, instruction.layer = layer) :
    (Layer.all.flatMap draw).Pairwise fun a b => a.layer.depth ≤ b.layer.depth := by
  rw [List.pairwise_flatMap]
  constructor
  · intro layer _
    refine List.pairwise_of_forall_mem_list fun a ha b hb => ?_
    rw [hdraw layer a ha, hdraw layer b hb]
  · refine Layer.pairwise_all.imp fun {layer other} hle a ha b hb => ?_
    rw [hdraw layer a ha, hdraw other b hb]
    exact hle

end Stack

namespace Plan

variable {plan : Plan} {grid : List Instruction}

/-- What a plan draws for a layer, with the grid drawn already. -/
def drawn (plan : Plan) (grid : List Instruction) : Layer → List Instruction
  | .grid => grid
  | .groupBlocks => plan.shownBands.map plan.groupBlock
  | .groupLabels => plan.shownBands.map plan.groupLabel
  | .todayMarker => if plan.options.isOn .todayMarker then [plan.todayMarker] else []
  | .tasks => (plan.rowsOf .task).map plan.bar
  | .taskLabels => (plan.rowsOf .task).map plan.barLabel
  | .milestones => (plan.rowsOf .milestone).map plan.diamond
  | .milestoneLabels => (plan.rowsOf .milestone).map plan.diamondLabel
  | .dependencies =>
    if plan.options.isOn .dependencies then plan.edges.flatMap plan.connector else []
  | .title => (plan.options.title.map plan.titleText).toList

/-- A finished chart is the stack of what the plan draws for each layer. -/
theorem instructions_finish (plan : Plan) (grid : List Instruction) :
    (plan.finish grid).instructions = Layer.all.flatMap (plan.drawn grid) := by
  simp only [finish, overlay, Layer.all, drawn, List.flatMap_cons, List.flatMap_nil,
    List.append_assoc, List.append_nil]

/-- What a function draws for the members of a list is on the layer of the function. -/
theorem layer_of_mem_map {α : Type} {xs : List α} {draw : α → Instruction} {layer : Layer}
    (hdraw : ∀ x, (draw x).layer = layer) : ∀ instruction ∈ xs.map draw, instruction.layer = layer := by
  intro instruction hi
  obtain ⟨x, _, rfl⟩ := List.mem_map.1 hi
  exact hdraw x

/-- What is drawn for a layer is on it. -/
theorem layer_of_mem_drawn (h : plan.grid = .ok grid) (layer : Layer) :
    ∀ instruction ∈ plan.drawn grid layer, instruction.layer = layer := by
  -- most layers are drawn by one function for the members of a list; the marker, the connectors and
  -- the title hang on an option, and so have a case for the empty layer
  cases layer with
  | grid =>
    intro instruction hi
    rcases mem_grid h hi with rfl | ⟨t, rfl | ⟨label, rfl⟩⟩
    · rfl
    · rfl
    · rfl
  | groupBlocks => exact layer_of_mem_map fun _ => rfl
  | groupLabels => exact layer_of_mem_map fun _ => rfl
  | todayMarker =>
    intro instruction hi
    simp only [drawn] at hi
    split at hi
    · rw [List.mem_singleton.1 hi]
      rfl
    · cases hi
  | tasks => exact layer_of_mem_map fun _ => rfl
  | taskLabels => exact layer_of_mem_map fun _ => rfl
  | milestones => exact layer_of_mem_map fun _ => rfl
  | milestoneLabels => exact layer_of_mem_map fun _ => rfl
  | dependencies =>
    intro instruction hi
    simp only [drawn] at hi
    split at hi
    · obtain ⟨edge, _, hi⟩ := List.mem_flatMap.1 hi
      exact (layer_of_mem_connector hi).1
    · cases hi
  | title =>
    intro instruction hi
    simp only [drawn, Option.mem_toList, Option.map_eq_some_iff] at hi
    obtain ⟨title, _, rfl⟩ := hi
    rfl

/-- **A layer of a chart** is what was drawn for it. -/
theorem layer_finish (h : plan.grid = .ok grid) (layer : Layer) :
    (plan.finish grid).layer layer = plan.drawn grid layer := by
  unfold Geometry.layer
  rw [instructions_finish]
  exact filter_stack (layer_of_mem_drawn h) layer

/-- **Nothing is painted below an earlier instruction.** -/
theorem pairwise_finish (h : plan.grid = .ok grid) :
    (plan.finish grid).instructions.Pairwise fun a b => a.layer.depth ≤ b.layer.depth := by
  rw [instructions_finish]
  exact pairwise_stack (layer_of_mem_drawn h)

end Plan

/-! ## Connectors

  An edge has two rows by construction, but the drawing looks them up again by their positions,
  and has to say what it does if there are none.  `Edge.leadsForward` takes the same way. -/

/-- The target of the edge starts after its source. -/
def Edge.leadsForward (rows : List Row) (edge : Edge) : Bool :=
  match rows[edge.source]?, rows[edge.target]? with
  | some source, some target => source.start < target.start
  | _, _ => false

/-- A line from the middle of an edge's source to the middle of its target, and an arrow head on the
    end of the line, both in the style of the source. -/
def Edge.ShownBy (metrics : Metrics Binary64) (rows : List Row) (edge : Edge)
    (connector : Instruction × Instruction) : Prop :=
  ∃ source target x bends tip, rows[edge.source]? = some source ∧
    rows[edge.target]? = some target ∧
    connector.1.shape =
      .path (.moveTo ⟨x, metrics.rowCenter source.index⟩ :: (bends ++ [.lineTo tip])) ∧
    tip.y = metrics.rowCenter target.index ∧
    connector.2.shape = .path (Connector.arrowHeadAt tip) ∧
    connector.1.style = source.style ++ " path" ∧
    connector.2.style = source.style ++ " arrow-head"

/-- The layer of dependencies is a line and an arrow head for every edge that leads forward, in the
    order of the edges. -/
def Geometry.ConnectsForward (metrics : Metrics Binary64) (g : Geometry) : Prop :=
  ∃ edges connectors, Edge.ofRows g.rows = .ok edges ∧
    List.Forall₂ (Edge.ShownBy metrics g.rows) (edges.filter (Edge.leadsForward g.rows)) connectors ∧
    g.layer .dependencies = connectors.flatMap fun connector => [connector.1, connector.2]

namespace Plan

variable {plan : Plan}

/-- An edge that leads forward is drawn as a line and an arrow head, and any other as nothing. -/
theorem connector_cases (plan : Plan) (edge : Edge) :
    (edge.leadsForward plan.rows = false ∧ plan.connector edge = []) ∨
      (edge.leadsForward plan.rows = true ∧ ∃ connector,
        edge.ShownBy plan.metrics plan.rows connector ∧
          plan.connector edge = [connector.1, connector.2]) := by
  unfold Edge.leadsForward Edge.ShownBy connector
  cases hsource : plan.rows[edge.source]? with
  | none => exact .inl ⟨rfl, rfl⟩
  | some source =>
    cases htarget : plan.rows[edge.target]? with
    | none => exact .inl ⟨rfl, rfl⟩
    | some target =>
      unfold Connector.route?
      by_cases hback : target.start ≤ source.start
      · -- the route gives up on a target that does not start after its source
        left
        simp only [if_pos hback]
        exact ⟨decide_eq_false (Int.not_lt.2 hback), trivial⟩
      · -- the witnesses are read off the route: two lines and a curve stand before the last line
        right
        simp only [if_neg hback]
        exact ⟨decide_eq_true (Int.not_le.1 hback), (_, _), ⟨source, target, _, [_, _, _], _, rfl,
          rfl, rfl, rfl, rfl, rfl, rfl⟩, rfl⟩

/-- The edges are drawn one after another. -/
theorem flatMap_connector (plan : Plan) (edges : List Edge) :
    ∃ connectors,
      List.Forall₂ (Edge.ShownBy plan.metrics plan.rows)
        (edges.filter (Edge.leadsForward plan.rows)) connectors ∧
      edges.flatMap plan.connector =
        connectors.flatMap fun connector => [connector.1, connector.2] := by
  induction edges with
  | nil => exact ⟨[], .nil, rfl⟩
  | cons edge edges ih =>
    obtain ⟨connectors, hshown, hdrawn⟩ := ih
    -- an edge that leads back adds nothing on either side
    rcases plan.connector_cases edge with ⟨hback, hnone⟩ | ⟨hforward, connector, hone, hdraw⟩
    · refine ⟨connectors, ?_, ?_⟩
      · rwa [List.filter_cons_of_neg (by simp [hback])]
      · rw [List.flatMap_cons, hnone, List.nil_append, hdrawn]
    · refine ⟨connector :: connectors, ?_, ?_⟩
      · rw [List.filter_cons_of_pos hforward]
        exact .cons hone hshown
      · rw [List.flatMap_cons, List.flatMap_cons, hdraw, hdrawn]

end Plan

/-! ## Charts

  What each layer shows is compared with the rows and the bands of the chart itself, and these
  with the schedule.  Shapes of items are left to the theorems on bars and slots; here it counts
  that each item has one, with its id, style and progress. -/

/-- What an instruction of an item says about it: id, style and progress. -/
def Instruction.stamp (instruction : Instruction) : Option String × String × Option Binary64 :=
  (instruction.item, instruction.style, instruction.progress)

/-- The stamp of a row's instructions. -/
def Row.stamp (row : Row) : Option String × String × Option Binary64 :=
  (some row.id, row.style, row.progress)

/-- What is drawn row by row has the stamps of the rows. -/
theorem map_stamp {draw : Row → Instruction} (hdraw : ∀ row, (draw row).stamp = row.stamp)
    (rows : List Row) : (rows.map draw).map Instruction.stamp = rows.map Row.stamp := by
  rw [List.map_map]
  exact List.map_congr_left fun row _ => hdraw row

/-- The lines of a text. -/
def Shape.lines : Shape → List String
  | .text _ _ lines _ _ => lines
  | _ => []

namespace Geometry

/-- The rows of one kind, in their order. -/
def rowsOf (g : Geometry) (kind : RowKind) : List Row := g.rows.filter fun row => row.kind == kind

/-- The bands of groups that have a row. -/
def shownBands (g : Geometry) : List Band :=
  g.bands.filter fun band => g.rows.any fun row => row.group == some band.group

end Geometry

/-- The chart shows everything of a schedule once, and in the order of painting. -/
structure Paints (s : Schedule) (config : Config) (g : Geometry) : Prop where
  /-- Every task and every milestone has one row. -/
  rows : (g.rows.map Row.unplaced).Perm s.declaredRows
  /-- Every group has one band, in the order of declaration. -/
  bands : g.bands.map (fun band => (band.group, band.title)) =
    s.groups.mapIdx fun position group => (position, group.title)
  ordered : g.instructions.Pairwise fun a b => a.layer.depth ≤ b.layer.depth
  tasks : (g.layer .tasks).map Instruction.stamp = (g.rowsOf .task).map Row.stamp
  taskLabels : (g.layer .taskLabels).map Instruction.stamp = (g.rowsOf .task).map Row.stamp
  milestones : (g.layer .milestones).map Instruction.stamp = (g.rowsOf .milestone).map Row.stamp
  milestoneLabels :
    (g.layer .milestoneLabels).map Instruction.stamp = (g.rowsOf .milestone).map Row.stamp
  groupBlocks :
    (g.layer .groupBlocks).map (fun instruction => (instruction.shape, instruction.style)) =
      g.shownBands.map fun band =>
        (.rect 0 ((Plan.metricsOf config g.rows.length).rowTop band.start) config.width
          (.ofNat band.count * (Plan.metricsOf config g.rows.length).pitch) 0, band.style)
  groupLabels :
    (g.layer .groupLabels).map (fun instruction => (instruction.shape.lines, instruction.style)) =
      g.shownBands.map fun band =>
        (Label.wrapped band.title
          (Label.budget (config.width * config.groupColumnSize) config.groupGlyphWidth), band.style)
  /-- With the option the forward edges have connectors, and without it no edge has. -/
  dependencies :
    if s.options.isOn .dependencies then
      g.ConnectsForward (Plan.metricsOf config g.rows.length)
    else g.layer .dependencies = []
  todayMarker : (g.layer .todayMarker).length = if s.options.isOn .todayMarker then 1 else 0
  title : (g.layer .title).map (fun instruction => instruction.shape.lines) =
    (s.options.title.map fun title => [title]).toList

/-- A band has rows if its group has. -/
theorem Schedule.filter_bands (s : Schedule) (rows : List Row) :
    (s.bands rows).filter (fun band => band.count != 0) =
      (s.bands rows).filter fun band => rows.any fun row => row.group == some band.group := by
  refine List.filter_congr fun band hband => ?_
  obtain ⟨position, group, _, rfl⟩ := mem_bands_iff.1 hband
  rw [Band.count_ofGroup]
  show (Band.size rows position != 0) = rows.any fun row => row.group == some position
  rw [Bool.eq_iff_iff, bne_iff_ne, Band.size, ← Nat.pos_iff_ne_zero, List.countP_pos_iff,
    List.any_eq_true]

/-- The bands are those of the groups, in their order. -/
theorem Schedule.map_bands (s : Schedule) (rows : List Row) :
    (s.bands rows).map (fun band => (band.group, band.title)) =
      s.groups.mapIdx fun position group => (position, group.title) := by
  rw [bands_eq]
  apply List.ext_getElem?
  intro i
  rw [List.getElem?_map, List.getElem?_mapIdx, List.getElem?_mapIdx, Option.map_map]
  rfl

/-- **Every chart paints its schedule**: nothing is lost, doubled or out of order.

    A chart is a plan with a grid.  Each layer of it is what the plan draws for it, and what
    remains is to read the list of drawn instructions back as a list over rows, bands or edges. -/
theorem layout_paints {s : Schedule} {config : Config} {g : Geometry} (h : s.layout config = .ok g) :
    Paints s config g := by
  obtain ⟨plan, grid, hplan, hgrid, rfl⟩ := Schedule.layout_eq_ok_iff.1 h
  obtain ⟨scale, edges, actions, _, hedges, _, rfl⟩ := Plan.ofSchedule_eq_ok_iff.1 hplan
  have hlayer := Plan.layer_finish hgrid
  have hshown := s.filter_bands s.rows
  constructor
  case rows =>
    show (s.rows.map Row.unplaced).Perm s.declaredRows
    rw [Schedule.map_unplaced_rows]
    exact s.sortedRows_perm
  case bands => exact s.map_bands s.rows
  case ordered => exact Plan.pairwise_finish hgrid
  case tasks =>
    rw [hlayer]
    exact map_stamp (fun _ => rfl) _
  case taskLabels =>
    rw [hlayer]
    exact map_stamp (fun _ => rfl) _
  case milestones =>
    rw [hlayer]
    exact map_stamp (fun _ => rfl) _
  case milestoneLabels =>
    rw [hlayer]
    exact map_stamp (fun _ => rfl) _
  -- the plan shows the bands that count a row, which are those whose group has one
  case groupBlocks =>
    rw [hlayer]
    unfold Plan.drawn Plan.shownBands
    rw [List.map_map]
    exact congrArg (List.map _) hshown
  case groupLabels =>
    rw [hlayer]
    unfold Plan.drawn Plan.shownBands
    rw [List.map_map]
    exact congrArg (List.map _) hshown
  case dependencies =>
    obtain ⟨connectors, hconnectors, hdrawn⟩ :=
      (Plan.assemble s config scale edges actions).flatMap_connector edges
    split
    · rename_i hon
      refine ⟨edges, connectors, hedges, hconnectors, ?_⟩
      rw [hlayer, ← hdrawn]
      exact if_pos hon
    · rename_i hoff
      rw [hlayer]
      exact if_neg hoff
  case todayMarker =>
    rw [hlayer]
    show (if s.options.isOn .todayMarker then _ else _ : List Instruction).length = _
    split
    · rfl
    · rfl
  case title =>
    rw [hlayer]
    show ((s.options.title.map _).toList : List Instruction).map _ = _
    cases s.options.title with
    | none => rfl
    | some title => rfl

/-- A chart with a group, a task, a milestone after it and the connector between them. -/
theorem layout_paints_connector :
    ∃ s g, Schedule.ofText
        "option dependencies on\ngroup A\ntask T,a,,2024-01-01,1D\nmilestone M,m,,2024-01-03,a" =
          .ok s ∧
      s.layout { now := default } = .ok g ∧
      Layer.all.map (fun layer => (g.layer layer).length) = [13, 1, 1, 0, 1, 1, 1, 1, 2, 0] ∧
      Paints s { now := default } g := by
  have hok : ((Schedule.ofText
      "option dependencies on\ngroup A\ntask T,a,,2024-01-01,1D\nmilestone M,m,,2024-01-03,a").map
        fun s => (s.declaredInOrder, (s.layoutAsDeclared { now := default }).map fun g =>
          Layer.all.map fun layer => (g.layer layer).length)) =
      .ok (true, .ok [13, 1, 1, 0, 1, 1, 1, 1, 2, 0]) := by decide +kernel
  obtain ⟨s, g, hs, hg, hlengths⟩ := Schedule.layout_of_layoutAsDeclared hok
  exact ⟨s, g, hs, hg, hlengths, layout_paints hg⟩

/-- Without the option an edge that leads forward has no connector. -/
theorem layout_hides_connectors :
    ¬ ∀ (s : Schedule) (config : Config) (g : Geometry), s.layout config = .ok g →
      g.ConnectsForward (Plan.metricsOf config g.rows.length) := by
  intro hall
  have hok : ((Schedule.ofText "task T,a,,2024-01-01,1D\ntask U,u,,2024-01-03,1D,a").map fun s =>
      (s.declaredInOrder, (s.layoutAsDeclared { now := default }).map fun g =>
        ((Edge.ofRows g.rows).map fun edges => (edges.filter (Edge.leadsForward g.rows)).length,
          (g.layer .dependencies).length))) =
      .ok (true, .ok (.ok 1, 0)) := by decide +kernel
  obtain ⟨s, g, hs, hg, hresult⟩ := Schedule.layout_of_layoutAsDeclared hok
  obtain ⟨hedges, hnone⟩ := Prod.mk.inj hresult
  obtain ⟨edges, connectors, hbuilt, hshown, hlayer⟩ := hall s _ g hg
  obtain ⟨_, hbuilt', hone⟩ := Outcome.map_eq_ok_iff.1 hedges
  cases hbuilt.symm.trans hbuilt'
  have hlength := hshown.length_eq
  rw [hone] at hlength
  obtain ⟨connector, rfl⟩ := List.length_eq_one_iff.1 hlength.symm
  rw [hlayer] at hnone
  cases hnone

end GanttChart
