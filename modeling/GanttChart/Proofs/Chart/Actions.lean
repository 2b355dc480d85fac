/-
  Clicks: which shapes carry an action, and which action it is.

  1. **Events.**  A plan resolves every event, so a plan there is means that every URL is a link
     (`Plan.actionsOf_eq_ok_iff`); an item then has the action of the first event on it
     (`Plan.action?_assemble`).

  2. **Instructions.**  Each of them is either drawn for a row, with the action of its item, or
     belongs to another layer and carries none (`Plan.Draws`).  Every row is drawn.

  Together: the actions in a finished chart are those of the first events on its items
  (`Schedule.exists_action_iff`).
-/
import GanttChart.Proofs.Chart.Axis
import GanttChart.Proofs.Chart.Plan

namespace GanttChart

/-! ## Events -/

/-- The URL that an action opens. -/
def Action.url : Action → String
  | .navigate url => url
  | .popup url => url

namespace Event

/-- What a click does, if its URL is a link. -/
def link (event : Event) : Action :=
  match event.kind with
  | .goTo => .navigate event.url
  | .popup => .popup event.url

/-- The action of a link opens the URL of the event. -/
@[simp] theorem url_link (event : Event) : event.link.url = event.url := by
  unfold link
  cases event.kind with
  | goTo => rfl
  | popup => rfl

/-- An event is refused for its URL, and for nothing else. -/
theorem action_eq (scheme : String) (event : Event) :
    event.action scheme =
      if Link.isValid scheme event.url then .ok event.link else .error (.invalidUrl event.url) := by
  unfold action link
  cases Link.isValid scheme event.url with
  | false => rfl
  | true =>
    cases event.kind with
    | goTo => rfl
    | popup => rfl

end Event

/-- The first event on an item. -/
def Schedule.event? (s : Schedule) (id : String) : Option Event :=
  s.events.find? fun event => event.target == id

/-- The first event on an item is one of the schedule's, and on this item. -/
theorem Schedule.mem_of_event? {s : Schedule} {id : String} {event : Event}
    (h : s.event? id = some event) : event ∈ s.events ∧ event.target = id :=
  ⟨List.mem_of_find?_eq_some h, by simpa using List.find?_some h⟩

namespace Plan

/-- The event's URL is no link. -/
def refuses (scheme : String) (event : Event) : Bool := !Link.isValid scheme event.url

/-- The events are resolved in order, and the first whose URL is no link is the fault. -/
theorem actionsOf_eq (scheme : String) (events : List Event) :
    actionsOf scheme events =
      (events.find? (refuses scheme)).elim
        (.ok (events.map fun event => (event.target, event.link)))
        fun event => .error (.invalidUrl event.url) := by
  have hstep : ∀ event ∈ events,
      (do return (event.target, ← event.action scheme) : Except LayoutFault (String × Action)) =
        if refuses scheme event then .error (.invalidUrl event.url)
        else .ok (event.target, event.link) := by
    intro event _
    rw [Event.action_eq, refuses]
    cases Link.isValid scheme event.url with
    | true => rfl
    | false => rfl
  exact Outcome.mapM_checked hstep

/-- **Every event counts for success**, also those that are not the first on their item. -/
theorem actionsOf_eq_ok_iff {scheme : String} {events : List Event}
    {actions : List (String × Action)} :
    actionsOf scheme events = .ok actions ↔
      (∀ event ∈ events, Link.isValid scheme event.url = true) ∧
        events.map (fun event => (event.target, event.link)) = actions := by
  have hnone : events.find? (refuses scheme) = none ↔
      ∀ event ∈ events, Link.isValid scheme event.url = true := by
    simp [refuses]
  rw [actionsOf_eq, ← hnone]
  cases hfind : events.find? (refuses scheme) with
  | none => simp
  | some event => simp

/-- The fault names the URL of the first event that is refused. -/
theorem actionsOf_eq_error_iff {scheme : String} {events : List Event} {fault : LayoutFault} :
    actionsOf scheme events = .error fault ↔
      ∃ event, events.find? (refuses scheme) = some event ∧ fault = .invalidUrl event.url := by
  rw [actionsOf_eq]
  cases hfind : events.find? (refuses scheme) with
  | none => simp
  | some event => simp [eq_comm]

/-- Looking up an id among the actions finds that of the first event on it. -/
theorem lookup_actions (events : List Event) (id : String) :
    (events.map fun event => (event.target, event.link)).lookup id =
      (events.find? fun event => event.target == id).map Event.link := by
  induction events with
  | nil => rfl
  | cons event events ih =>
    rw [List.map_cons, List.lookup_cons, List.find?_cons, Bool.beq_comm (a := id), ih]
    cases event.target == id with
    | true => rfl
    | false => rfl

/-- An item has the action of the first event on it. -/
theorem action?_assemble {s : Schedule} {config : Config} {scale : Scale} {edges : List Edge}
    {actions : List (String × Action)}
    (h : actionsOf config.deepLinkScheme s.events = .ok actions) (id : String) :
    (assemble s config scale edges actions).action? id = (s.event? id).map Event.link := by
  obtain ⟨_, rfl⟩ := actionsOf_eq_ok_iff.1 h
  exact lookup_actions s.events id

end Plan

/-! ## Instructions -/

/-- The layer shows items: their shapes or their labels. -/
def Layer.isOfItems : Layer → Bool
  | .tasks => true
  | .taskLabels => true
  | .milestones => true
  | .milestoneLabels => true
  | _ => false

namespace Plan

/-- An instruction that a plan may draw: one for a row, or one of another layer without a click. -/
inductive Draws (plan : Plan) : Instruction → Prop where
  | row {layer : Layer} {row : Row} (shape : Shape) (hlayer : layer.isOfItems = true)
      (hrow : row ∈ plan.rows) : Draws plan (plan.itemInstruction layer row shape)
  | other {instruction : Instruction} (hlayer : instruction.layer.isOfItems = false)
      (haction : instruction.action = none) : Draws plan instruction

variable {plan : Plan} {instruction : Instruction}

/-- Nothing in the grid carries an action. -/
theorem draws_of_mem_grid {grid : List Instruction} (h : plan.grid = .ok grid)
    (hi : instruction ∈ grid) : plan.Draws instruction := by
  rcases mem_grid h hi with rfl | ⟨t, rfl | ⟨label, rfl⟩⟩
  · exact .other rfl rfl
  · exact .other rfl rfl
  · exact .other rfl rfl

/-- A connector is on the layer of dependencies and cannot be clicked. -/
theorem layer_of_mem_connector {edge : Edge} (hi : instruction ∈ plan.connector edge) :
    instruction.layer = .dependencies ∧ instruction.action = none := by
  unfold connector at hi
  split at hi
  · split at hi
    · cases hi
    · simp only [List.mem_cons, List.not_mem_nil, or_false] at hi
      rcases hi with rfl | rfl
      · exact ⟨rfl, rfl⟩
      · exact ⟨rfl, rfl⟩
  · cases hi

/-- So a connector is drawn without a click. -/
theorem draws_of_mem_connector {edge : Edge} (hi : instruction ∈ plan.connector edge) :
    plan.Draws instruction := by
  obtain ⟨hlayer, haction⟩ := layer_of_mem_connector hi
  refine .other ?_ haction
  rw [hlayer]
  rfl

/-- A layer that is drawn by one function, row by row. -/
theorem draws_of_mem_map_rowsOf {kind : RowKind} {draw : Row → Instruction}
    (hdraw : ∀ row ∈ plan.rows, plan.Draws (draw row))
    (hi : instruction ∈ (plan.rowsOf kind).map draw) : plan.Draws instruction := by
  obtain ⟨row, hrow, rfl⟩ := List.mem_map.1 hi
  exact hdraw row (List.mem_filter.1 hrow).1

/-- What is painted over the grid is drawn for a row, or cannot be clicked. -/
theorem draws_of_mem_overlay (hi : instruction ∈ plan.overlay) : plan.Draws instruction := by
  simp only [overlay, List.mem_append] at hi
  -- Two layers of groups, the marker, four layers of items, the connectors and the title.
  rcases hi with (((((((hi | hi) | hi) | hi) | hi) | hi) | hi) | hi) | hi
  · obtain ⟨band, _, rfl⟩ := List.mem_map.1 hi
    exact .other rfl rfl
  · obtain ⟨band, _, rfl⟩ := List.mem_map.1 hi
    exact .other rfl rfl
  · split at hi
    · rw [List.mem_singleton] at hi
      rw [hi]
      exact .other rfl rfl
    · cases hi
  · exact draws_of_mem_map_rowsOf (fun row hrow => .row _ rfl hrow) hi
  · exact draws_of_mem_map_rowsOf (fun row hrow => .row _ rfl hrow) hi
  · exact draws_of_mem_map_rowsOf (fun row hrow => .row _ rfl hrow) hi
  · exact draws_of_mem_map_rowsOf (fun row hrow => .row _ rfl hrow) hi
  · split at hi
    · obtain ⟨edge, _, hi⟩ := List.mem_flatMap.1 hi
      exact draws_of_mem_connector hi
    · cases hi
  · rw [Option.mem_toList, Option.map_eq_some_iff] at hi
    obtain ⟨title, _, rfl⟩ := hi
    exact .other rfl rfl

/-- **Every instruction of a chart is drawn for a row or carries no action.** -/
theorem draws_of_mem {grid : List Instruction} (h : plan.grid = .ok grid)
    (hi : instruction ∈ (plan.finish grid).instructions) : plan.Draws instruction := by
  rcases List.mem_append.1 hi with hi | hi
  · exact draws_of_mem_grid h hi
  · exact draws_of_mem_overlay hi

/-- Every row is drawn: a task as a bar, a milestone as a diamond. -/
theorem exists_mem_overlay_of_row {row : Row} (hrow : row ∈ plan.rows) :
    ∃ instruction ∈ plan.overlay, instruction.action = plan.action? row.id := by
  cases hkind : row.kind with
  | task =>
    refine ⟨plan.bar row, ?_, rfl⟩
    have hmem : row ∈ plan.rowsOf .task := List.mem_filter.2 ⟨hrow, by simp [hkind]⟩
    have hdrawn : plan.bar row ∈ (plan.rowsOf .task).map plan.bar := List.mem_map_of_mem hmem
    simp only [overlay, List.mem_append]
    tauto
  | milestone =>
    refine ⟨plan.diamond row, ?_, rfl⟩
    have hmem : row ∈ plan.rowsOf .milestone := List.mem_filter.2 ⟨hrow, by simp [hkind]⟩
    have hdrawn : plan.diamond row ∈ (plan.rowsOf .milestone).map plan.diamond :=
      List.mem_map_of_mem hmem
    simp only [overlay, List.mem_append]
    tauto

/-- The actions of a chart are those of its rows. -/
theorem exists_action_iff {grid : List Instruction} (h : plan.grid = .ok grid) {a : Action} :
    (∃ instruction ∈ (plan.finish grid).instructions, instruction.action = some a) ↔
      ∃ row ∈ plan.rows, plan.action? row.id = some a := by
  constructor
  · rintro ⟨instruction, hi, ha⟩
    cases draws_of_mem h hi with
    | row shape hlayer hrow => exact ⟨_, hrow, ha⟩
    | other hlayer hnone =>
      rw [hnone] at ha
      cases ha
  · rintro ⟨row, hrow, ha⟩
    obtain ⟨instruction, hi, haction⟩ := exists_mem_overlay_of_row hrow
    exact ⟨instruction, List.mem_append_right grid hi, haction.trans ha⟩

end Plan

/-- **The actions of a chart are those of the first events on its items.** -/
theorem Schedule.exists_action_iff {s : Schedule} {config : Config} {g : Geometry}
    (h : s.layout config = .ok g) {a : Action} :
    (∃ instruction ∈ g.instructions, instruction.action = some a) ↔
      ∃ event, s.contains event.target = true ∧ s.event? event.target = some event ∧
        event.link = a := by
  obtain ⟨plan, grid, hplan, hgrid, rfl⟩ := layout_eq_ok_iff.1 h
  obtain ⟨scale, edges, actions, _, _, hactions, rfl⟩ := Plan.ofSchedule_eq_ok_iff.1 hplan
  rw [Plan.exists_action_iff hgrid]
  constructor
  · rintro ⟨row, hrow, ha⟩
    rw [Plan.action?_assemble hactions, Option.map_eq_some_iff] at ha
    obtain ⟨event, hevent, rfl⟩ := ha
    obtain ⟨_, htarget⟩ := mem_of_event? hevent
    refine ⟨event, exists_row_iff.1 ⟨row, hrow, htarget.symm⟩, ?_, rfl⟩
    rw [htarget]
    exact hevent
  · rintro ⟨event, hcontains, hevent, rfl⟩
    obtain ⟨row, hrow, hid⟩ := exists_row_iff.2 hcontains
    refine ⟨row, hrow, ?_⟩
    rw [Plan.action?_assemble hactions, hid, hevent]
    rfl

/-- In a chart that there is, the URL of every event is a link. -/
theorem Schedule.isValid_of_layout {s : Schedule} {config : Config} {g : Geometry}
    (h : s.layout config = .ok g) {event : Event} (hevent : event ∈ s.events) :
    Link.isValid config.deepLinkScheme event.url = true := by
  obtain ⟨plan, grid, hplan, _, _⟩ := layout_eq_ok_iff.1 h
  obtain ⟨scale, edges, actions, _, _, hactions, _⟩ := Plan.ofSchedule_eq_ok_iff.1 hplan
  exact (Plan.actionsOf_eq_ok_iff.1 hactions).1 event hevent

end GanttChart
