/-
  Clicks on items.

  1. **First event.**  A click on an item does what the first event on its id does; later events on
     the id are checked like all others and then have no effect (`Plan.clickOn_action?`).

  2. **Layers of items.**  The shapes of the tasks and their labels, and those of the milestones, are
     four layers that each show the rows of one kind, one after another (`Plan.map_click_layer`).  So
     a shape and its label agree, also if several items have one id.

  3. **Other layers.**  Nothing else in a chart can be clicked.

  What a click does is stated of the schedule (`Schedule.ClickOn`), in terms of its events alone, and
  then found again in the instructions of the chart, row by row.
-/
import GanttChart.Proofs.Chart.Painting

namespace GanttChart

/-! ## First event -/

/-- What a click on the item with an id does: nothing if no event is on the id, and otherwise what
    the first event on it resolves to. -/
inductive Schedule.ClickOn (s : Schedule) (scheme id : String) : Option Action → Prop
  | nothing (hevents : ∀ event ∈ s.events, event.target ≠ id) : ClickOn s scheme id none
  | first {before after : List Event} {event : Event} {action : Action}
      (hevents : s.events = before ++ event :: after)
      (hbefore : ∀ other ∈ before, other.target ≠ id) (htarget : event.target = id)
      (haction : event.action scheme = .ok action) : ClickOn s scheme id (some action)

/-- The action that a plan has for an id is that of the first event on it.  All events have been
    resolved before, so this one has an action. -/
theorem Plan.clickOn_action? {s : Schedule} {config : Config} {scale : Scale} {edges : List Edge}
    {actions : List (String × Action)}
    (h : actionsOf config.deepLinkScheme s.events = .ok actions) (id : String) :
    s.ClickOn config.deepLinkScheme id ((assemble s config scale edges actions).action? id) := by
  rw [action?_assemble h]
  cases hevent : s.event? id with
  | none =>
    refine .nothing fun event hmem => ?_
    simpa using List.find?_eq_none.1 hevent event hmem
  | some event =>
    obtain ⟨htarget, before, after, hevents, hbefore⟩ := List.find?_eq_some_iff_append.1 hevent
    have hvalid : Link.isValid config.deepLinkScheme event.url = true :=
      (actionsOf_eq_ok_iff.1 h).1 event (Schedule.mem_of_event? hevent).1
    refine .first hevents (fun other hother => ?_) (by simpa using htarget) ?_
    · simpa using hbefore other hother
    · rw [Event.action_eq, if_pos hvalid]

/-! ## Layers of items -/

/-- The kind of items that a layer shows, by their shapes or by their labels. -/
def Layer.kind? : Layer → Option RowKind
  | .tasks => some .task
  | .taskLabels => some .task
  | .milestones => some .milestone
  | .milestoneLabels => some .milestone
  | _ => none

/-- A layer of no kind of item is no layer of items. -/
theorem Layer.isOfItems_of_kind? {layer : Layer} (h : layer.kind? = none) :
    layer.isOfItems = false := by
  cases layer with
  | tasks => cases h
  | taskLabels => cases h
  | milestones => cases h
  | milestoneLabels => cases h
  | _ => rfl

/-- What an instruction says about clicks: the id of its item and the action. -/
def Instruction.click (instruction : Instruction) : Option String × Option Action :=
  (instruction.item, instruction.action)

namespace Plan

variable {plan : Plan} {grid : List Instruction}

/-- A layer of items shows the rows of its kind, each with its id and the action on it.  The four
    layers differ in their shapes only. -/
theorem map_click_layer (h : plan.grid = .ok grid) {layer : Layer} {kind : RowKind}
    (hkind : layer.kind? = some kind) :
    ((plan.finish grid).layer layer).map Instruction.click =
      (plan.rowsOf kind).map fun row => (some row.id, plan.action? row.id) := by
  rw [layer_finish h]
  cases layer with
  | tasks =>
    cases hkind
    exact List.map_map
  | taskLabels =>
    cases hkind
    exact List.map_map
  | milestones =>
    cases hkind
    exact List.map_map
  | milestoneLabels =>
    cases hkind
    exact List.map_map
  | _ => cases hkind

/-- Only items carry actions. -/
theorem action_eq_none (h : plan.grid = .ok grid) {instruction : Instruction}
    (hi : instruction ∈ (plan.finish grid).instructions) (hkind : instruction.layer.kind? = none) :
    instruction.action = none := by
  have hlayer := Layer.isOfItems_of_kind? hkind
  cases draws_of_mem h hi with
  | row shape hitems hrow => cases hitems.symm.trans hlayer
  | other _ haction => exact haction

end Plan

/-! ## Charts -/

/-- The chart shows the clicks of a schedule: all of them are links, and the first on an item counts. -/
structure ShowsClicks (s : Schedule) (config : Config) (g : Geometry) : Prop where
  valid : ∀ event ∈ s.events, Link.isValid config.deepLinkScheme event.url = true
  /-- A layer of items has one instruction for each row of its kind, in order. -/
  items : ∀ layer kind, layer.kind? = some kind →
    List.Forall₂ (fun row instruction => instruction.item = some row.id ∧
        s.ClickOn config.deepLinkScheme row.id instruction.action)
      (g.rowsOf kind) (g.layer layer)
  /-- Shapes and labels of one kind agree, one by one. -/
  alike : ∀ shapes labels kind, shapes.kind? = some kind → labels.kind? = some kind →
    (g.layer shapes).map Instruction.click = (g.layer labels).map Instruction.click
  others : ∀ instruction ∈ g.instructions, instruction.layer.kind? = none →
    instruction.action = none

/-- **Every chart shows the clicks of its schedule.** -/
theorem layout_showsClicks {s : Schedule} {config : Config} {g : Geometry}
    (h : s.layout config = .ok g) : ShowsClicks s config g := by
  obtain ⟨plan, grid, hplan, hgrid, rfl⟩ := Schedule.layout_eq_ok_iff.1 h
  obtain ⟨scale, edges, actions, _, _, hactions, rfl⟩ := Plan.ofSchedule_eq_ok_iff.1 hplan
  constructor
  case valid => exact (Plan.actionsOf_eq_ok_iff.1 hactions).1
  case items =>
    intro layer kind hkind
    have hclicks := Plan.map_click_layer hgrid hkind
    rw [← List.forall₂_eq_eq_eq, List.forall₂_map_left_iff, List.forall₂_map_right_iff] at hclicks
    refine hclicks.flip.imp fun row instruction hclick => ?_
    obtain ⟨hitem, haction⟩ := Prod.mk.inj hclick
    rw [haction]
    exact ⟨hitem, Plan.clickOn_action? hactions row.id⟩
  case alike =>
    intro shapes labels kind hshapes hlabels
    rw [Plan.map_click_layer hgrid hshapes, Plan.map_click_layer hgrid hlabels]
  case others => exact fun instruction hi => Plan.action_eq_none hgrid hi

/-- Two events on a task, of which the first counts, and none on a milestone. -/
theorem layout_showsClicks_two_events :
    ∃ s g, Schedule.ofText
        "task T,a,,2024-01-01,1D\nmilestone M,m,,2024-01-03\nclick a,popup,example.com\nclick a,goto,example.org" =
          .ok s ∧
      s.layout { now := default } = .ok g ∧
      [.tasks, .taskLabels, .milestones].map (fun layer =>
          (g.layer layer).map Instruction.action) =
        [[some (.popup "example.com")], [some (.popup "example.com")], [none]] ∧
      ShowsClicks s { now := default } g := by
  have hok : ((Schedule.ofText
      "task T,a,,2024-01-01,1D\nmilestone M,m,,2024-01-03\nclick a,popup,example.com\nclick a,goto,example.org").map
        fun s => (s.declaredInOrder, (s.layoutAsDeclared { now := default }).map fun g =>
          [.tasks, .taskLabels, .milestones].map fun layer =>
            (g.layer layer).map Instruction.action)) =
      .ok (true, .ok [[some (.popup "example.com")], [some (.popup "example.com")], [none]]) := by
    decide +kernel
  obtain ⟨s, g, hs, hg, hactions⟩ := Schedule.layout_of_layoutAsDeclared hok
  exact ⟨s, g, hs, hg, hactions, layout_showsClicks hg⟩

end GanttChart
