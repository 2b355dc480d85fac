/-
  Which schedules have no chart.

  1. **First reports.**  A computation in steps reports the fault of the first step that has one
     (`FirstReport`).

  2. **Obstacles.**  There are seven of them, each with the faults that report it (`Obstacle.Reports`).
     They are stated on the schedule and the configuration alone: none refers to what an earlier
     step has worked out, except that ticks need a span.

  3. **The law.**  A schedule has no chart exactly if there is an obstacle, and the fault is that of
     the first one (`layout_refused_iff`).  Five of the seven options have no part in it.
-/
import GanttChart.Proofs.Chart.Actions
import GanttChart.Proofs.Chart.Axis
import GanttChart.Proofs.Chart.Dependency
import GanttChart.Proofs.Chart.Span

namespace GanttChart

open GanttChart.Text

/-! ## First reports

  A layout is a chain of steps, and a fault of the whole is the fault of the first step that
  fails.  The checks of a `FirstReport` do not depend on each other, while a step may use what
  the earlier ones have worked out; `firstReport_step` is where the two are brought together, one
  step at a time. -/

section FirstReport

variable {α β ε : Type} {reports : α → ε → Prop}

/-- The first of some checks that reports a fault reports this one. -/
def FirstReport (reports : α → ε → Prop) : List α → ε → Prop
  | [], _ => False
  | check :: rest, fault =>
    reports check fault ∨ (∀ other, ¬ reports check other) ∧ FirstReport reports rest fault

/-- No check before the one that reports the fault reports anything. -/
theorem firstReport_iff {checks : List α} {fault : ε} :
    FirstReport reports checks fault ↔
      ∃ earlier check later, checks = earlier ++ check :: later ∧ reports check fault ∧
        ∀ silent ∈ earlier, ∀ other, ¬ reports silent other := by
  induction checks with
  | nil => simp [FirstReport]
  | cons first rest ih =>
    rw [FirstReport, ih]
    constructor
    · rintro (h | ⟨hsilent, earlier, check, later, rfl, hreport, hearlier⟩)
      · exact ⟨[], first, rest, rfl, h, by simp⟩
      · exact ⟨first :: earlier, check, later, rfl, hreport, by simpa using ⟨hsilent, hearlier⟩⟩
    · rintro ⟨earlier, check, later, hsplit, hreport, hearlier⟩
      cases earlier with
      | nil =>
        obtain ⟨rfl, rfl⟩ := List.cons.inj hsplit
        exact .inl hreport
      | cons silent earlier =>
        obtain ⟨rfl, rfl⟩ := List.cons.inj hsplit
        exact .inr ⟨hearlier first List.mem_cons_self, earlier, check, later, rfl, hreport,
          fun c hc => hearlier c (List.mem_cons_of_mem first hc)⟩

/-- There is a first report if there is any. -/
theorem exists_firstReport_iff {checks : List α} :
    (∃ fault, FirstReport reports checks fault) ↔
      ∃ check ∈ checks, ∃ fault, reports check fault := by
  induction checks with
  | nil => simp [FirstReport]
  | cons first rest ih =>
    simp only [FirstReport, List.exists_mem_cons_iff]
    by_cases hfirst : ∃ fault, reports first fault
    · obtain ⟨fault, hreport⟩ := hfirst
      exact ⟨fun _ => .inl ⟨fault, hreport⟩, fun _ => ⟨fault, .inl hreport⟩⟩
    · simp only [not_exists] at hfirst
      simp only [hfirst, not_false_iff, implies_true, true_and, false_or, exists_false, ih]

/-- A step that reports as a check does, with further steps after it. -/
theorem firstReport_step {check : α} {rest : List α} {fault : ε} {x : Except ε β} {after : β → Prop}
    (hcheck : ∀ other, x = .error other ↔ reports check other)
    (hrest : ∀ b, x = .ok b → (after b ↔ FirstReport reports rest fault)) :
    (x = .error fault ∨ ∃ b, x = .ok b ∧ after b) ↔ FirstReport reports (check :: rest) fault := by
  rw [FirstReport, ← hcheck]
  simp only [← hcheck]
  -- a fault is what the check reports; without one the check is silent
  cases x with
  | error first => simp
  | ok b => simpa using hrest b rfl

end FirstReport

/-! ## Obstacles -/

namespace Schedule

/-- There is a span, and this is a tick on it; none if it is outside the calendar. -/
def DrawsTick (s : Schedule) (config : Config) (tick : Option Instant) : Prop :=
  ∃ start finish, s.range? config.now = some (start, finish) ∧
    ∃ i < s.options.ticksDrawn, (Scale.ofSpan config start finish).tick? s.options.ticksDrawn i = tick

end Schedule

/-- What can keep a schedule from being drawn. -/
inductive Obstacle where
  /-- The items span less than a millisecond, and no day follows. -/
  | span
  /-- A dependency that no item has. -/
  | dependency
  /-- An event whose URL is no link, on whatever item. -/
  | url
  /-- A number of ticks that is none. -/
  | tickCount
  /-- A pattern that shows nothing of an instant. -/
  | pattern
  /-- A tick outside the calendar. -/
  | tick
  /-- A tick that the pattern cannot write. -/
  | label
  deriving DecidableEq

namespace Obstacle

/-- The obstacles in the order in which they are met. -/
def all : List Obstacle := [.span, .dependency, .url, .tickCount, .pattern, .tick, .label]

/-- There are no other obstacles. -/
theorem mem_all (obstacle : Obstacle) : obstacle ∈ all := by
  cases obstacle <;> decide

/-- The obstacle is in the way of a schedule's chart, and the fault reports it. -/
def Reports (s : Schedule) (config : Config) : Obstacle → LayoutFault → Prop
  | .span, fault =>
    (∃ first last, Schedule.IsSpan config.now s.instants first last ∧
      last.nanosecondsSince first < 1000000 ∧ first.addMilliseconds? 86400000 = none) ∧
      fault = .dateOutOfRange
  | .dependency, fault =>
    ∃ row dependency, (Edge.listings s.rows).find? (fun listing => !s.contains listing.2) =
      some (row, dependency) ∧ fault = .unknownDependency dependency row.id
  | .url, fault =>
    ∃ event, s.events.find? (fun event => !Link.isValid config.deepLinkScheme event.url) =
      some event ∧ fault = .invalidUrl event.url
  | .tickCount, fault =>
    ∃ value, s.options.axisTicks = some value ∧ ¬ Digits.IsWord (trim value.toList) ∧
      fault = .invalidOption .axisTicks value
  | .pattern, fault =>
    ¬ Pattern.Usable s.options.labelPattern.toList ∧
      fault = .invalidOption .outputDateFormat s.options.labelPattern
  | .tick, fault => s.DrawsTick config none ∧ fault = .dateOutOfRange
  | .label, fault =>
    (∃ t items, s.DrawsTick config (some t) ∧
      Pattern.fieldsOfText? (Pattern.directives s.options.labelPattern.toList) = some items ∧
      Pattern.label? t items = none) ∧
      fault = .invalidOption .outputDateFormat s.options.labelPattern

end Obstacle

/-! ## The steps of a layout -/

section Steps

variable {s : Schedule} {config : Config} {fault : LayoutFault}

/-- The scale is missing exactly if the range is. -/
theorem Plan.scaleOf_eq_error_iff :
    scaleOf s config = .error fault ↔ Obstacle.span.Reports s config fault := by
  rw [Obstacle.Reports, ← Schedule.range?_eq_none_iff]
  unfold scaleOf
  cases s.range? config.now with
  | none =>
    constructor
    · intro h
      exact ⟨rfl, (Except.error.inj h).symm⟩
    · rintro ⟨_, rfl⟩
      rfl
  | some span => simp

/-- A scale is that of the range of the schedule. -/
theorem Plan.scaleOf_eq_ok {scale : Scale} (h : scaleOf s config = .ok scale) :
    ∃ start finish, s.range? config.now = some (start, finish) ∧
      scale = .ofSpan config start finish := by
  unfold scaleOf at h
  split at h
  · cases h
  · rename_i start finish hspan
    exact ⟨start, finish, hspan, (Except.ok.inj h).symm⟩

/-- A listed dependency dangles if the schedule has no such item: the rows are the items. -/
theorem Edge.dangles_rows (listing : Row × String) :
    dangles s.rows listing = !s.contains listing.2 := by
  cases hknown : s.contains listing.2 with
  | true => exact dangles_eq_false_iff.2 (Schedule.exists_row_iff.2 hknown)
  | false =>
    refine Bool.not_eq_false _ |>.mp fun hfound => ?_
    rw [Schedule.exists_row_iff.1 (dangles_eq_false_iff.1 hfound)] at hknown
    cases hknown

/-- The edges are refused for the first dependency that dangles, row by row. -/
theorem Edge.ofRows_rows_eq_error_iff :
    ofRows s.rows = .error fault ↔ Obstacle.dependency.Reports s config fault := by
  rw [ofRows_eq_error_iff, funext dangles_rows]
  rfl

/-- The actions are refused for the first event whose URL is no link. -/
theorem Plan.actionsOf_events_eq_error_iff :
    actionsOf config.deepLinkScheme s.events = .error fault ↔
      Obstacle.url.Reports s config fault :=
  actionsOf_eq_error_iff

end Steps

section Ticks

variable {s : Schedule} {config : Config} {start finish : Instant}

/-- Where there is a span, the ticks are those of its scale. -/
theorem Schedule.drawsTick_iff (hspan : s.range? config.now = some (start, finish))
    {tick : Option Instant} :
    s.DrawsTick config tick ↔ ∃ i < s.options.ticksDrawn,
      (Scale.ofSpan config start finish).tick? s.options.ticksDrawn i = tick := by
  constructor
  · rintro ⟨_, _, hspan', h⟩
    cases hspan.symm.trans hspan'
    exact h
  · intro h
    exact ⟨start, finish, hspan, h⟩

/-- A tick is outside the calendar exactly if the list of ticks cannot be made. -/
theorem Schedule.drawsTick_none_iff (hspan : s.range? config.now = some (start, finish)) :
    s.DrawsTick config none ↔
      (Scale.ofSpan config start finish).ticks? s.options.ticksDrawn = none := by
  rw [drawsTick_iff hspan, Scale.ticks?_eq_none_iff]

/-- Otherwise the ticks are the members of the list. -/
theorem Schedule.drawsTick_some_iff (hspan : s.range? config.now = some (start, finish))
    {ticks : List Instant}
    (hticks : (Scale.ofSpan config start finish).ticks? s.options.ticksDrawn = some ticks)
    {t : Instant} : s.DrawsTick config (some t) ↔ t ∈ ticks := by
  rw [drawsTick_iff hspan, Scale.mem_ticks_iff hticks]

/-- **The grid of a plan** meets the last four obstacles in their order. -/
theorem Plan.grid_assemble_eq_error_iff {fault : LayoutFault}
    {scale : Scale} (hscale : scaleOf s config = .ok scale) (edges : List Edge)
    (actions : List (String × Action)) :
    (assemble s config scale edges actions).grid = .error fault ↔
      FirstReport (Obstacle.Reports s config) [.tickCount, .pattern, .tick, .label] fault := by
  obtain ⟨start, finish, hspan, rfl⟩ := scaleOf_eq_ok hscale
  rw [grid_eq_error_iff]
  refine firstReport_step (fun _ => tickCount_eq_error_iff) fun count hcount => ?_
  refine firstReport_step (fun _ => pattern_eq_error_iff) fun items hitems => ?_
  obtain rfl := tickCount_eq_ok hcount
  have hfields := pattern_eq_ok_iff.1 hitems
  -- what is left is whether the ticks are there, and then whether each has a label
  constructor
  · rintro (⟨hmissing, hfault⟩ | ⟨ticks, hticks, ⟨t, ht, hfails⟩, hfault⟩)
    · exact .inl ⟨(Schedule.drawsTick_none_iff hspan).2 hmissing, hfault⟩
    · refine .inr ⟨fun _ h => ?_, .inl ⟨⟨t, items,
        (Schedule.drawsTick_some_iff hspan hticks).2 ht, hfields, hfails⟩, hfault⟩⟩
      cases hticks.symm.trans ((Schedule.drawsTick_none_iff hspan).1 h.1)
  · rintro (⟨hmissing, hfault⟩ |
      ⟨hpresent, ⟨⟨t, items', hdrawn, hfields', hfails⟩, hfault⟩ | ⟨_, h⟩⟩)
    · exact .inl ⟨(Schedule.drawsTick_none_iff hspan).1 hmissing, hfault⟩
    · cases hfields.symm.trans hfields'
      cases hticks : (Scale.ofSpan config start finish).ticks? s.options.ticksDrawn with
      | none =>
        have hmissing := (Schedule.drawsTick_none_iff hspan).2 hticks
        exact absurd ⟨hmissing, rfl⟩ (hpresent .dateOutOfRange)
      | some ticks =>
        have ht := (Schedule.drawsTick_some_iff hspan hticks).1 hdrawn
        exact .inr ⟨ticks, hticks, ⟨t, ht, hfails⟩, hfault⟩
    · exact h.elim

end Ticks

/-! ## The law -/

/-- A layout fails by the first obstacle.  The four steps before the charts meet the seven
    obstacles in their order, the grid alone the last four. -/
theorem Schedule.layout_eq_error_iff_firstReport {s : Schedule} {config : Config}
    {fault : LayoutFault} :
    s.layout config = .error fault ↔
      FirstReport (Obstacle.Reports s config) Obstacle.all fault := by
  rw [layout_eq_error_iff]
  refine firstReport_step (fun _ => Plan.scaleOf_eq_error_iff) fun scale hscale => ?_
  refine firstReport_step (fun _ => Edge.ofRows_rows_eq_error_iff) fun edges _ => ?_
  refine firstReport_step (fun _ => Plan.actionsOf_events_eq_error_iff) fun actions _ => ?_
  exact Plan.grid_assemble_eq_error_iff hscale edges actions

/-- **A schedule has no chart exactly if there is an obstacle**, and the first one is reported.  The
    title, the today marker, the connectors, the format of dates that are read and the business days
    have no part in it. -/
theorem layout_refused_iff (s : Schedule) (config : Config) :
    (∀ fault, s.layout config = .error fault ↔
      ∃ earlier obstacle later, Obstacle.all = earlier ++ obstacle :: later ∧
        obstacle.Reports s config fault ∧
        ∀ silent ∈ earlier, ∀ other, ¬ silent.Reports s config other) ∧
    ((∃ fault, s.layout config = .error fault) ↔
      ∃ obstacle fault, Obstacle.Reports s config obstacle fault) ∧
    ∀ title todayMarker dependencies inputDateFormat businessDays fault,
      Schedule.layout
        { s with
          options :=
            { s.options with title, todayMarker, dependencies, inputDateFormat, businessDays } }
        config = .error fault ↔ s.layout config = .error fault := by
  refine ⟨fun fault => ?_, ?_, ?_⟩
  · rw [Schedule.layout_eq_error_iff_firstReport, firstReport_iff]
  · simp only [Schedule.layout_eq_error_iff_firstReport, exists_firstReport_iff]
    exact exists_congr fun obstacle => and_iff_right obstacle.mem_all
  · intro title todayMarker dependencies inputDateFormat businessDays fault
    rw [Schedule.layout_eq_error_iff_firstReport, Schedule.layout_eq_error_iff_firstReport]
    exact Iff.rfl

/-- A chart is refused for a dependency only if an item lists an id that no item has. -/
theorem Schedule.exists_dangling_of_layout {s : Schedule} {config : Config}
    {dependency dependent : String}
    (h : s.layout config = .error (.unknownDependency dependency dependent)) :
    ∃ item ∈ s.items, item.id = dependent ∧ dependency ∈ item.dependencies ∧
      s.contains dependency = false := by
  obtain ⟨_, obstacle, _, _, hreport, _⟩ :=
    firstReport_iff.1 (layout_eq_error_iff_firstReport.1 h)
  -- each obstacle has faults of its own, so only the dangling dependency is left
  cases obstacle with
  | span => cases hreport.2
  | dependency =>
    obtain ⟨row, listed, hfind, hfault⟩ := hreport
    cases hfault
    obtain ⟨hrow, hlisted⟩ := Edge.mem_listings_iff.1 (List.mem_of_find?_eq_some hfind)
    exact ⟨row.toItem, toItem_mem_items hrow, rfl, hlisted, by simpa using List.find?_some hfind⟩
  | url =>
    obtain ⟨_, _, hfault⟩ := hreport
    cases hfault
  | tickCount =>
    obtain ⟨_, _, _, hfault⟩ := hreport
    cases hfault
  | pattern => cases hreport.2
  | tick => cases hreport.2
  | label => cases hreport.2

/-- An option that is not set is no obstacle. -/
theorem Obstacle.silent_of_unset {s : Schedule} (config : Config) (fault : LayoutFault) :
    (s.options.axisTicks = none → ¬ tickCount.Reports s config fault) ∧
      (s.options.outputDateFormat = none →
        ¬ pattern.Reports s config fault ∧ ¬ label.Reports s config fault) := by
  constructor
  · rintro hunset ⟨value, hset, _⟩
    cases hunset.symm.trans hset
  · intro hunset
    have hpattern : s.options.labelPattern = Plan.defaultPattern := by
      rw [Options.labelPattern, hunset]
      rfl
    constructor
    · rintro ⟨hnot, _⟩
      rw [hpattern, ← Pattern.fieldsOfText?_isSome_iff, Plan.fieldsOfText?_defaultPattern] at hnot
      exact hnot rfl
    · rintro ⟨⟨t, items, _, hfields, hfails⟩, _⟩
      rw [hpattern, Plan.fieldsOfText?_defaultPattern] at hfields
      cases hfields
      exact absurd (Pattern.label?_eq_none_iff.1 hfails) (by decide)

end GanttChart
