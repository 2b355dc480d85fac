/-
  Edges that do not lead to the right.

  A connector is drawn if the target starts later than the source, to the nanosecond.  Positions are
  whole milliseconds, so two starts may be in order and yet not be told apart.

  1. **Blur.**  Of two instants the later one is blurred if its offset is not greater.  Without leap
     seconds both are then in the same millisecond of the chart, and less than a millisecond apart;
     with one they are at most three seconds apart on the clock (`Instant.Blurred.close`).

  2. **Connectors.**  The connectors of a text lead to the right exactly if the start of no item is
     blurred with that of an item it depends on (`Schedule.ofText_leadsRight_iff`), and so if all
     starts and ends are whole milliseconds outside leap seconds.  A target may stand below its
     source, and next to a leap second even to the left of it (`Schedule.ofText_leads_back`).
-/
import GanttChart.Proofs.Chart.Acyclic
import GanttChart.Proofs.Chart.Moving
import GanttChart.Proofs.Chart.Painting

namespace GanttChart

/-! ## Blur -/

namespace Instant

/-- Seen from the start of a chart, the later of two instants is not to the right of the other. -/
def Blurred (start earlier later : Instant) : Prop :=
  earlier < later ∧ later.millisecondsSince start ≤ earlier.millisecondsSince start

instance (start earlier later : Instant) : Decidable (Blurred start earlier later) :=
  inferInstanceAs (Decidable (_ ∧ _))

/-- What two blurred instants are like. -/
structure Close (start earlier later : Instant) : Prop where
  /-- A leap second is involved, or both are in the same millisecond. -/
  leap_or_same : start.InLeapSecond ∨ earlier.InLeapSecond ∨ later.InLeapSecond ∨
    (later.millisecondsSince start = earlier.millisecondsSince start ∧
      later.nanosecondsSince earlier < 1000000)
  timestamp_le : later.timestamp ≤ earlier.timestamp + 3

variable {start earlier later : Instant}

/-- What is earlier is not later. -/
theorem le_of_lt (h : earlier < later) : earlier ≤ later := Int.le_of_lt h

/-- Without leap seconds blurred instants are in the same millisecond of the chart. -/
theorem Blurred.same (h : Blurred start earlier later) (hle : start ≤ earlier)
    (hstart : ¬start.InLeapSecond) (hearlier : ¬earlier.InLeapSecond)
    (hlater : ¬later.InLeapSecond) :
    later.millisecondsSince start = earlier.millisecondsSince start ∧
      later.nanosecondsSince earlier < 1000000 := by
  obtain ⟨hlt, hback⟩ := h
  have hmono := nanosecondsSince_le hstart hearlier hlater (le_of_lt hlt)
  have hsame := Int.le_antisymm hback (millisecondsSince_le hmono)
  refine ⟨hsame, ?_⟩
  have hnonneg : 0 ≤ earlier.nanosecondsSince start := by
    have hfirst := nanosecondsSince_le hstart hstart hearlier hle
    rw [nanosecondsSince_of_plain hstart hstart] at hfirst
    omega
  have hcut := millisecondsSince_mul_le hnonneg
  have hnear := (millisecondsSince_near later start).2
  rw [nanosecondsSince_of_plain hlater hstart] at hnear
  rw [nanosecondsSince_of_plain hearlier hstart] at hcut
  rw [nanosecondsSince_of_plain hlater hearlier]
  omega

/-- **Blurred instants are close.** -/
theorem Blurred.close (h : Blurred start earlier later) (hle : start ≤ earlier) :
    Close start earlier later := by
  constructor
  case leap_or_same =>
    by_contra hnone
    simp only [not_or] at hnone
    exact hnone.2.2.2 (h.same hle hnone.1 hnone.2.1 hnone.2.2.1)
  case timestamp_le =>
    have hback := h.2
    have hnear := (millisecondsSince_near earlier start).1
    have hnear' := (millisecondsSince_near later start).2
    have hleaps : leapBetween earlier.time start.time ≤ leapBetween later.time start.time + 1 ∨
        earlier.timestamp + 60 ≤ later.timestamp := leapBetween_le (le_of_lt h.1)
    have hleap := leapBetween_bounds earlier.time start.time
    have hleap' := leapBetween_bounds later.time start.time
    have hnano := earlier.time.nanosecond_lt
    -- two cut-off milliseconds and at most two leap seconds stand between the clocks
    unfold nanosecondsSince at hnear hnear'
    omega

/-- Whole milliseconds are told apart. -/
theorem not_blurred_of_whole (hle : start ≤ earlier) (hstart : ¬start.InLeapSecond)
    (hearlier : ¬earlier.InLeapSecond ∧ earlier.time.nanosecond % 1000000 = 0)
    (hlater : ¬later.InLeapSecond ∧ later.time.nanosecond % 1000000 = 0) :
    ¬Blurred start earlier later := by
  intro h
  have hshort := (h.same hle hstart hearlier.1 hlater.1).2
  have hlt : earlier.key < later.key := h.1
  obtain ⟨hearlier, hwhole⟩ := hearlier
  obtain ⟨hlater, hwhole'⟩ := hlater
  rw [nanosecondsSince_of_plain hlater hearlier] at hshort
  rw [key_eq_timestamp, key_eq_timestamp] at hlt
  unfold InLeapSecond at hearlier hlater
  unfold clock at hshort
  omega

end Instant

/-! ## Connectors -/

/-- A connector is drawn exactly if its target starts after its source. -/
theorem Connector.isSome_route?_iff {source target : Row} {scale : Scale}
    {metrics : Metrics Binary64} :
    (route? source target scale metrics).isSome = true ↔ source.start < target.start := by
  unfold route?
  by_cases hback : target.start ≤ source.start
  · rw [if_pos hback]
    exact ⟨fun h => (nomatch h), fun hlt => absurd hlt (Int.not_lt.2 hback)⟩
  · rw [if_neg hback]
    exact ⟨fun _ => Int.not_le.1 hback, fun _ => rfl⟩

namespace Edge

/-- The connector of the edge, if it has one, leads from its source to the right. -/
def LeadsRight (rows : List Row) (scale : Scale) (metrics : Metrics Binary64) (edge : Edge) : Prop :=
  ∀ source ∈ rows[edge.source]?, ∀ target ∈ rows[edge.target]?,
    (Connector.route? source target scale metrics).isSome = true →
      source.start.millisecondsSince scale.start < target.start.millisecondsSince scale.start

instance (rows : List Row) (scale : Scale) (metrics : Metrics Binary64) (edge : Edge) :
    Decidable (edge.LeadsRight rows scale metrics) :=
  inferInstanceAs (Decidable (∀ source ∈ rows[edge.source]?, ∀ target ∈ rows[edge.target]?,
    (Connector.route? source target scale metrics).isSome = true →
      source.start.millisecondsSince scale.start < target.start.millisecondsSince scale.start))

variable {rows : List Row} {scale : Scale} {metrics : Metrics Binary64} {edge : Edge}

/-- An edge between two rows leads to the right unless their starts are blurred. -/
theorem leadsRight_iff {source target : Row} (hsource : rows[edge.source]? = some source)
    (htarget : rows[edge.target]? = some target) :
    edge.LeadsRight rows scale metrics ↔
      ¬Instant.Blurred scale.start source.start target.start := by
  unfold LeadsRight Instant.Blurred
  simp only [hsource, htarget, Option.mem_some_iff, forall_eq', Connector.isSome_route?_iff,
    not_and, Int.not_le]

end Edge

namespace Schedule

variable {text : String} {s : Schedule} {now start finish : Instant} {edges : List Edge}

/-- The start of an item is an instant of the schedule. -/
theorem start_mem_instants {item : Item} (h : item ∈ s.items) : item.start ∈ s.instants := by
  unfold instants
  rcases List.mem_append.1 h with hitem | hitem
  · obtain ⟨task, htask, rfl⟩ := List.mem_map.1 hitem
    exact List.mem_append_left _ (List.mem_flatMap.2 ⟨task, htask, List.mem_cons_self⟩)
  · exact List.mem_append_right _ (List.mem_map_of_mem hitem)

/-- A chart of anything starts where something does. -/
theorem IsRange.start_mem (h : s.IsRange now start finish) {t : Instant} (ht : t ∈ s.instants) :
    start ∈ s.instants := by
  obtain ⟨last, hspan, _⟩ := h.ends
  rcases hspan with ⟨hempty, _, _⟩ | ⟨hstart, _, _⟩
  · rw [hempty] at ht
    cases ht
  · exact hstart

/-- The edges lead to the right unless an item is blurred with one that it depends on. -/
theorem leadsRight_iff (hnodup : (s.items.map Item.id).Nodup)
    (hedges : Edge.ofRows s.rows = .ok edges) (scale : Scale) (metrics : Metrics Binary64) :
    (∀ edge ∈ edges, edge.LeadsRight s.rows scale metrics) ↔
      ∀ a ∈ s.items, ∀ b ∈ s.items, a.id ∈ b.dependencies →
        ¬Instant.Blurred scale.start a.start b.start := by
  constructor
  · intro hright a ha b hb hdependency
    obtain ⟨source, hsource, rfl⟩ := exists_row_of_mem_items ha
    obtain ⟨target, htarget, rfl⟩ := exists_row_of_mem_items hb
    obtain ⟨i, hi⟩ := List.getElem?_of_mem hsource
    obtain ⟨j, hj⟩ := List.getElem?_of_mem htarget
    have hjoins : Edge.Joins edges i j :=
      (mem_edges_iff hnodup hedges).2 ⟨source, target, hi, hj, hdependency⟩
    exact (Edge.leadsRight_iff hi hj).1 (hright _ hjoins)
  · intro hclear edge hedge
    obtain ⟨source, target, hi, hj, hdependency⟩ := (mem_edges_iff hnodup hedges).1 hedge
    exact (Edge.leadsRight_iff hi hj).2 (hclear _ (toItem_mem_items (List.mem_of_getElem? hi)) _
      (toItem_mem_items (List.mem_of_getElem? hj)) hdependency)

/-- **Connectors lead to the right**, milliseconds and leap seconds apart.  All connectors of a text
    do exactly if no item starts blurred with one that it depends on.  Blurred starts are close, so
    the connectors lead to the right if all starts and ends are whole milliseconds outside leap
    seconds. -/
theorem ofText_leadsRight_iff (h : Schedule.ofText text = .ok s)
    (hrange : s.range? now = some (start, finish)) (hedges : Edge.ofRows s.rows = .ok edges)
    (config : Config) :
    ((∀ edge ∈ edges, edge.LeadsRight s.rows (.ofSpan config start finish)
          (Plan.metricsOf config s.rows.length)) ↔
        ∀ a ∈ s.items, ∀ b ∈ s.items, a.id ∈ b.dependencies →
          ¬Instant.Blurred start a.start b.start) ∧
      (∀ a ∈ s.instants, ∀ b ∈ s.instants, Instant.Blurred start a b → Instant.Close start a b) ∧
      ((∀ t ∈ s.instants, ¬t.InLeapSecond ∧ t.time.nanosecond % 1000000 = 0) →
        ∀ edge ∈ edges, edge.LeadsRight s.rows (.ofSpan config start finish)
          (Plan.metricsOf config s.rows.length)) := by
  have hwell := wellFormed_of_addLines h
  have hisRange := isRange_iff.2 hrange
  have hiff := leadsRight_iff hwell.ids_nodup hedges (.ofSpan config start finish)
    (Plan.metricsOf config s.rows.length)
  refine ⟨hiff, fun a ha b _ hblurred => hblurred.close (hisRange.covers a ha).1, fun hwhole => ?_⟩
  refine hiff.2 fun a ha b hb _ => ?_
  have ha := start_mem_instants ha
  have hb := start_mem_instants hb
  have hstart := hwhole start (hisRange.start_mem ha)
  exact Instant.not_blurred_of_whole (hisRange.covers _ ha).1 hstart.1 (hwhole _ ha) (hwhole _ hb)

/-- A chart spans the range of its schedule, and has the edges of its rows. -/
theorem range?_of_layout {config : Config} {g : Geometry} (h : s.layout config = .ok g) :
    g.rows = s.rows ∧ s.range? config.now = some (g.start, g.finish) ∧
      ∃ edges, Edge.ofRows s.rows = .ok edges := by
  obtain ⟨plan, grid, hplan, _, rfl⟩ := layout_eq_ok_iff.1 h
  obtain ⟨scale, edges, actions, hscale, hedges, _, rfl⟩ := Plan.ofSchedule_eq_ok_iff.1 hplan
  obtain ⟨start, finish, hrange, rfl⟩ := Plan.scaleOf_eq_ok hscale
  exact ⟨rfl, hrange, edges, hedges⟩

/-- A milestone a millisecond and a half after the one it depends on, and one half a millisecond
    after that. -/
theorem ofText_leadsRight_iff_milestones :
    ∃ s start finish edges,
      Schedule.ofText
        "milestone A,a,,2024-01-01\nmilestone B,b,,2024-01-01T00:00:00.0015,a\nmilestone C,c,,2024-01-01T00:00:00.002,b" =
          .ok s ∧
      s.range? default = some (start, finish) ∧ Edge.ofRows s.rows = .ok edges ∧
      s.items.map (fun item => item.start.nanosecondsSince start) = [0, 1500000, 2000000] ∧
      ∀ edge ∈ edges, edge.LeadsRight s.rows (.ofSpan { now := default } start finish)
        (Plan.metricsOf { now := default } s.rows.length) := by
  have hok : ((Schedule.ofText
      "milestone A,a,,2024-01-01\nmilestone B,b,,2024-01-01T00:00:00.0015,a\nmilestone C,c,,2024-01-01T00:00:00.002,b").map
        fun s => (s.declaredInOrder, (s.layoutAsDeclared { now := default }).map fun g =>
          (s.items.map fun item => item.start.nanosecondsSince g.start,
            decide (∀ a ∈ s.items, ∀ b ∈ s.items, a.id ∈ b.dependencies →
              ¬Instant.Blurred g.start a.start b.start)))) =
      .ok (true, .ok ([0, 1500000, 2000000], true)) := by decide +kernel
  obtain ⟨s, g, hs, hg, hvalue⟩ := layout_of_layoutAsDeclared hok
  obtain ⟨htimes, hclear⟩ := Prod.mk.inj hvalue
  obtain ⟨_, hrange, edges, hedges⟩ := range?_of_layout hg
  exact ⟨s, g.start, g.finish, edges, hs, hrange, hedges, htimes,
    (ofText_leadsRight_iff hs hrange hedges { now := default }).1.2 (of_decide_eq_true hclear)⟩

end Schedule

/-- The only edge of a chart whose rows have these offsets leads from the first row to the second; it
    is drawn, and yet does not lead to the right. -/
def Geometry.DrawsBack (config : Config) (offsets : List Int) (g : Geometry) : Prop :=
  g.rows.map (fun row => row.start.millisecondsSince g.start) = offsets ∧
    Edge.ofRows g.rows = .ok [{ source := 0, target := 1 }] ∧
    (g.layer .dependencies).length = 2 ∧
    ¬Edge.LeadsRight g.rows (.ofSpan config g.start g.finish)
      (Plan.metricsOf config g.rows.length) { source := 0, target := 1 }

instance (config : Config) (offsets : List Int) (g : Geometry) :
    Decidable (g.DrawsBack config offsets) :=
  inferInstanceAs (Decidable (_ ∧ _ ∧ _ ∧ ¬_))

/-- A milestone half a millisecond after the one it depends on, which stands on the same line; and
    one that follows a leap second half a second ahead of it, which stands on the left. -/
theorem Schedule.ofText_leads_back :
    (∃ s g,
      Schedule.ofText
        "option dependencies on\nmilestone A,a,,2024-01-01\nmilestone B,b,,2024-01-01T00:00:00.0005,a\nmilestone C,c,,2024-01-02" =
          .ok s ∧
      s.layout { now := default } = .ok g ∧ g.DrawsBack { now := default } [0, 0, 86400000]) ∧
    ∃ s g,
      Schedule.ofText
        "option dependencies on\noption axisticks 0\nmilestone A,a,,2016-12-31T23:59:60.5\nmilestone M,m,,2017-01-01,a\nmilestone C,c,,2017-01-02" =
          .ok s ∧
      s.layout { now := default } = .ok g ∧ g.DrawsBack { now := default } [0, -500, 86399500] := by
  constructor
  · have hok : ((Schedule.ofText
        "option dependencies on\nmilestone A,a,,2024-01-01\nmilestone B,b,,2024-01-01T00:00:00.0005,a\nmilestone C,c,,2024-01-02").map
          fun s => (s.declaredInOrder, (s.layoutAsDeclared { now := default }).map fun g =>
            decide (g.DrawsBack { now := default } [0, 0, 86400000]))) =
        .ok (true, .ok true) := by decide +kernel
    obtain ⟨s, g, hs, hg, hvalue⟩ := layout_of_layoutAsDeclared hok
    exact ⟨s, g, hs, hg, of_decide_eq_true hvalue⟩
  · have hok : ((Schedule.ofText
        "option dependencies on\noption axisticks 0\nmilestone A,a,,2016-12-31T23:59:60.5\nmilestone M,m,,2017-01-01,a\nmilestone C,c,,2017-01-02").map
          fun s => (s.declaredInOrder, (s.layoutAsDeclared { now := default }).map fun g =>
            decide (g.DrawsBack { now := default } [0, -500, 86399500]))) =
        .ok (true, .ok true) := by decide +kernel
    obtain ⟨s, g, hs, hg, hvalue⟩ := layout_of_layoutAsDeclared hok
    exact ⟨s, g, hs, hg, of_decide_eq_true hvalue⟩

end GanttChart
