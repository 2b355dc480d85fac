/-
  Asking for ticks.

  A chart that is drawn with its own number of ticks is asked for another one.

  1. **Room.**  A tick is at most ten milliseconds past the end of the chart, and a leap second may add
     one second to that.  So a tick that is missing from the calendar tells that the chart ends within
     two seconds of the calendar's end (`Scale.finish_near_end`).

  2. **Asking.**  Only the ticks depend on how many are asked for: the labels of a chart that is drawn
     can be written for any instant, so the grid is drawn if the number is read and the ticks are there
     (`Plan.labelledTicks_asking`).

  3. **Charts.**  A number below 2 ^ 64 is held to 100, and the grid then has that many lines and labels,
     unless a tick is missing.  A number from 2 ^ 64 on is not held to anything but refused
     (`Schedule.layout_asking`).
-/
import GanttChart.Proofs.Chart.BackEdge
import GanttChart.Proofs.Chart.Finding
import GanttChart.Proofs.Chart.Refusal
import GanttChart.Proofs.Chart.Tick
import GanttChart.Proofs.Text.Trim

namespace GanttChart

open GanttChart.Text

/-! ## Room

  No tick is past the end of the chart by more than ten milliseconds.  So two seconds of room are
  ample: ten milliseconds for the rounding, and one second that a leap second may hide. -/

namespace Instant

variable {t u w : Instant} {d : Int}

/-- An instant two seconds after another is in no leap second, and a second ahead by the clock. -/
theorem clock_after_two_seconds (h : u.addNanoseconds? 2000000000 = some w) :
    ¬w.InLeapSecond ∧ u.clock + 1000000000 ≤ w.clock := by
  have hlt := w.time.nanosecond_lt
  rcases (addNanoseconds?_eq_some_iff (by decide)).1 h with
    ⟨_, hw, hclock⟩ | ⟨_, _, _, hnano⟩ | ⟨_, _, hw, hclock⟩
  · exact ⟨hw, by omega⟩
  · omega
  · exact ⟨hw, by omega⟩

/-- If there are two seconds after an instant, movements that pass it by 20 milliseconds stay in the
    calendar, wherever they start. -/
theorem exists_forward (h : u.addNanoseconds? 2000000000 = some w) (hd : 0 ≤ d)
    (hle : d ≤ u.nanosecondsSince t + 20000000) : ∃ m, t.addNanoseconds? d = some m := by
  obtain ⟨hw, hclock⟩ := clock_after_two_seconds h
  have hleap := leapBetween_bounds u.time t.time
  have htime : u.nanosecondsSince t =
      u.clock - t.clock + leapBetween u.time t.time * 1000000000 := by
    unfold nanosecondsSince clock
    omega
  -- from outside leap seconds, within one, and out of one
  by_cases ht : t.InLeapSecond
  case neg =>
    have hplain : leapBetween u.time t.time ≤ 0 := by
      unfold InLeapSecond at ht
      unfold leapBetween
      split
      · omega
      · split <;> decide
    obtain ⟨m, hm, hm'⟩ := exists_clock (t := t) (c := t.clock + d)
      (by unfold clock; omega) (by omega) hw
    exact ⟨m, (addNanoseconds?_eq_some_iff hd).2 (.plain ht hm hm')⟩
  case pos =>
    by_cases hstays : t.time.nanosecond + d < 2000000000
    · obtain ⟨m, hm, htimestamp, hnano⟩ := exists_inside ht hd hstays
      exact ⟨m, (addNanoseconds?_eq_some_iff hd).2 (.stays ht hm htimestamp hnano)⟩
    · obtain ⟨m, hm, hm'⟩ := exists_clock (t := t) (c := t.clock + d - 1000000000)
        (by unfold clock; omega) (by omega) hw
      exact ⟨m, (addNanoseconds?_eq_some_iff hd).2 (.leaves ht (by omega) hm hm')⟩

/-- A movement back by less than two seconds from inside a leap second stays on the same date, for a
    leap second is the last one of a minute. -/
theorem exists_back (ht : t.InLeapSecond) (hd : 0 ≤ d) (hd' : d < 2000000000) :
    ∃ m, t.addNanoseconds? (-d) = some m := by
  have hminute := t.time.leap_at_minute ht
  have hsecond := t.time.second_lt
  have hnano := t.time.nanosecond_lt
  -- less than two seconds are one whole second at most and a part
  have hsplit := Int.mul_tdiv_add_tmod d 1000000000
  have hpart := Int.tmod_nonneg 1000000000 hd
  have hpart' := Int.tmod_lt_of_pos d (by decide : (0 : Int) < 1000000000)
  have hseconds : (-d).tdiv 1000000000 = -d.tdiv 1000000000 := Int.neg_tdiv d _
  have hback : (-d).tmod 1000000000 = -d.tmod 1000000000 := Int.neg_tmod d _
  unfold InLeapSecond at ht
  unfold addNanoseconds?
  dsimp only
  rw [dif_pos ht, dif_neg (by omega)]
  split
  · have hday : t.date.number + ((t.time.second : Int) + 1 + (-d).tdiv 1000000000 +
        (t.time.nanosecond - 1000000000 + (-d).tmod 1000000000) / 1000000000) / 86400 =
        t.date.number := by omega
    unfold carry?
    simp only [hday, t.date.ofNumber?_number, Option.map_some, Option.some.injEq, exists_eq']
  · exact ⟨_, rfl⟩

/-- Time runs backward only from a leap second into the second after it. -/
theorem inLeapSecond_of_neg (hle : t ≤ u) (hneg : u.nanosecondsSince t < 0) :
    t.InLeapSecond ∧ -1000000000 < u.nanosecondsSince t := by
  have hnano := t.time.nanosecond_lt
  rw [le_iff, key_eq_timestamp, key_eq_timestamp] at hle
  -- in the same second the time would be the difference of the nanoseconds, which is not negative
  have hlater : t.timestamp < u.timestamp := by
    by_contra hnot
    have hnano' := u.time.nanosecond_lt
    have hsame : u.timestamp = t.timestamp := by omega
    unfold nanosecondsSince at hneg
    rw [leapBetween_of_timestamp_eq hsame] at hneg
    omega
  unfold InLeapSecond
  unfold nanosecondsSince leapBetween at *
  split at hneg
  · omega
  · split at hneg <;> omega

end Instant

namespace Scale

variable {scale : Scale} {count i : Nat}

/-- **A tick is missing at the end of the calendar only.** -/
theorem finish_near_end (hle : scale.start ≤ scale.finish) (hne : scale.length ≠ 0)
    (hcount : count ≤ 100) (hi : i < count) (h : scale.tick? count i = none) :
    scale.finish.addMilliseconds? 2000 = none := by
  -- a single tick is the start and never missing
  have hcount' : 2 ≤ count := by
    by_contra hnot
    have hone : count = 1 := by omega
    rw [tick?, if_pos hone] at h
    cases h
  have hbound := Instant.natAbs_millisecondsSince_le scale.finish scale.start
  obtain ⟨hnear, hnear'⟩ := Instant.millisecondsSince_near scale.finish scale.start
  rw [tick?_eq hcount'] at h
  cases hroom : scale.finish.addMilliseconds? 2000 with
  | none => rfl
  | some w =>
    exfalso
    by_cases hpos : 0 ≤ scale.length
    · -- offsets lie between 0 and the length, up to ten milliseconds
      have hlow := tickOffset_mono hbound hpos hcount' hcount (Nat.zero_le i) hi
      have hhigh := tickOffset_mono hbound hpos hcount' hcount
        (by omega : i ≤ count - 1) (by omega)
      rw [tickOffset_zero hbound hcount' hcount] at hlow
      have hlast := (tickOffset_last_near hne hbound hcount' hcount).1
      have hlength : scale.length = scale.finish.millisecondsSince scale.start := rfl
      obtain ⟨m, hm⟩ := Instant.exists_forward (d := scale.tickOffset count i * 1000000)
        (t := scale.start) hroom (by omega) (by omega)
      rw [hm] at h
      cases h
    · -- the chart starts in a leap second, and offsets lead back by hardly more than a second
      have hneg : scale.finish.nanosecondsSince scale.start < 0 := by
        by_contra hnot
        exact hpos (Int.tdiv_nonneg (Int.not_lt.1 hnot) (by decide))
      obtain ⟨hleap, hsecond⟩ := Instant.inLeapSecond_of_neg hle hneg
      have hlength : scale.length = scale.finish.millisecondsSince scale.start := rfl
      have hlow : -1010 ≤ scale.tickOffset count i ∧ scale.tickOffset count i ≤ 0 := by
        have hmono : tickMilliseconds scale.length.natAbs (count - 1) i ≤
            tickMilliseconds scale.length.natAbs (count - 1) (count - 1) :=
          tickMilliseconds_mono (by omega)
        have hlast := (tickMilliseconds_last_near (Int.natAbs_pos.2 hne) hbound
          (by omega : 0 < count - 1) (by omega)).1
        rw [tickOffset_eq hbound hcount' hcount hi, Binary64.signed,
          if_pos (decide_eq_true (Int.not_le.1 hpos))]
        generalize tickMilliseconds scale.length.natAbs (count - 1) i = back at hmono
        generalize tickMilliseconds scale.length.natAbs (count - 1) (count - 1) = last at hmono hlast
        omega
      obtain ⟨m, hm⟩ := Instant.exists_back (d := -(scale.tickOffset count i * 1000000)) hleap
        (by omega) (by omega)
      rw [Int.neg_neg] at hm
      rw [hm] at h
      cases h

end Scale

/-! ## Asking -/

namespace Text.Digits

variable {digits : List Char}

/-- Digits are read as a word if their value is one. -/
theorem isWord_iff (hne : digits ≠ []) (hdigits : ∀ c ∈ digits, c.isDigit = true) :
    IsWord digits ↔ value digits < 2 ^ 64 := by
  have hplus : ∀ rest, digits ≠ '+' :: rest := by
    rintro rest rfl
    exact absurd (hdigits '+' List.mem_cons_self) (by decide)
  constructor
  · rintro ⟨_, rfl | hsigned, _, _, hvalue⟩
    · exact hvalue
    · exact absurd hsigned (hplus _)
  · intro hvalue
    exact ⟨digits, .inl rfl, hne, hdigits, hvalue⟩

/-- Digits have no blanks around them. -/
theorem trim_digits (hdigits : ∀ c ∈ digits, c.isDigit = true) : trim digits = digits :=
  trim_eq_self (fun c hc => isBlank_of_isDigit (hdigits c (List.mem_of_mem_head? hc)))
    fun c hc => isBlank_of_isDigit (hdigits c (List.mem_of_getLast? hc))

end Text.Digits

namespace Plan

variable {plan : Plan} {digits : List Char} {count : Nat} {found : List (Instant × List Char)}

/-- The plan with a number of ticks asked for. -/
def asking (plan : Plan) (request : String) : Plan :=
  { plan with options := plan.options.set .axisTicks request }

/-- A number from 2 ^ 64 on is refused. -/
theorem tickCount_asking_large (hne : digits ≠ []) (hdigits : ∀ c ∈ digits, c.isDigit = true)
    (h : 2 ^ 64 ≤ Digits.value digits) :
    (plan.asking (.ofList digits)).tickCount =
      .error (.invalidOption .axisTicks (.ofList digits)) := by
  refine tickCount_eq_error_iff.2 ⟨_, rfl, ?_, rfl⟩
  rw [String.toList_ofList, Digits.trim_digits hdigits, Digits.isWord_iff hne hdigits]
  omega

/-- A number below 2 ^ 64 is held to 100. -/
theorem tickCount_asking (hne : digits ≠ []) (hdigits : ∀ c ∈ digits, c.isDigit = true)
    (h : Digits.value digits < 2 ^ 64) :
    (plan.asking (.ofList digits)).tickCount = .ok (min (Digits.value digits) 100) := by
  -- a digit is no plus sign, so nothing is taken off in front
  have hstrip : (if digits.head? = some '+' then digits.tail else digits) = digits := by
    refine if_neg fun hplus => ?_
    obtain ⟨rest, rfl⟩ := List.head?_eq_some_iff.1 hplus
    exact absurd (hdigits '+' List.mem_cons_self) (by decide)
  have hset : (plan.asking (.ofList digits)).options.axisTicks = some (.ofList digits) := rfl
  have hrequested : (plan.asking (.ofList digits)).options.requestedTicks =
      .ok (some (Digits.value digits)) := by
    rw [Options.requestedTicks, hset]
    dsimp only
    rw [String.toList_ofList, Digits.trim_digits hdigits,
      Digits.ofWord?_of_digits hstrip hne hdigits h]
  unfold tickCount
  rw [hrequested]
  rfl

/-- If the labels of a chart could be written, there is a label for every instant. -/
theorem exists_labelled (hunset : plan.options.axisTicks = none)
    (h : plan.labelledTicks = .ok found) :
    ∃ items, plan.pattern = .ok items ∧ ∀ t, ∃ label, plan.labelled items t = .ok (t, label) := by
  obtain ⟨count, hcount, h⟩ := Outcome.bind_eq_ok_iff.1 h
  obtain ⟨items, hitems, h⟩ := Outcome.bind_eq_ok_iff.1 h
  -- without a number of its own the chart has six ticks, and so at least one
  have hsix : count = 6 := by
    rw [tickCount_eq_ok hcount, Options.ticksDrawn, Options.requestedTicks, hunset]
    rfl
  subst hsix
  refine ⟨items, hitems, fun t => ?_⟩
  have hzone : .zone ∉ items := by
    split at h
    · cases h
    · -- the label of the first tick was written
      rename_i ticks hticks
      rw [Scale.ticks?_eq_mapM, Outcome.mapM_eq_some_iff] at hticks
      have hlength := hticks.length_eq
      obtain ⟨first, rest, rfl⟩ := List.exists_cons_of_length_pos (l := ticks) (by
        rw [← hlength]
        decide)
      rw [Outcome.mapM_eq_ok_iff] at h
      obtain ⟨tick, _, hfirst, _, _⟩ := List.forall₂_cons_left_iff.1 h
      rw [← Pattern.label?_eq_none_iff (t := first)]
      intro hnone
      rw [labelled, hnone] at hfirst
      cases hfirst
  rw [← Pattern.label?_eq_none_iff (t := t)] at hzone
  obtain ⟨label, hlabel⟩ := Option.ne_none_iff_exists'.1 hzone
  exact ⟨label, by rw [labelled, hlabel]⟩

/-- **Only the ticks depend on how many are asked for.**  The pattern is that of the chart, which
    has been read, and it has a label for every instant; so the labels of any ticks can be
    written. -/
theorem labelledTicks_asking (hunset : plan.options.axisTicks = none)
    (h : plan.labelledTicks = .ok found) {request : String}
    (hcount : (plan.asking request).tickCount = .ok count) :
    ∃ label : Instant → List Char, (plan.asking request).labelledTicks =
      match plan.scale.ticks? count with
      | none => .error .dateOutOfRange
      | some ticks => .ok (ticks.map fun t => (t, label t)) := by
  obtain ⟨items, hitems, hlabels⟩ := exists_labelled hunset h
  -- one function for all labels, so that the result can be said at once
  obtain ⟨label, hlabel⟩ := Classical.skolem.1 hlabels
  have hpattern : (plan.asking request).pattern = .ok items := hitems
  have hscale : (plan.asking request).scale = plan.scale := rfl
  refine ⟨label, ?_⟩
  unfold labelledTicks
  rw [hcount, hpattern]
  simp only [bind, Except.bind, hscale]
  cases plan.scale.ticks? count with
  | none => rfl
  | some ticks =>
    refine Outcome.mapM_eq_ok_iff.2 ?_
    rw [List.forall₂_map_right_iff, List.forall₂_same]
    exact fun t _ => hlabel t

end Plan

/-! ## Charts -/

/-- The instruction is a line of a style. -/
def Instruction.IsLine (instruction : Instruction) (style : String) : Prop :=
  (∃ a b, instruction.shape = .line a b) ∧ instruction.style = style

/-- The instruction is a text of a style. -/
def Instruction.IsText (instruction : Instruction) (style : String) : Prop :=
  (∃ x y lines advance anchor, instruction.shape = .text x y lines advance anchor) ∧
    instruction.style = style

/-- The grid is the line of the axis, and behind it a line and a label in turn for each of a number of
    ticks. -/
def Geometry.ShowsTicks (g : Geometry) (count : Nat) : Prop :=
  ∃ (axis : Instruction) (ticks : List (Instruction × Instruction)),
    g.layer .grid = axis :: ticks.flatMap (fun tick => [tick.1, tick.2]) ∧
    ticks.length = count ∧ axis.IsLine "domain" ∧
    ∀ tick ∈ ticks, tick.1.IsLine "tick" ∧ tick.2.IsText "tick-label"

namespace Schedule

variable {s : Schedule} {config : Config} {f : Findings} {g : Geometry} {digits : List Char}

/-- The schedule with a number of ticks asked for. -/
def asking (s : Schedule) (request : String) : Schedule :=
  { s with options := s.options.set .axisTicks request }

/-- The grid of a chart has a line and a label for each tick that was found. -/
theorem showsTicks_chart (h : s.findings config = .ok f) :
    (s.chart config f).ShowsTicks f.ticks.length := by
  let plan := s.planOf config f
  refine ⟨plan.axisLine, f.ticks.map fun tick => (plan.tickLine tick.1, plan.tickLabel tick.1 tick.2),
    ?_, ?_, ?_, ?_⟩
  · rw [layer_chart h, List.flatMap_map]
    rfl
  · rw [List.length_map]
  · exact ⟨⟨_, _, rfl⟩, rfl⟩
  · intro tick htick
    obtain ⟨tick, _, rfl⟩ := List.mem_map.1 htick
    exact ⟨⟨⟨_, _, rfl⟩, rfl⟩, ⟨_, _, _, _, _, rfl⟩, rfl⟩

/-- Another number of ticks finds the same but for the ticks. -/
theorem findings_asking (h : s.findings config = .ok f) (request : String) :
    (s.asking request).findings config =
      ((s.planOf config f).asking request).labelledTicks.map fun ticks => { f with ticks } := by
  obtain ⟨⟨start, finish⟩, hspan, h⟩ := Outcome.bind_eq_ok_iff.1 h
  obtain ⟨edges, hedges, h⟩ := Outcome.bind_eq_ok_iff.1 h
  obtain ⟨actions, hactions, h⟩ := Outcome.bind_eq_ok_iff.1 h
  obtain ⟨ticks, hticks, h⟩ := Outcome.bind_eq_ok_iff.1 h
  cases h
  -- range, edges and links do not look at the option
  have hspan' : (s.asking request).span config.now = .ok (start, finish) := hspan
  have hedges' : Edge.ofRows (s.asking request).rows = .ok edges := hedges
  have hactions' : Plan.actionsOf config.deepLinkScheme (s.asking request).events = .ok actions :=
    hactions
  unfold findings
  rw [hspan', hedges', hactions']
  rfl

/-- What comes of asking a chart for ticks: the number is refused, or a tick is missing, or the ticks
    are shown. -/
theorem layout_asking_cases (hunset : s.options.axisTicks = none) (hg : s.layout config = .ok g)
    (hne : digits ≠ []) (hdigits : ∀ c ∈ digits, c.isDigit = true) :
    (2 ^ 64 ≤ Digits.value digits ∧ (s.asking (.ofList digits)).layout config =
        .error (.invalidOption .axisTicks (.ofList digits))) ∨
      Digits.value digits < 2 ^ 64 ∧
        ((Scale.ofSpan config g.start g.finish).ticks? (min (Digits.value digits) 100) = none ∧
            (s.asking (.ofList digits)).layout config = .error .dateOutOfRange ∨
          (Scale.ofSpan config g.start g.finish).ticks? (min (Digits.value digits) 100) ≠ none ∧
            ∃ g', (s.asking (.ofList digits)).layout config = .ok g' ∧
              g'.ShowsTicks (min (Digits.value digits) 100)) := by
  rw [layout_eq_map] at hg
  obtain ⟨f, hf, rfl⟩ := Outcome.map_eq_ok_iff.1 hg
  have hticks := (findings_eq_ok hf).2
  have hfindings := findings_asking hf (.ofList digits)
  rcases Nat.lt_or_ge (Digits.value digits) (2 ^ 64) with hword | hlarge
  · refine .inr ⟨hword, ?_⟩
    have hcount : ((s.planOf config f).asking (.ofList digits)).tickCount =
        .ok (min (Digits.value digits) 100) := Plan.tickCount_asking hne hdigits hword
    obtain ⟨label, hlabelled⟩ := Plan.labelledTicks_asking hunset hticks hcount
    have hscale : (s.planOf config f).scale =
        .ofSpan config (s.chart config f).start (s.chart config f).finish := rfl
    rw [hscale] at hlabelled
    -- a tick is missing, or all are there
    cases hfound : (Scale.ofSpan config (s.chart config f).start (s.chart config f).finish).ticks?
        (min (Digits.value digits) 100) with
    | none =>
      rw [hfound] at hlabelled
      refine .inl ⟨rfl, ?_⟩
      rw [layout_eq_map, hfindings, hlabelled]
      rfl
    | some ticks =>
      rw [hfound] at hlabelled
      rw [hlabelled] at hfindings
      refine .inr ⟨Option.some_ne_none ticks, _, by rw [layout_eq_map, hfindings]; rfl, ?_⟩
      have hshows := showsTicks_chart hfindings
      rw [Scale.ticks?_eq_mapM, Outcome.mapM_eq_some_iff] at hfound
      dsimp only at hshows
      rwa [List.length_map, ← hfound.length_eq, List.length_range] at hshows
  · refine .inl ⟨hlarge, ?_⟩
    have hrefused : ((s.planOf config f).asking (.ofList digits)).labelledTicks =
        .error (.invalidOption .axisTicks (.ofList digits)) :=
      Outcome.bind_eq_error_iff.2 (.inl (Plan.tickCount_asking_large hne hdigits hlarge))
    rw [layout_eq_map, hfindings, hrefused]
    rfl

/-- **Asking a chart for ticks.**  A chart that is drawn with its own number of ticks is drawn with any
    number that is asked for in digits, held to 100, exactly if the number is below 2 ^ 64 and none of
    the ticks is missing from the calendar.  A number from 2 ^ 64 on is refused, and ticks are missing
    only if the chart ends within two seconds of the calendar's end. -/
theorem layout_asking (hunset : s.options.axisTicks = none) (hg : s.layout config = .ok g)
    (hne : digits ≠ []) (hdigits : ∀ c ∈ digits, c.isDigit = true) :
    ((∃ g', (s.asking (.ofList digits)).layout config = .ok g') ↔
        Digits.value digits < 2 ^ 64 ∧ ∀ i < min (Digits.value digits) 100,
          (Scale.ofSpan config g.start g.finish).tick? (min (Digits.value digits) 100) i ≠ none) ∧
      (∀ g', (s.asking (.ofList digits)).layout config = .ok g' →
        g'.ShowsTicks (min (Digits.value digits) 100)) ∧
      (2 ^ 64 ≤ Digits.value digits → (s.asking (.ofList digits)).layout config =
        .error (.invalidOption .axisTicks (.ofList digits))) ∧
      (Digits.value digits < 2 ^ 64 → ∀ i < min (Digits.value digits) 100,
        (Scale.ofSpan config g.start g.finish).tick? (min (Digits.value digits) 100) i = none →
          (s.asking (.ofList digits)).layout config = .error .dateOutOfRange ∧
            g.finish.addMilliseconds? 2000 = none) := by
  have hrange := isRange_iff.2 (range?_of_layout hg).2.1
  have hlength : (Scale.ofSpan config g.start g.finish).length ≠ 0 := hrange.length_ne_zero
  have hclamped : min (Digits.value digits) 100 ≤ 100 := Nat.min_le_right _ _
  have hmissing : (Scale.ofSpan config g.start g.finish).ticks? (min (Digits.value digits) 100) =
      none ↔ ∃ i < min (Digits.value digits) 100, (Scale.ofSpan config g.start g.finish).tick?
        (min (Digits.value digits) 100) i = none := Scale.ticks?_eq_none_iff
  have hnone : ∀ {fault : LayoutFault} {g' : Geometry}, Except.error fault ≠ Except.ok g' :=
    fun h => nomatch h
  rcases layout_asking_cases hunset hg hne hdigits with ⟨hlarge, hrefused⟩ |
    ⟨hword, ⟨hticks, hrefused⟩ | ⟨hsome, g', hg', hshows⟩⟩
  -- refused: a number from 2 ^ 64 on
  case inl =>
    rw [hrefused]
    exact ⟨iff_of_false (fun ⟨_, h⟩ => hnone h) fun h => Nat.not_lt.2 hlarge h.1,
      fun _ h => absurd h hnone, fun _ => rfl, fun hword => absurd hword (Nat.not_lt.2 hlarge)⟩
  -- refused: a tick is missing
  case inr.inl =>
    rw [hrefused]
    obtain ⟨i, hi, htick⟩ := hmissing.1 hticks
    refine ⟨iff_of_false (fun ⟨_, h⟩ => hnone h) fun h => h.2 i hi htick, fun _ h => absurd h hnone,
      fun hlarge => absurd hword (Nat.not_lt.2 hlarge), fun _ j hj hnotick => ⟨rfl, ?_⟩⟩
    have hend : (Scale.ofSpan config g.start g.finish).finish.addMilliseconds? 2000 = none :=
      Scale.finish_near_end hrange.start_le hlength hclamped hj hnotick
    exact hend
  -- drawn
  case inr.inr =>
    have hall : ∀ i < min (Digits.value digits) 100,
        (Scale.ofSpan config g.start g.finish).tick? (min (Digits.value digits) 100) i ≠ none :=
      fun i hi htick => hsome (hmissing.2 ⟨i, hi, htick⟩)
    refine ⟨iff_of_true ⟨g', hg'⟩ ⟨hword, hall⟩, fun other hother => ?_,
      fun hlarge => absurd hword (Nat.not_lt.2 hlarge), fun _ i hi htick => absurd htick (hall i hi)⟩
    rw [hg'] at hother
    cases hother
    exact hshows

/-- A day with 250 ticks asked for, of which 100 are drawn. -/
theorem layout_asking_clamped :
    ∃ s g g', Schedule.ofText "task A,a,,2024-01-01,1D" = .ok s ∧ s.options.axisTicks = none ∧
      s.layout { now := default } = .ok g ∧
      (s.asking (.ofList "250".toList)).layout { now := default } = .ok g' ∧ g'.ShowsTicks 100 := by
  have hok : ((Schedule.ofText "task A,a,,2024-01-01,1D").map fun s =>
      (s.declaredInOrder, (s.layoutAsDeclared { now := default }).map fun g =>
        (s.options.axisTicks, (g.finish.addMilliseconds? 2000).isSome))) =
      .ok (true, .ok (none, true)) := by decide +kernel
  obtain ⟨s, g, hs, hg, hresult⟩ := Schedule.layout_of_layoutAsDeclared hok
  obtain ⟨hunset, hroom⟩ := Prod.mk.inj hresult
  have hdigits : ∀ c ∈ "250".toList, c.isDigit = true :=
    List.all_eq_true.1 (by decide)
  obtain ⟨hdrawn, hshows, -, hmissing⟩ := layout_asking hunset hg (by decide) hdigits
  have hword : Digits.value "250".toList < 2 ^ 64 := by decide
  have hclamped : min (Digits.value "250".toList) 100 = 100 := by decide
  rw [hclamped] at hdrawn hshows hmissing
  obtain ⟨g', hg'⟩ := hdrawn.2 ⟨hword, fun i hi htick => by
    rw [(hmissing hword i hi htick).2] at hroom
    cases hroom⟩
  exact ⟨s, g, g', hs, hunset, hg, hg', hshows g' hg'⟩

/-- The same day with 2 ^ 64 ticks asked for is refused; and so is, with twelve, a chart that ends two
    milliseconds before the calendar and is drawn with the ticks of its own. -/
theorem layout_asking_refused :
    (∃ s g, Schedule.ofText "task A,a,,2024-01-01,1D" = .ok s ∧ s.options.axisTicks = none ∧
      s.layout { now := default } = .ok g ∧
      (s.asking (.ofList "18446744073709551616".toList)).layout { now := default } =
        .error (.invalidOption .axisTicks (.ofList "18446744073709551616".toList))) ∧
    ∃ s g, Schedule.ofText
        "milestone A,a,,-262143-01-01\nmilestone B,b,,+262142-12-31T23:59:59.998" = .ok s ∧
      s.options.axisTicks = none ∧ s.layout { now := default } = .ok g ∧
      (s.asking (.ofList "12".toList)).layout { now := default } = .error .dateOutOfRange := by
  constructor
  · have hok : ((Schedule.ofText "task A,a,,2024-01-01,1D").map fun s =>
        (s.declaredInOrder, (s.layoutAsDeclared { now := default }).map fun _ =>
          s.options.axisTicks)) = .ok (true, .ok none) := by decide +kernel
    obtain ⟨s, g, hs, hg, hunset⟩ := Schedule.layout_of_layoutAsDeclared hok
    have hdigits : ∀ c ∈ "18446744073709551616".toList, c.isDigit = true :=
      List.all_eq_true.1 (by decide)
    rcases layout_asking_cases hunset hg (by decide) hdigits with ⟨_, hrefused⟩ | ⟨hword, _⟩
    · exact ⟨s, g, hs, hunset, hg, hrefused⟩
    · exact absurd hword (by decide)
  · have hok : ((Schedule.ofText
        "milestone A,a,,-262143-01-01\nmilestone B,b,,+262142-12-31T23:59:59.998").map fun s =>
        (s.declaredInOrder, (s.layoutAsDeclared { now := default }).map fun g =>
          (s.options.axisTicks,
            ((Scale.ofSpan { now := default } g.start g.finish).ticks? 12).isNone))) =
        .ok (true, .ok (none, true)) := by decide +kernel
    obtain ⟨s, g, hs, hg, hresult⟩ := Schedule.layout_of_layoutAsDeclared hok
    obtain ⟨hunset, hticks⟩ := Prod.mk.inj hresult
    have hdigits : ∀ c ∈ "12".toList, c.isDigit = true :=
      List.all_eq_true.1 (by decide)
    rcases layout_asking_cases hunset hg (by decide) hdigits with
      ⟨hlarge, _⟩ | ⟨_, ⟨_, hrefused⟩ | ⟨hsome, _⟩⟩
    · exact absurd hlarge (by decide)
    · exact ⟨s, g, hs, hunset, hg, hrefused⟩
    · exact absurd (Option.isNone_iff_eq_none.1 hticks) hsome

end Schedule

end GanttChart
