/-
  The ticks of a chart.

  A tick stands where the movement by its offset leads from the start of the chart.

  1. **Reach.**  The last tick leads to the end of the chart, but for less than a millisecond, exactly
     if its offset is the length of the chart and no leap second disturbs the time between start and
     end (`Scale.exists_isAxis_iff`).  Then all ticks are in the calendar, in order and not past the
     end, since their offsets are.

  2. **Charts of schedules.**  Those below 2 ^ 51 milliseconds whose ends are in no leap second have an
     axis with any number of ticks, and rounding moves the last tick of no other by more than ten
     milliseconds (`Schedule.range_isAxis_iff`).  A chart over the whole calendar has no axis, since
     its last tick would be outside (`Schedule.ofText_lacks_axis`).
-/
import GanttChart.Proofs.Chart.Axis
import GanttChart.Proofs.Chart.Moving
import GanttChart.Proofs.Chart.TickOffset
import GanttChart.Proofs.Schedule.Reference
import Mathlib.Algebra.Group.Int.Defs

namespace GanttChart

/-- Ticks that divide the time from `start` to `finish`. -/
structure IsAxis (start finish : Instant) (count : Nat) (ticks : List Instant) : Prop where
  length_eq : ticks.length = count
  ordered : ticks.Pairwise (· ≤ ·)
  head?_eq : ticks.head? = some start
  le_finish : ∀ t ∈ ticks, t ≤ finish
  /-- The last tick is the end of the chart, but for a part of a millisecond. -/
  reaches : ∃ last rest, ticks.getLast? = some last ∧ 0 ≤ rest ∧ rest < 1000000 ∧
    last.addNanoseconds? rest = some finish

/-- No tick is before the start. -/
theorem IsAxis.start_le {start finish : Instant} {count : Nat} {ticks : List Instant}
    (h : IsAxis start finish count ticks) {t : Instant} (ht : t ∈ ticks) : start ≤ t := by
  obtain ⟨others, rfl⟩ := List.head?_eq_some_iff.1 h.head?_eq
  rcases List.mem_cons.1 ht with rfl | hmem
  · exact Int.le_refl _
  · exact (List.pairwise_cons.1 h.ordered).1 t hmem

/-! ## Reach

  An axis is a list of instants that are found one by one.  That all of them are there, in order
  and not past the end, follows from the offsets; what decides is whether the last one leads to
  the end. -/

/-- No chart is longer than the calendar. -/
theorem Instant.natAbs_millisecondsSince_le (later earlier : Instant) :
    (later.millisecondsSince earlier).natAbs ≤ 2 ^ 54 := by
  have hfirst : (-96465292 : Int) ≤ later.date.number ∧ (-96465292 : Int) ≤ earlier.date.number :=
    ⟨later.date.first_le, earlier.date.first_le⟩
  have hlast : later.date.number < 95026237 ∧ earlier.date.number < 95026237 :=
    ⟨later.date.lt_end, earlier.date.lt_end⟩
  have hsecond := later.time.second_lt
  have hsecond' := earlier.time.second_lt
  have hnano := later.time.nanosecond_lt
  have hnano' := earlier.time.nanosecond_lt
  have hleap := leapBetween_bounds later.time earlier.time
  have hnanoseconds : (later.nanosecondsSince earlier).natAbs ≤ 2 ^ 54 * 1000000 := by
    unfold nanosecondsSince timestamp
    omega
  rw [millisecondsSince, Int.natAbs_tdiv]
  show (later.nanosecondsSince earlier).natAbs / 1000000 ≤ 2 ^ 54
  omega

namespace Scale

variable {scale : Scale} {count : Nat} {ticks : List Instant}

/-- The ticks are listed by their positions. -/
theorem tick?_eq_getElem? (h : scale.ticks? count = some ticks) {i : Nat} (hi : i < count) :
    scale.tick? count i = ticks[i]? := by
  rw [ticks?_eq_mapM, Outcome.mapM_eq_some_iff] at h
  have hlength := h.length_eq
  rw [List.length_range] at hlength
  have htick := h.get (by rwa [List.length_range]) (hlength ▸ hi)
  simp only [List.get_eq_getElem, List.getElem_range] at htick
  rw [htick, List.getElem?_eq_getElem]

/-- If every tick is there, the list of them is. -/
theorem ticks?_eq_map {g : Nat → Instant} (h : ∀ i < count, scale.tick? count i = some (g i)) :
    scale.ticks? count = some ((List.range count).map g) := by
  rw [ticks?_eq_mapM, Outcome.mapM_eq_some_iff, List.forall₂_map_right_iff, List.forall₂_same]
  exact fun i hi => h i (List.mem_range.1 hi)

/-- With two ticks or more, each is a movement from the start by its offset. -/
theorem tick?_eq (hcount : 2 ≤ count) (i : Nat) :
    scale.tick? count i = scale.start.addNanoseconds? (scale.tickOffset count i * 1000000) :=
  if_neg (by omega)

/-- Ticks stand in the order of their offsets. -/
theorem tick_le (hcount : 2 ≤ count) {i j : Nat} {t u : Instant}
    (hnonneg : 0 ≤ scale.tickOffset count i)
    (hle : scale.tickOffset count i ≤ scale.tickOffset count j)
    (ht : scale.tick? count i = some t) (hu : scale.tick? count j = some u) : t ≤ u := by
  rw [tick?_eq hcount] at ht hu
  obtain ⟨m, hm, hrest⟩ := Instant.addNanoseconds?_between
    (d := scale.tickOffset count i * 1000000) (by omega) (by omega) hu
  cases ht.symm.trans hm
  exact Instant.le_of_addNanoseconds? (by omega) hrest

/-- Offsets up to the length of an undisturbed chart are on the way to its end. -/
theorem exists_tick (hle : scale.start ≤ scale.finish) (hcount : 2 ≤ count)
    (h : Instant.Undisturbed scale.start scale.finish) {i : Nat}
    (hnonneg : 0 ≤ scale.tickOffset count i) (hlength : scale.tickOffset count i ≤ scale.length) :
    ∃ t, scale.tick? count i = some t ∧
      t.addNanoseconds? (scale.finish.nanosecondsSince scale.start -
        scale.tickOffset count i * 1000000) = some scale.finish := by
  have hcut : scale.length * 1000000 ≤ scale.finish.nanosecondsSince scale.start :=
    Instant.millisecondsSince_mul_le (h.forward hle).1
  rw [tick?_eq hcount]
  exact Instant.addNanoseconds?_between (by omega) (by omega)
    ((Instant.addNanoseconds?_nanosecondsSince_iff hle).2 h)

/-- Offsets lie between zero and the length if the last one is the length. -/
theorem tickOffset_bounds (hlength : 0 ≤ scale.length) (hcount : 2 ≤ count) (hcount' : count ≤ 100)
    (hlast : scale.tickOffset count (count - 1) = scale.length) {i : Nat} (hi : i < count) :
    0 ≤ scale.tickOffset count i ∧ scale.tickOffset count i ≤ scale.length := by
  have hbound := Instant.natAbs_millisecondsSince_le scale.finish scale.start
  have hzero : scale.tickOffset count 0 = 0 := tickOffset_zero hbound hcount hcount'
  have hlow := tickOffset_mono hbound hlength hcount hcount' (Nat.zero_le i) hi
  have hhigh := tickOffset_mono hbound hlength hcount hcount' (by omega : i ≤ count - 1) (by omega)
  omega

/-- Then all ticks are there, and from each the rest of the time leads to the end.  They are values
    of one function, so that their list is a list of values. -/
theorem exists_ticks (hle : scale.start ≤ scale.finish) (hcount : 2 ≤ count)
    (h : Instant.Undisturbed scale.start scale.finish)
    (hoffset : ∀ i < count, 0 ≤ scale.tickOffset count i ∧
      scale.tickOffset count i ≤ scale.length) :
    ∃ tick : Nat → Instant, ∀ i < count, scale.tick? count i = some (tick i) ∧
      (tick i).addNanoseconds? (scale.finish.nanosecondsSince scale.start -
        scale.tickOffset count i * 1000000) = some scale.finish := by
  have hticks : ∀ i, ∃ t, i < count → scale.tick? count i = some t ∧
      t.addNanoseconds? (scale.finish.nanosecondsSince scale.start -
        scale.tickOffset count i * 1000000) = some scale.finish := by
    intro i
    by_cases hi : i < count
    · obtain ⟨t, ht⟩ := exists_tick hle hcount h (hoffset i hi).1 (hoffset i hi).2
      exact ⟨t, fun _ => ht⟩
    · exact ⟨scale.start, fun hlt => absurd hlt hi⟩
  exact Classical.skolem.1 hticks

/-- **An axis** reaches from start to finish if the last offset does. -/
theorem exists_isAxis (hle : scale.start ≤ scale.finish) (hcount : 2 ≤ count) (hcount' : count ≤ 100)
    (hlast : scale.tickOffset count (count - 1) = scale.length)
    (h : Instant.Undisturbed scale.start scale.finish) :
    ∃ ticks, scale.ticks? count = some ticks ∧ IsAxis scale.start scale.finish count ticks := by
  have htime : 0 ≤ scale.finish.nanosecondsSince scale.start := (h.forward hle).1
  have hlength : 0 ≤ scale.length := Int.tdiv_nonneg htime (by decide)
  have hcut : scale.length * 1000000 ≤ scale.finish.nanosecondsSince scale.start :=
    Instant.millisecondsSince_mul_le htime
  have hbound := Instant.natAbs_millisecondsSince_le scale.finish scale.start
  have hoffset : ∀ i < count, 0 ≤ scale.tickOffset count i ∧
      scale.tickOffset count i ≤ scale.length :=
    fun i hi => tickOffset_bounds hlength hcount hcount' hlast hi
  obtain ⟨tick, htick⟩ := exists_ticks hle hcount h hoffset
  refine ⟨(List.range count).map tick, ticks?_eq_map fun i hi => (htick i hi).1, ?_⟩
  constructor
  case length_eq => rw [List.length_map, List.length_range]
  case ordered =>
    rw [List.pairwise_map]
    refine List.pairwise_le_range.imp_of_mem fun {i j} hi hj hij => ?_
    have hi := List.mem_range.1 hi
    have hj := List.mem_range.1 hj
    have hmono := tickOffset_mono hbound hlength hcount hcount' hij hj
    exact tick_le hcount (hoffset i hi).1 hmono (htick i hi).1 (htick j hj).1
  case head?_eq =>
    have hzero : scale.tickOffset count 0 = 0 := tickOffset_zero hbound hcount hcount'
    have hfirst : scale.start.addMilliseconds? 0 = some (tick 0) := by
      rw [← hzero, Instant.addMilliseconds?, ← tick?_eq hcount, (htick 0 (by omega)).1]
    rw [Instant.addMilliseconds?_zero] at hfirst
    rw [List.head?_map, List.head?_range, if_neg (by omega), hfirst]
    rfl
  case le_finish =>
    intro t ht
    obtain ⟨i, hi, rfl⟩ := List.mem_map.1 ht
    have hi := List.mem_range.1 hi
    have hhigh := (hoffset i hi).2
    exact Instant.le_of_addNanoseconds? (by omega) (htick i hi).2
  case reaches =>
    -- the last tick is a whole number of milliseconds from the start, and the end need not be
    have hnear : scale.finish.nanosecondsSince scale.start < scale.length * 1000000 + 1000000 :=
      (Instant.millisecondsSince_near scale.finish scale.start).2
    have hrest := (htick (count - 1) (by omega)).2
    rw [hlast] at hrest
    refine ⟨tick (count - 1), _, ?_, by omega, by omega, hrest⟩
    rw [List.getLast?_map, List.getLast?_range, if_neg (by omega)]
    rfl

/-- An axis that reaches the end has the end's offset last, and the time to it is undisturbed. -/
theorem reaches_of_isAxis (hne : scale.length ≠ 0) (hcount : 2 ≤ count) (hcount' : count ≤ 100)
    (h : scale.ticks? count = some ticks)
    (haxis : IsAxis scale.start scale.finish count ticks) :
    scale.tickOffset count (count - 1) = scale.length ∧
      Instant.Undisturbed scale.start scale.finish := by
  obtain ⟨last, rest, hlast, hrest, hrest', hfinish⟩ := haxis.reaches
  have hadd : scale.start.addNanoseconds? (scale.tickOffset count (count - 1) * 1000000) =
      some last := by
    rw [← tick?_eq hcount, tick?_eq_getElem? h (by omega), ← hlast, List.getLast?_eq_getElem?,
      haxis.length_eq]
  -- the last tick is not before the first, so its offset is not negative
  have hnonneg : 0 ≤ scale.tickOffset count (count - 1) := by
    refine Int.not_lt.1 fun hneg => ?_
    have hback := Instant.lt_of_addNanoseconds?_neg (by omega) hadd
    exact Int.not_lt.2 (haxis.start_le (List.mem_of_getLast? hlast)) hback
  have htotal : scale.start.addNanoseconds?
      (scale.tickOffset count (count - 1) * 1000000 + rest) = some scale.finish := by
    rw [← Instant.addNanoseconds?_add (by omega) hrest, hadd]
    exact hfinish
  have hforward := (Instant.addNanoseconds?_eq_some_iff (by omega)).1 htotal
  have hbound := Instant.natAbs_millisecondsSince_le scale.finish scale.start
  obtain ⟨hnear, hnear'⟩ := tickOffset_last_near hne hbound hcount hcount'
  have hlength : scale.length * 1000000 < scale.finish.nanosecondsSince scale.start + 1000000 ∧
      scale.finish.nanosecondsSince scale.start < scale.length * 1000000 + 1000000 :=
    Instant.millisecondsSince_near scale.finish scale.start
  -- the movement to the last tick and over the rest is one from the start to the end of the chart
  rcases hforward.nanosecondsSince_eq with htime | htime
  · rw [← htime] at hforward
    have hcut : scale.length * 1000000 ≤ scale.finish.nanosecondsSince scale.start :=
      Instant.millisecondsSince_mul_le (by omega)
    exact ⟨by omega, hforward.undisturbed⟩
  · -- a second is missing from the length, and rounding does not make up for it
    omega

/-- **There is an axis** exactly if the last offset is the length of the chart, and the time from its
    start to its end is undisturbed. -/
theorem exists_isAxis_iff (scale : Scale) (hle : scale.start ≤ scale.finish)
    (hne : scale.length ≠ 0) (hcount : 2 ≤ count) (hcount' : count ≤ 100) :
    (∃ ticks, scale.ticks? count = some ticks ∧ IsAxis scale.start scale.finish count ticks) ↔
      scale.tickOffset count (count - 1) = scale.length ∧
        Instant.Undisturbed scale.start scale.finish := by
  constructor
  · rintro ⟨ticks, hticks, haxis⟩
    exact reaches_of_isAxis hne hcount hcount' hticks haxis
  · rintro ⟨hlast, hundisturbed⟩
    exact exists_isAxis hle hcount hcount' hlast hundisturbed

end Scale

/-! ## Charts of schedules -/

namespace Schedule

variable {s : Schedule} {now start finish : Instant} {count : Nat}

/-- A range does not lead backward. -/
theorem IsRange.start_le (h : s.IsRange now start finish) : start ≤ finish := by
  obtain ⟨last, hspan, hfinish⟩ := h.ends
  split at hfinish
  · exact Instant.le_of_addNanoseconds? (by decide) hfinish
  · rcases hspan with ⟨_, hstart, hlast⟩ | ⟨_, hlast, hall⟩
    · rw [hfinish, hstart, hlast]
      exact Int.le_refl _
    · rw [hfinish]
      exact (hall last hlast).1

/-- **Charts have an axis**, long ones and leap seconds apart.  The ticks of a chart lead from its
    start to its end exactly if the offset of the last one is the length of the chart and no leap
    second disturbs the time between the ends.  Rounding moves that offset by ten milliseconds at
    most, and not at all below 2 ^ 51 milliseconds. -/
theorem range_isAxis_iff (h : s.range? now = some (start, finish)) (config : Config)
    (hcount : 2 ≤ count) (hcount' : count ≤ Plan.maximalTicks) :
    ((∃ ticks, (Scale.ofSpan config start finish).ticks? count = some ticks ∧
          IsAxis start finish count ticks) ↔
        (Scale.ofSpan config start finish).tickOffset count (count - 1) =
            finish.millisecondsSince start ∧ Instant.Undisturbed start finish) ∧
      ((Scale.ofSpan config start finish).tickOffset count (count - 1) ≤
          finish.millisecondsSince start + 10 ∧
        finish.millisecondsSince start ≤
          (Scale.ofSpan config start finish).tickOffset count (count - 1) + 10) ∧
      (¬start.InLeapSecond → ¬finish.InLeapSecond → finish.millisecondsSince start < 2 ^ 51 →
        ∃ ticks, (Scale.ofSpan config start finish).ticks? count = some ticks ∧
          IsAxis start finish count ticks) := by
  have hrange := isRange_iff.2 h
  have hne : (Scale.ofSpan config start finish).length ≠ 0 := hrange.length_ne_zero
  have hiff := Scale.exists_isAxis_iff (.ofSpan config start finish) hrange.start_le hne hcount
    hcount'
  have hbound := Instant.natAbs_millisecondsSince_le finish start
  -- the exact condition and the rounding are those of the scale; short charts are left
  refine ⟨hiff, Scale.tickOffset_last_near hne hbound hcount hcount', ?_⟩
  intro hstart hfinish hshort
  have hundisturbed : Instant.Undisturbed start finish := .of_plain hfinish hstart
  have hnonneg : 0 ≤ finish.millisecondsSince start :=
    Int.tdiv_nonneg (hundisturbed.forward hrange.start_le).1 (by decide)
  have hlength : (Scale.ofSpan config start finish).length.natAbs < 2 ^ 51 := by
    show (finish.millisecondsSince start).natAbs < 2 ^ 51
    omega
  exact hiff.2 ⟨Scale.tickOffset_last hne hlength hcount hcount', hundisturbed⟩

/-- A chart from the middle of a leap second to a part of a millisecond later in the day. -/
theorem range_isAxis_iff_noon :
    ∃ s start finish,
      Schedule.ofText "milestone A,a,,2016-12-31T11:59:60.5\nmilestone B,b,,2016-12-31T12:30:00.0007" =
        .ok s ∧
      s.range? default = some (start, finish) ∧ start.InLeapSecond ∧
      ∃ ticks, (Scale.ofSpan { now := default } start finish).ticks? 3 = some ticks ∧
        IsAxis start finish 3 ticks := by
  have hok : ((Schedule.ofText
      "milestone A,a,,2016-12-31T11:59:60.5\nmilestone B,b,,2016-12-31T12:30:00.0007").map
        fun s => (s.range? default).map fun range =>
          decide (range.1.InLeapSecond ∧
            (Scale.ofSpan { now := default } range.1 range.2).tickOffset 3 2 =
              range.2.millisecondsSince range.1 ∧ Instant.Undisturbed range.1 range.2)) =
      .ok (some true) := by decide +kernel
  obtain ⟨s, start, finish, hs, hrange, hvalue⟩ := exists_range hok
  obtain ⟨hleap, hlast, hundisturbed⟩ := of_decide_eq_true hvalue
  exact ⟨s, start, finish, hs, hrange, hleap,
    (range_isAxis_iff hrange { now := default } (by decide) (by decide)).1.2 ⟨hlast, hundisturbed⟩⟩

/-- A chart over the whole calendar, whose ticks are missing since the last one is rounded out of it;
    and a chart that begins in a leap second, whose last tick stands a second before its end. -/
theorem ofText_lacks_axis :
    (∃ s start finish,
      Schedule.ofText "milestone A,a,,-262143-01-01\nmilestone B,b,,+262142-12-31T23:59:59.999" =
        .ok s ∧
      s.range? default = some (start, finish) ∧
      (Scale.ofSpan { now := default } start finish).ticks? 2 = none) ∧
    ∃ s start finish,
      Schedule.ofText "milestone A,a,,2016-12-31T23:59:60" = .ok s ∧
      s.range? default = some (start, finish) ∧
      (∃ last, (Scale.ofSpan { now := default } start finish).ticks? 2 = some [start, last] ∧
        last.addMilliseconds? 1000 = some finish) ∧
      ¬∃ ticks, (Scale.ofSpan { now := default } start finish).ticks? 2 = some ticks ∧
        IsAxis start finish 2 ticks := by
  constructor
  · have hok : ((Schedule.ofText
        "milestone A,a,,-262143-01-01\nmilestone B,b,,+262142-12-31T23:59:59.999").map
          fun s => (s.range? default).map fun range =>
            (Scale.ofSpan { now := default } range.1 range.2).ticks? 2) =
        .ok (some none) := by decide +kernel
    exact exists_range hok
  · have hok : ((Schedule.ofText "milestone A,a,,2016-12-31T23:59:60").map
        fun s => (s.range? default).map fun range =>
          decide ((∃ last ∈ range.2.addMilliseconds? (-1000),
            (Scale.ofSpan { now := default } range.1 range.2).ticks? 2 = some [range.1, last] ∧
              last.addMilliseconds? 1000 = some range.2) ∧
            ¬Instant.Undisturbed range.1 range.2)) =
        .ok (some true) := by decide +kernel
    obtain ⟨s, start, finish, hs, hrange, hvalue⟩ := exists_range hok
    obtain ⟨⟨last, _, hticks, hlast⟩, hdisturbed⟩ := of_decide_eq_true hvalue
    have hisRange := isRange_iff.2 hrange
    have hiff := Scale.exists_isAxis_iff (.ofSpan { now := default } start finish)
      hisRange.start_le hisRange.length_ne_zero (by decide : 2 ≤ 2) (by decide)
    exact ⟨s, start, finish, hs, hrange, ⟨last, hticks, hlast⟩,
      fun haxis => hdisturbed (hiff.1 haxis).2⟩

end Schedule

end GanttChart
