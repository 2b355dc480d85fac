/-
  Offsets on the time scale.

  The offset of an instant is the time from the start of the chart to it, in whole milliseconds.

  1. **Order.**  Without leap seconds the time between instants grows with their order
     (`Instant.nanosecondsSince_le`).  A leap second is counted or not by the times of day alone,
     whatever the dates are, so with one a later instant may lie before an earlier one
     (`Instant.Swapped`).  Then a leap second is involved, the two are at most two seconds apart on
     the clock, and they change places by less than two seconds (`Instant.Swapped.near`).

  2. **The plot.**  A chart shows its items in their order and between its ends exactly if no two of
     their instants are swapped (`Schedule.keepsOrder_iff`), and so if none is in a leap second.
     Next to a leap second at midnight a milestone may lie before the start of its chart
     (`Schedule.ofText_swaps`).
-/
import GanttChart.Proofs.Chart.Range
import GanttChart.Proofs.Outcome
import GanttChart.Schedule.Statement

namespace GanttChart

/-! ## Order -/

namespace Instant

/-- The instant is inside a leap second, which a clock shows as `:60`. -/
def InLeapSecond (t : Instant) : Prop := 1000000000 ≤ t.time.nanosecond

instance (t : Instant) : Decidable t.InLeapSecond :=
  inferInstanceAs (Decidable (1000000000 ≤ t.time.nanosecond))

/-- Seen from the start of a chart, the later of two instants comes first. -/
def Swapped (start earlier later : Instant) : Prop :=
  earlier ≤ later ∧ later.millisecondsSince start < earlier.millisecondsSince start

variable {start earlier later : Instant}

/-- The key of an instant counts its second twice over, to leave room for a leap second. -/
theorem key_eq_timestamp (t : Instant) :
    t.key = t.timestamp * 2000000000 + t.time.nanosecond := rfl

/-- Whole milliseconds keep the order of nanoseconds. -/
theorem millisecondsSince_le
    (h : earlier.nanosecondsSince start ≤ later.nanosecondsSince start) :
    earlier.millisecondsSince start ≤ later.millisecondsSince start :=
  Int.tdiv_le_tdiv (by decide) h

/-- No time passes from an instant to itself. -/
@[simp] theorem millisecondsSince_self (t : Instant) : t.millisecondsSince t = 0 := by
  unfold millisecondsSince nanosecondsSince leapBetween
  simp

/-- Outside of leap seconds none is counted. -/
theorem leapBetween_eq_zero {a b : Instant} (ha : ¬a.InLeapSecond) (hb : ¬b.InLeapSecond) :
    leapBetween a.time b.time = 0 := by
  unfold InLeapSecond at ha hb
  unfold leapBetween
  rw [if_neg (by omega), if_neg (by omega)]

/-- Without leap seconds time grows with the order of instants. -/
theorem nanosecondsSince_le (hstart : ¬start.InLeapSecond) (hearlier : ¬earlier.InLeapSecond)
    (hlater : ¬later.InLeapSecond) (h : earlier ≤ later) :
    earlier.nanosecondsSince start ≤ later.nanosecondsSince start := by
  unfold nanosecondsSince
  rw [leapBetween_eq_zero hearlier hstart, leapBetween_eq_zero hlater hstart]
  unfold InLeapSecond at hearlier hlater
  rw [le_iff, key_eq_timestamp, key_eq_timestamp] at h
  omega

/-- Two instants may differ in the leap seconds that are counted for them, but the earlier one never
    has two more unless a minute lies between them: it is on the day before, and the later one is
    itself at the end of a minute. -/
theorem leapBetween_le (h : earlier ≤ later) :
    leapBetween earlier.time start.time ≤ leapBetween later.time start.time + 1 ∨
      earlier.timestamp + 60 ≤ later.timestamp := by
  have hsecond := earlier.time.second_lt
  have hminute := later.time.leap_at_minute
  have hnano := earlier.time.nanosecond_lt
  have hnano' := later.time.nanosecond_lt
  rw [le_iff, key, key] at h
  unfold leapBetween timestamp
  -- a leap second is counted if the time of day that comes first is inside one; which of the two
  -- comes first decides the sign
  split
  · split
    · omega
    · split
      · omega
      · omega
  · have hlater := (leapBetween_bounds later.time start.time).1
    unfold leapBetween at hlater
    split
    · omega
    · omega

/-- What two swapped instants are like. -/
structure Near (start earlier later : Instant) : Prop where
  leap : start.InLeapSecond ∨ earlier.InLeapSecond ∨ later.InLeapSecond
  timestamp_le : later.timestamp ≤ earlier.timestamp + 2
  nanosecondsSince_lt :
    earlier.nanosecondsSince start < later.nanosecondsSince start + 2000000000

/-- **Only instants about a leap second are swapped**, and by less than two seconds. -/
theorem Swapped.near (h : Swapped start earlier later) : Near start earlier later := by
  obtain ⟨hle, hswapped⟩ := h
  have hback : later.nanosecondsSince start < earlier.nanosecondsSince start :=
    Int.not_le.1 fun h => Int.not_le.2 hswapped (millisecondsSince_le h)
  have hleaps : leapBetween earlier.time start.time ≤ leapBetween later.time start.time + 1 ∨
      earlier.timestamp + 60 ≤ later.timestamp := leapBetween_le hle
  have hleap := leapBetween_bounds earlier.time start.time
  have hleap' := leapBetween_bounds later.time start.time
  have hnano := earlier.time.nanosecond_lt
  have hnano' := later.time.nanosecond_lt
  -- all three are linear in the keys, once it is known how many leap seconds are counted
  constructor
  case leap =>
    by_contra hnone
    simp only [not_or] at hnone
    exact Int.not_le.2 hback (nanosecondsSince_le hnone.1 hnone.2.1 hnone.2.2 hle)
  case timestamp_le =>
    unfold nanosecondsSince at hback
    omega
  case nanosecondsSince_lt =>
    unfold nanosecondsSince at hback ⊢
    rw [le_iff, key_eq_timestamp, key_eq_timestamp] at hle
    omega

end Instant

/-! ## The plot -/

namespace Schedule

/-- Measured in whole milliseconds, a chart from `start` to `finish` has a length, and the starts and
    ends of its items lie on it in their order. -/
structure KeepsOrder (s : Schedule) (start finish : Instant) : Prop where
  ordered : ∀ a ∈ s.instants, ∀ b ∈ s.instants, a ≤ b →
    0 ≤ a.millisecondsSince start ∧ a.millisecondsSince start ≤ b.millisecondsSince start ∧
      b.millisecondsSince start ≤ finish.millisecondsSince start
  length_pos : 1 ≤ finish.millisecondsSince start

variable {s : Schedule} {now start finish : Instant}

/-- Nothing but two swapped instants can keep a chart from showing the order of its items. -/
theorem keepsOrder_iff (h : s.range? now = some (start, finish)) :
    s.KeepsOrder start finish ↔
      ∀ a ∈ s.instants, ∀ b ∈ s.instants, ¬Instant.Swapped start a b := by
  constructor
  · intro horder a ha b hb hswapped
    obtain ⟨hle, hback⟩ := hswapped
    exact Int.not_le.2 hback (horder.ordered a ha b hb hle).2.1
  · intro hnone
    have hkept : ∀ a ∈ s.instants, ∀ b ∈ s.instants, a ≤ b →
        a.millisecondsSince start ≤ b.millisecondsSince start := fun a ha b hb hle =>
      Int.not_lt.1 fun hback => hnone a ha b hb ⟨hle, hback⟩
    obtain ⟨last, hspan, hfinish⟩ := range?_eq_some_iff.1 h
    -- the earliest instant is the start, so no offset is negative and none is past the last one
    have hplot : 0 ≤ last.millisecondsSince start ∧ ∀ t ∈ s.instants,
        0 ≤ t.millisecondsSince start ∧ t.millisecondsSince start ≤ last.millisecondsSince start := by
      rcases hspan with ⟨hempty, rfl, rfl⟩ | ⟨hstart, hlast, hall⟩
      · simp [hempty]
      · have hnonneg : ∀ t ∈ s.instants, 0 ≤ t.millisecondsSince start := by
          intro t ht
          have hle := hkept start hstart t ht (hall t ht).1
          rwa [Instant.millisecondsSince_self] at hle
        exact ⟨hnonneg last hlast, fun t ht => ⟨hnonneg t ht, hkept t ht last hlast (hall t ht).2⟩⟩
    have hlength : last.millisecondsSince start ≤ finish.millisecondsSince start ∧
        1 ≤ finish.millisecondsSince start := by
      split at hfinish
      · have hday := Instant.le_millisecondsSince_day hfinish
        omega
      · rw [hfinish]
        omega
    refine ⟨fun a ha b hb hle => ⟨(hplot.2 a ha).1, hkept a ha b hb hle, ?_⟩, hlength.2⟩
    exact Int.le_trans (hplot.2 b hb).2 hlength.1

/-- **Charts show the order of their items, leap seconds apart.**  The starts and ends of items lie
    on the chart of a schedule in their order exactly if no two of them are swapped.  Two that are
    swapped are about a leap second and within seconds of each other, so without leap seconds the
    chart shows the order of all. -/
theorem range_keepsOrder_iff (h : s.range? now = some (start, finish)) :
    (s.KeepsOrder start finish ↔
        ∀ a ∈ s.instants, ∀ b ∈ s.instants, ¬Instant.Swapped start a b) ∧
      (∀ a ∈ s.instants, ∀ b ∈ s.instants, Instant.Swapped start a b →
        Instant.Near start a b) ∧
      ((∀ t ∈ s.instants, ¬t.InLeapSecond) → s.KeepsOrder start finish) := by
  refine ⟨keepsOrder_iff h, fun _ _ _ _ => Instant.Swapped.near, fun hplain => ?_⟩
  rw [keepsOrder_iff h]
  intro a ha b hb hswapped
  -- there are instants, so the start of the chart is one of them
  obtain ⟨last, hspan, _⟩ := range?_eq_some_iff.1 h
  rcases hspan with ⟨hempty, _, _⟩ | ⟨hstart, _, _⟩
  · rw [hempty] at ha
    cases ha
  · rcases hswapped.near.leap with hleap | hleap | hleap
    · exact hplain start hstart hleap
    · exact hplain a ha hleap
    · exact hplain b hb hleap

/-- A value computed from the range of a text. -/
theorem exists_range {ε α : Type} {text : Except ε Schedule} {f : Schedule → Instant × Instant → α}
    {value : α} (h : (text.map fun s => (s.range? now).map (f s)) = .ok (some value)) :
    ∃ s start finish, text = .ok s ∧ s.range? now = some (start, finish) ∧
      f s (start, finish) = value := by
  obtain ⟨s, hs, hresult⟩ := Outcome.map_eq_ok_iff.1 h
  obtain ⟨⟨start, finish⟩, hrange, hvalue⟩ := Option.map_eq_some_iff.1 hresult
  exact ⟨s, start, finish, hs, hrange, hvalue⟩

/-- A task of a day and a milestone at its noon, none of them in a leap second. -/
theorem range_keepsOrder_iff_noon :
    ∃ s start finish,
      Schedule.ofText "task T,t,,2016-12-31,1D\nmilestone M,m,,2016-12-31T12:00" = .ok s ∧
      s.range? default = some (start, finish) ∧ (∀ t ∈ s.instants, ¬t.InLeapSecond) ∧
      s.instants.map (fun t => t.millisecondsSince start) = [0, 86400000, 43200000] ∧
      s.KeepsOrder start finish := by
  have hok : ((Schedule.ofText "task T,t,,2016-12-31,1D\nmilestone M,m,,2016-12-31T12:00").map
      fun s => (s.range? default).map fun range =>
        (decide (∀ t ∈ s.instants, ¬t.InLeapSecond),
          s.instants.map fun t => t.millisecondsSince range.1)) =
      .ok (some (true, [0, 86400000, 43200000])) := by decide +kernel
  obtain ⟨s, start, finish, hs, hrange, hvalue⟩ := exists_range hok
  obtain ⟨hplain, hoffsets⟩ := Prod.mk.inj hvalue
  have hplain := of_decide_eq_true hplain
  exact ⟨s, start, finish, hs, hrange, hplain, hoffsets, (range_keepsOrder_iff hrange).2.2 hplain⟩

/-- A chart that begins half a second before midnight, inside a leap second, and is as long as a
    millisecond: the milestone at midnight lies half a second before its start. -/
theorem ofText_swaps :
    ∃ s start finish,
      Schedule.ofText
        "milestone A,a,,2016-12-31T23:59:60.5\nmilestone M,m,,2017-01-01\nmilestone B,b,,2017-01-01T00:00:00.5\nmilestone C,c,,2017-01-01T00:00:00.501" =
          .ok s ∧
      s.range? default = some (start, finish) ∧
      s.instants.map (fun t => t.millisecondsSince start) = [0, -500, 0, 1] ∧
      ¬s.KeepsOrder start finish := by
  have hok : ((Schedule.ofText
      "milestone A,a,,2016-12-31T23:59:60.5\nmilestone M,m,,2017-01-01\nmilestone B,b,,2017-01-01T00:00:00.5\nmilestone C,c,,2017-01-01T00:00:00.501").map
        fun s => (s.range? default).map fun range =>
          s.instants.map fun t => t.millisecondsSince range.1) =
      .ok (some [0, -500, 0, 1]) := by decide +kernel
  obtain ⟨s, start, finish, hs, hrange, hoffsets⟩ := exists_range hok
  refine ⟨s, start, finish, hs, hrange, hoffsets, fun horder => ?_⟩
  have hmem : (-500 : Int) ∈ s.instants.map fun t => t.millisecondsSince start := by
    rw [hoffsets]
    decide
  obtain ⟨t, ht, hoffset⟩ := List.mem_map.1 hmem
  have hnonneg := (horder.ordered t ht t ht (Int.le_refl _)).1
  rw [hoffset] at hnonneg
  exact absurd hnonneg (by decide)

end Schedule

end GanttChart
