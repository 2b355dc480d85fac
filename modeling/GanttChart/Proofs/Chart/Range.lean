/-
  The range of a chart.

  1. **A day later.**  A day after an instant is the next date at the same second, and within that
     second a leap second is no longer counted (`Instant.of_addMilliseconds?_day`).  So from the
     instant to the day after it there is a day, or up to a second less.

  2. **Widening.**  Leap seconds change the time between two instants by a second at most.  An extent
     that counts as no millisecond therefore ends within seconds of its start, and the day that
     takes its place covers it (`Instant.le_dayAfter`).

  3. **The divisor.**  Rounding makes no number but zero to zero, so a length that is not zero is not
     zero as a divisor (`Binary64.ofInt_ne_signedZero`).

  `Schedule.range_isRange` puts this together for all schedules.
-/
import GanttChart.Proofs.Chart.Span

namespace GanttChart

/-! ## A day later -/

namespace Instant

/-- Counts that are carried over: the day, the second of it and the nanosecond. -/
theorem of_carry? {day second nanosecond : Int} {t : Instant}
    (h : carry? day second nanosecond = some t) :
    t.date.number = day + (second + nanosecond / 1000000000) / 86400 ∧
      (t.time.second : Int) = (second + nanosecond / 1000000000) % 86400 ∧
      (t.time.nanosecond : Int) = nanosecond % 1000000000 := by
  obtain ⟨date, hdate, rfl⟩ := Option.map_eq_some_iff.1 h
  exact ⟨Date.ofNumber?_eq_some_iff.1 hdate, Int.toNat_of_nonneg (Int.emod_nonneg _ (by decide)),
    Int.toNat_of_nonneg (Int.emod_nonneg _ (by decide))⟩

/-- The next date at the same second, without the leap second. -/
theorem of_addMilliseconds?_day {t later : Instant} (h : t.addMilliseconds? 86400000 = some later) :
    later.date.number = t.date.number + 1 ∧ later.time.second = t.time.second ∧
      later.time.nanosecond = t.time.nanosecond % 1000000000 := by
  have hsecond := t.time.second_lt
  have hnano := t.time.nanosecond_lt
  have hseconds : (86400000 * 1000000 : Int).tdiv 1000000000 = 86400 := by decide
  have hpart : (86400000 * 1000000 : Int).tmod 1000000000 = 0 := by decide
  unfold addMilliseconds? addNanoseconds? at h
  simp only [hseconds, hpart] at h
  split at h
  · -- inside a leap second the day moves the instant out of it
    rw [dif_pos (.inl (by decide))] at h
    obtain ⟨hdate, hsecond', hnano'⟩ := of_carry? h
    omega
  · obtain ⟨hdate, hsecond', hnano'⟩ := of_carry? h
    omega

end Instant

/-! ## Widening -/

namespace Instant

/-- At most one leap second is counted between two times of day, in either direction. -/
theorem leapBetween_bounds (later earlier : TimeOfDay) :
    -1 ≤ leapBetween later earlier ∧ leapBetween later earlier ≤ 1 := by
  unfold leapBetween
  split
  · decide
  · split
    · decide
    · decide

/-- A day is as long as a day, or shorter by the part of a leap second that is over. -/
theorem le_millisecondsSince_day {t later : Instant} (h : t.addMilliseconds? 86400000 = some later) :
    86399000 ≤ later.millisecondsSince t := by
  obtain ⟨hdate, hsecond, hnano⟩ := of_addMilliseconds?_day h
  have hlt := t.time.nanosecond_lt
  have hleap : leapBetween later.time t.time = 0 := by
    unfold leapBetween
    rw [hsecond, if_neg (by omega), if_neg (by omega)]
  have hle : (86399000 * 1000000 : Int) ≤ later.nanosecondsSince t := by
    unfold nanosecondsSince timestamp
    rw [hleap, hdate, hsecond, hnano]
    omega
  calc (86399000 : Int) = (86399000 * 1000000 : Int).tdiv 1000000 := by decide
    _ ≤ later.millisecondsSince t := Int.tdiv_le_tdiv (by decide) hle

/-- An instant of an earlier second comes earlier. -/
theorem le_of_timestamp_lt {a b : Instant} (h : a.timestamp < b.timestamp) : a ≤ b := by
  have ha := a.time.nanosecond_lt
  unfold timestamp at h
  rw [le_iff, key, key]
  omega

/-- What is no millisecond after an instant comes before the day after it. -/
theorem le_dayAfter {first last next : Instant} (hzero : last.millisecondsSince first = 0)
    (hday : first.addMilliseconds? 86400000 = some next) : last ≤ next := by
  obtain ⟨_, hshort⟩ := millisecondsSince_eq_zero_iff.1 hzero
  obtain ⟨hdate, hsecond, _⟩ := of_addMilliseconds?_day hday
  have hleap := leapBetween_bounds last.time first.time
  have hfirst := first.time.nanosecond_lt
  -- a leap second on either side, and the rest of a second: three seconds are room enough
  have hseconds : last.timestamp ≤ first.timestamp + 3 := by
    unfold nanosecondsSince at hshort
    omega
  apply le_of_timestamp_lt
  have hnext : next.timestamp = first.timestamp + 86400 := by
    unfold timestamp
    rw [hdate, hsecond]
    omega
  omega

end Instant

/-! ## The divisor -/

namespace Binary64

/-- The last place of a number is no larger than the number. -/
theorem lastPlace_le {n : Nat} (h : n ≠ 0) : lastPlace n ≤ n := by
  rw [lastPlace, Nat.one_shiftLeft]
  calc 2 ^ (n.log2 - 52) ≤ 2 ^ n.log2 := Nat.pow_le_pow_right (by decide) (Nat.sub_le _ _)
    _ ≤ n := Nat.log2_self_le h

/-- A whole number of quanta is at least one last place, and rounds to at least one. -/
theorem nearest_one_pos {n : Nat} (h : n ≠ 0) : 0 < nearest n 1 := by
  have hplace := lastPlace_pos n
  have hquotient : 1 ≤ n / lastPlace n := (Nat.one_le_div_iff hplace).2 (lastPlace_le h)
  have hrounded := le_divHalfEven n (lastPlace n)
  unfold nearest
  rw [Nat.div_one]
  dsimp only
  rw [Nat.one_mul]
  exact Nat.mul_pos (by omega) hplace

/-- **No integer but zero is zero as a number.** -/
theorem ofInt_ne_signedZero {n : Int} (h : n ≠ 0) (negative : Bool) : ofInt n ≠ signedZero negative := by
  have hquanta : n.natAbs * unit ≠ 0 :=
    Nat.mul_ne_zero (Int.natAbs_ne_zero.2 h) (Nat.ne_of_gt unit_pos)
  have hpos := nearest_one_pos hquanta
  unfold ofInt rounded signedZero
  split
  · intro hzero
    injection hzero with _ hnone
    omega
  · intro hzero
    cases hzero

end Binary64

/-! ## The range -/

namespace Schedule

/-- A range that a chart spans. -/
structure IsRange (s : Schedule) (now start finish : Instant) : Prop where
  /-- It leads from the earliest instant to the latest, and from now to now if there are none; but if
      that is less than a millisecond, to a day after its start. -/
  ends : ∃ last, IsSpan now s.instants start last ∧
    if last.millisecondsSince start = 0 then start.addMilliseconds? 86400000 = some finish
    else finish = last
  /-- No start and no end of an item is outside. -/
  covers : ∀ t ∈ s.instants, start ≤ t ∧ t ≤ finish
  length_ne_zero : finish.millisecondsSince start ≠ 0
  /-- A scale of the range does not divide by zero. -/
  divisor_ne_zero : ∀ (config : Config) (negative : Bool),
    Binary64.ofInt (Scale.ofSpan config start finish).length ≠ .signedZero negative

variable {s : Schedule} {now start finish : Instant}

/-- The range is the extent, or a day from its start if the extent counts no millisecond. -/
theorem range?_eq_some_iff :
    s.range? now = some (start, finish) ↔
      ∃ last, IsSpan now s.instants start last ∧
        if last.millisecondsSince start = 0 then start.addMilliseconds? 86400000 = some finish
        else finish = last := by
  obtain ⟨⟨first, last⟩, hspan⟩ : ∃ span, extent now s.instants = span := ⟨_, rfl⟩
  simp only [range?, isSpan_iff, hspan, Prod.mk.injEq]
  constructor
  · intro h
    split at h
    · rename_i hzero
      obtain ⟨next, hnext, hpair⟩ := Option.map_eq_some_iff.1 h
      cases hpair
      exact ⟨last, ⟨rfl, rfl⟩, by rwa [if_pos hzero]⟩
    · rename_i hlong
      cases h
      exact ⟨finish, ⟨rfl, rfl⟩, by rw [if_neg hlong]⟩
  · rintro ⟨_, ⟨rfl, rfl⟩, h⟩
    split at h
    · rename_i hzero
      rw [if_pos hzero, h]
      rfl
    · rename_i hlong
      rw [if_neg hlong, h]

/-- **The range is the only one.**  What the ends are is read off the definition; that they cover
    all instants, and that the length is not zero, follows from them. -/
theorem isRange_iff : s.IsRange now start finish ↔ s.range? now = some (start, finish) := by
  rw [range?_eq_some_iff]
  refine ⟨IsRange.ends, fun h => ?_⟩
  obtain ⟨last, hspan, hfinish⟩ := id h
  have hcovers : ∀ t ∈ s.instants, start ≤ t ∧ t ≤ last := by
    rcases hspan with ⟨hnone, _, _⟩ | ⟨_, _, hall⟩
    · simp [hnone]
    · exact hall
  -- an extent that is not widened covers by definition, and its length is what was tested
  have hrange : (∀ t ∈ s.instants, start ≤ t ∧ t ≤ finish) ∧
      finish.millisecondsSince start ≠ 0 := by
    split at hfinish
    · -- the day after the start ends behind the last instant
      rename_i hzero
      have hlast := Instant.le_dayAfter hzero hfinish
      have hlength := Instant.le_millisecondsSince_day hfinish
      refine ⟨fun t ht => ⟨(hcovers t ht).1, Int.le_trans (hcovers t ht).2 hlast⟩, ?_⟩
      omega
    · rename_i hlong
      rw [hfinish]
      exact ⟨hcovers, hlong⟩
  exact {
    ends := h
    covers := hrange.1
    length_ne_zero := hrange.2
    divisor_ne_zero := fun _ => Binary64.ofInt_ne_signedZero hrange.2 }

end Schedule

end GanttChart
