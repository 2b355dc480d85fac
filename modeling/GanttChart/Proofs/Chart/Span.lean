/-
  The span of a chart.

  1. **Extent.**  The extent of some instants is the earliest and the latest of them, and now twice if
     there are none.  Instants are ordered by one integer, so the extent is the only such pair
     (`Schedule.isSpan_iff`).

  2. **A day later.**  A day after an instant is in the calendar unless the instant is on its last day,
     whether or not it is inside a leap second (`Instant.addMilliseconds?_day_eq_none_iff`).

  3. **Widening.**  A span that is shorter than a millisecond is widened to a day, so there is no span
     exactly if the extent is that short and on the last day (`Schedule.range?_eq_none_iff`).  A leap
     second may let the time between two instants come out negative, but then the later one is on the
     next day, and the earlier one not on the last.
-/
import GanttChart.Chart.Scale

namespace GanttChart

/-! ## Extent -/

namespace Instant

/-- Instants are ordered by their keys. -/
theorem le_iff {a b : Instant} : a ≤ b ↔ a.key ≤ b.key := Iff.rfl

/-- Two instants that are not later than each other are one. -/
theorem le_antisymm {a b : Instant} (h : a ≤ b) (h' : b ≤ a) : a = b :=
  key_injective (Int.le_antisymm h h')

/-- The earlier of two is not later than the first. -/
theorem min_le_left (a b : Instant) : min a b ≤ a := by
  show (if a ≤ b then a else b).key ≤ a.key
  split
  · exact Int.le_refl _
  · rename_i h
    rw [le_iff] at h
    omega

/-- Nor than the second. -/
theorem min_le_right (a b : Instant) : min a b ≤ b := by
  show (if a ≤ b then a else b).key ≤ b.key
  split
  · rename_i h
    exact h
  · exact Int.le_refl _

/-- The earlier of two is one of them. -/
theorem min_eq_or (a b : Instant) : min a b = a ∨ min a b = b := by
  show (if a ≤ b then a else b) = a ∨ (if a ≤ b then a else b) = b
  split
  · exact .inl rfl
  · exact .inr rfl

/-- The later of two is not earlier than the first. -/
theorem le_max_left (a b : Instant) : a ≤ max a b := by
  show a.key ≤ (if a ≤ b then b else a).key
  split
  · rename_i h
    exact h
  · exact Int.le_refl _

/-- Nor than the second. -/
theorem le_max_right (a b : Instant) : b ≤ max a b := by
  show b.key ≤ (if a ≤ b then b else a).key
  split
  · exact Int.le_refl _
  · rename_i h
    rw [le_iff] at h
    omega

/-- The later of two is one of them. -/
theorem max_eq_or (a b : Instant) : max a b = a ∨ max a b = b := by
  show (if a ≤ b then b else a) = a ∨ (if a ≤ b then b else a) = b
  split
  · exact .inr rfl
  · exact .inl rfl

end Instant

namespace Schedule

/-- The earliest and the latest of some instants, and now if there are none. -/
def IsSpan (now : Instant) (instants : List Instant) (first last : Instant) : Prop :=
  (instants = [] ∧ first = now ∧ last = now) ∨
    (first ∈ instants ∧ last ∈ instants ∧ ∀ t ∈ instants, first ≤ t ∧ t ≤ last)

/-- Widening a span by further instants: its ends are old or new, and it covers all of them. -/
theorem foldl_span (rest : List Instant) (span : Instant × Instant) :
    let wide := rest.foldl (fun span t => (min t span.1, max t span.2)) span
    (wide.1 = span.1 ∨ wide.1 ∈ rest) ∧ (wide.2 = span.2 ∨ wide.2 ∈ rest) ∧
      wide.1 ≤ span.1 ∧ span.2 ≤ wide.2 ∧ ∀ t ∈ rest, wide.1 ≤ t ∧ t ≤ wide.2 := by
  induction rest generalizing span with
  | nil => exact ⟨.inl rfl, .inl rfl, Int.le_refl _, Int.le_refl _, by simp⟩
  | cons t rest ih =>
    -- the rest widens the span that has taken in `t`, and so covers `t` and the old span
    obtain ⟨hfirst, hlast, hlow, hhigh, hall⟩ := ih (min t span.1, max t span.2)
    rw [List.foldl_cons]
    refine ⟨?_, ?_, Int.le_trans hlow (Instant.min_le_right t span.1),
      Int.le_trans (Instant.le_max_right t span.2) hhigh, ?_⟩
    · rcases hfirst with hfirst | hfirst
      · rw [hfirst]
        exact (Instant.min_eq_or t span.1).symm.imp id fun h => List.mem_cons.2 (.inl h)
      · exact .inr (List.mem_cons_of_mem t hfirst)
    · rcases hlast with hlast | hlast
      · rw [hlast]
        exact (Instant.max_eq_or t span.2).symm.imp id fun h => List.mem_cons.2 (.inl h)
      · exact .inr (List.mem_cons_of_mem t hlast)
    · intro u hu
      rcases List.mem_cons.1 hu with rfl | hu
      · exact ⟨Int.le_trans hlow (Instant.min_le_left u span.1),
          Int.le_trans (Instant.le_max_left u span.2) hhigh⟩
      · exact hall u hu

/-- The extent is a span: it is found by widening the first instant by all the others. -/
theorem isSpan_extent (now : Instant) (instants : List Instant) :
    IsSpan now instants (extent now instants).1 (extent now instants).2 := by
  cases instants with
  | nil => exact .inl ⟨rfl, rfl, rfl⟩
  | cons first rest =>
    obtain ⟨hfirst, hlast, hlow, hhigh, hall⟩ := foldl_span rest (first, first)
    refine .inr ⟨List.mem_cons.2 hfirst, List.mem_cons.2 hlast, ?_⟩
    intro t ht
    rcases List.mem_cons.1 ht with rfl | ht
    · exact ⟨hlow, hhigh⟩
    · exact hall t ht

/-- **The extent is the only span.** -/
theorem isSpan_iff {now : Instant} {instants : List Instant} {first last : Instant} :
    IsSpan now instants first last ↔ extent now instants = (first, last) := by
  constructor
  · intro h
    rcases h with ⟨rfl, rfl, rfl⟩ | ⟨hfirst, hlast, hall⟩
    · rfl
    · rcases isSpan_extent now instants with ⟨rfl, _, _⟩ | ⟨hfirst', hlast', hall'⟩
      · cases hfirst
      · exact Prod.ext
          (Instant.le_antisymm (hall' first hfirst).1 (hall _ hfirst').1)
          (Instant.le_antisymm (hall _ hlast').2 (hall' last hlast).2)
  · intro h
    have hspan := isSpan_extent now instants
    rwa [h] at hspan

end Schedule

/-! ## A day later -/

namespace Instant

/-- Only the date can be missing when counts are carried over. -/
theorem carry?_eq_none_iff {day second nanosecond : Int} :
    carry? day second nanosecond = none ↔
      Date.ofNumber? (day + (second + nanosecond / 1000000000) / 86400) = none := by
  unfold carry?
  exact Option.map_eq_none_iff

/-- **A day after an instant** is missing exactly if the next day is. -/
theorem addMilliseconds?_day_eq_none_iff (t : Instant) :
    t.addMilliseconds? 86400000 = none ↔ Date.ofNumber? (t.date.number + 1) = none := by
  have hsecond := t.time.second_lt
  have hnano := t.time.nanosecond_lt
  show t.addNanoseconds? (86400 * 1000000000) = none ↔ _
  unfold addNanoseconds?
  have hseconds : ((86400 * 1000000000 : Int).tdiv 1000000000) = 86400 := by decide
  have hpart : ((86400 * 1000000000 : Int).tmod 1000000000) = 0 := by decide
  simp only [hseconds, hpart]
  split
  · -- inside a leap second the day moves the instant out of it
    rename_i hleap
    rw [dif_pos (.inl (by decide)), carry?_eq_none_iff]
    have hday : ((t.time.second : Int) + 86400 + (t.time.nanosecond - 1000000000 + 0) / 1000000000) /
        86400 = 1 := by omega
    rw [hday]
  · rw [carry?_eq_none_iff]
    have hday : ((t.time.second : Int) + 86400 + (t.time.nanosecond + 0) / 1000000000) / 86400 =
        1 := by omega
    rw [hday]

/-- A later instant is on the same day unless it is on a later one. -/
theorem date_eq_of_le {earlier later : Instant} (h : earlier ≤ later)
    (hdate : later.date.number ≤ earlier.date.number) : later.date = earlier.date := by
  have hearlier := earlier.time.second_lt
  have hlater := later.time.second_lt
  have hnano := later.time.nanosecond_lt
  rw [le_iff, key, key] at h
  have hnumber : later.date.number = earlier.date.number := by omega
  cases hl : later.date
  cases he : earlier.date
  simp only [hl, he] at hnumber
  subst hnumber
  rfl

/-- On one day no leap second turns the time back. -/
theorem nanosecondsSince_nonneg {later earlier : Instant} (hdate : later.date = earlier.date)
    (h : earlier ≤ later) : 0 ≤ later.nanosecondsSince earlier := by
  have hlater := later.time.nanosecond_lt
  have hearlier := earlier.time.nanosecond_lt
  rw [le_iff, key, key, hdate] at h
  unfold nanosecondsSince timestamp leapBetween
  rw [hdate]
  split
  · omega
  · split
    · omega
    · omega

/-- A time of less than a millisecond is no millisecond, unless it runs backward. -/
theorem millisecondsSince_eq_zero_iff {later earlier : Instant} :
    later.millisecondsSince earlier = 0 ↔
      -1000000 < later.nanosecondsSince earlier ∧ later.nanosecondsSince earlier < 1000000 := by
  unfold millisecondsSince
  generalize later.nanosecondsSince earlier = n
  rcases Int.le_total 0 n with hn | hn
  · rw [Int.tdiv_eq_ediv_of_nonneg hn]
    omega
  · obtain ⟨m, rfl⟩ : ∃ m, n = -m := ⟨-n, by omega⟩
    rw [Int.neg_tdiv, Int.tdiv_eq_ediv_of_nonneg (by omega)]
    omega

end Instant

/-! ## Widening -/

namespace Date

/-- After a day that no day follows there is no date. -/
theorem number_le_of_ofNumber?_succ {date : Date} (h : ofNumber? (date.number + 1) = none)
    (other : Date) : other.number ≤ date.number := by
  have hfirst := date.first_le
  have hother := other.lt_end
  rw [ofNumber?_eq_none_iff] at h
  omega

end Date

namespace Schedule

/-- The extent does not lead backward. -/
theorem extent_le (now : Instant) (instants : List Instant) :
    (extent now instants).1 ≤ (extent now instants).2 := by
  rcases isSpan_extent now instants with ⟨_, hfirst, hlast⟩ | ⟨hfirst, _, hall⟩
  · rw [hfirst, hlast]
    exact Int.le_refl _
  · exact (hall _ hfirst).2

/-- **A chart has no span** exactly if that of its instants is shorter than a millisecond and no day
    follows its start. -/
theorem range?_eq_none_iff {s : Schedule} {now : Instant} :
    s.range? now = none ↔
      ∃ first last, IsSpan now s.instants first last ∧ last.nanosecondsSince first < 1000000 ∧
        first.addMilliseconds? 86400000 = none := by
  obtain ⟨⟨first, last⟩, hspan⟩ : ∃ span, extent now s.instants = span := ⟨_, rfl⟩
  have hle : first ≤ last := by
    have h := extent_le now s.instants
    rwa [hspan] at h
  simp only [range?, isSpan_iff, hspan]
  constructor
  · intro h
    refine ⟨first, last, rfl, ?_⟩
    split at h
    · rename_i hzero
      exact ⟨(Instant.millisecondsSince_eq_zero_iff.1 hzero).2, Option.map_eq_none_iff.1 h⟩
    · cases h
  · rintro ⟨_, _, ⟨rfl, rfl⟩, hshort, hday⟩
    -- no day follows, so both ends are on the last one and the time between them is not negative
    have hnext := (Instant.addMilliseconds?_day_eq_none_iff first).1 hday
    have hdate : last.date = first.date :=
      Instant.date_eq_of_le hle (Date.number_le_of_ofNumber?_succ hnext last.date)
    have hnonneg := Instant.nanosecondsSince_nonneg hdate hle
    rw [if_pos (Instant.millisecondsSince_eq_zero_iff.2 ⟨by omega, hshort⟩), hday]
    rfl

end Schedule

end GanttChart
