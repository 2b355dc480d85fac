/-
  Calendar months.

  1. **Years.**  Years follow each other without gaps, so a day is in the year around it, and the years
     of the calendar are those from -262143 to 262142 (`Year.within_iff`).

  2. **Months.**  Counted from January of year 0, months follow each other as well: `monthNumber` is the
     first day of each and grows by the length of the month (`monthNumber_succ`).  Even 31 days from
     its start a month leads no further than to the end of the year (`monthNumber_within`).

  3. **Dates.**  A date is a month and a day of it (`Date.number_eq_monthNumber`); on the days that
     every month has, it is no other ones (`Date.of_number_eq`).

  4. **Moving.**  Moving by months goes as many days into another month (`addMonths?_eq_some_iff`).  What
     follows from that is put together in `addMonths?_isMonthMove`.

  With months on one line of integers, a move is a sum: the year and the month of the target never have
  to be computed, and division by twelve occurs only where they are compared with the calendar.
-/
import GanttChart.Calendar.Instant
import Mathlib.Algebra.Order.Group.Int
import Mathlib.Order.SuccPred.Archimedean

namespace GanttChart

/-! ## Years -/

namespace Year

/-- Years begin in their order. -/
theorem start_lt_start_iff {a b : Int} : start a < start b ↔ a < b := by
  have hmono : StrictMono start := strictMono_int_of_lt_succ fun year => by
    rw [start_succ_eq]
    omega
  exact hmono.lt_iff_lt

/-- The same for years that may be equal. -/
theorem start_le_start_iff {a b : Int} : start a ≤ start b ↔ a ≤ b := by
  rw [← Int.not_lt, start_lt_start_iff, Int.not_lt]

/-- A month has 28 to 31 days. -/
theorem monthLength_bounds (leap : Bool) (month : Nat) :
    28 ≤ monthLength leap month ∧ monthLength leap month ≤ 31 := by
  unfold monthLength leapDay
  repeat' split
  all_goals omega

end Year

/-- The year is among those of the calendar. -/
def InCalendar (year : Int) : Prop := -262143 ≤ year ∧ year ≤ 262142

/-- The days of the calendar are those of its years, since a year begins when the one before it
    ends. -/
theorem Year.within_iff {year day : Int} (h : start year ≤ day ∧ day < start (year + 1)) :
    (start (-262143) ≤ day ∧ day < start 262143) ↔ InCalendar year := by
  show _ ↔ -262143 ≤ year ∧ year ≤ 262142
  constructor
  · rintro ⟨hfirst, hlast⟩
    have hlow : -262143 < year + 1 := start_lt_start_iff.1 (by omega)
    have hhigh : year < 262143 := start_lt_start_iff.1 (by omega)
    omega
  · rintro ⟨hfirst, hlast⟩
    have hlow : start (-262143) ≤ start year := start_le_start_iff.2 hfirst
    have hhigh : start (year + 1) ≤ start 262143 := start_le_start_iff.2 (by omega)
    omega

/-! ## Months

  An index is `12 * year + (month - 1)`.  The lemmas of this section are stated at such an index,
  with the month from 1 to 12, and every index is of this shape (`exists_year_month`). -/

/-- The number of the first day of a month, where months are counted from January of year 0. -/
def monthNumber (index : Int) : Int :=
  Year.start (index / 12) +
    Year.monthStart (Year.isLeap (index / 12)) (index % 12 + 1).toNat

/-- Every month is one of a year, from 1 to 12. -/
theorem exists_year_month (index : Int) :
    ∃ (year : Int) (month : Nat), 1 ≤ month ∧ month ≤ 12 ∧ index = 12 * year + (month - 1) :=
  ⟨index / 12, (index % 12 + 1).toNat, by omega, by omega, by omega⟩

section YearMonth

variable {year : Int} {month : Nat} (h : 1 ≤ month) (h' : month ≤ 12)

include h h'

/-- The first day of a month, by its year and number. -/
theorem monthNumber_eq :
    monthNumber (12 * year + (month - 1)) =
      Year.start year + Year.monthStart (Year.isLeap year) month := by
  have hyear : (12 * year + ((month : Int) - 1)) / 12 = year := by omega
  have hmonth : ((12 * year + ((month : Int) - 1)) % 12 + 1).toNat = month := by omega
  rw [monthNumber, hyear, hmonth]

/-- **Months follow each other** without gaps, from one year to the next as well. -/
theorem monthNumber_succ :
    monthNumber (12 * year + (month - 1) + 1) =
      monthNumber (12 * year + (month - 1)) + Year.monthLength (Year.isLeap year) month := by
  have hlength := Year.monthStart_succ (Year.isLeap year) h h'
  rcases Nat.lt_or_eq_of_le h' with hlt | rfl
  · -- the next month is one of the same year
    have hnext : 12 * year + ((month : Int) - 1) + 1 = 12 * year + ((month + 1 : Nat) - 1) := by
      omega
    rw [hnext, monthNumber_eq (by omega) (by omega), monthNumber_eq h h', hlength]
    omega
  · -- after December comes January of the next year
    have hnext : 12 * year + ((12 : Nat) - 1 : Int) + 1 = 12 * (year + 1) + ((1 : Nat) - 1) := by
      omega
    have hyear : Year.monthStart (Year.isLeap year) (12 + 1) =
        365 + Year.leapDay (Year.isLeap year) := by
      cases Year.isLeap year <;> rfl
    have hfirst : Year.monthStart (Year.isLeap (year + 1)) 1 = 0 := rfl
    rw [hnext, monthNumber_eq (by omega) (by omega), monthNumber_eq h h', Year.start_succ_eq, hfirst]
    omega

/-- Thirty more days lead from the start of a month no further than to the end of its year. -/
theorem monthNumber_within :
    Year.start year ≤ monthNumber (12 * year + (month - 1)) ∧
      monthNumber (12 * year + (month - 1)) + 30 < Year.start (year + 1) := by
  have hdays : ∀ leap : Bool, ∀ m : Fin 13,
      Year.monthStart leap m.val + 31 ≤ 365 + Year.leapDay leap := by decide
  have hmonth := hdays (Year.isLeap year) ⟨month, by omega⟩
  rw [monthNumber_eq h h', Year.start_succ_eq]
  dsimp only at hmonth
  omega

end YearMonth

/-- Every month has at least 28 days. -/
theorem monthNumber_add_le (index : Int) : monthNumber index + 28 ≤ monthNumber (index + 1) := by
  obtain ⟨year, month, h, h', rfl⟩ := exists_year_month index
  have := Year.monthLength_bounds (Year.isLeap year) month
  rw [monthNumber_succ h h']
  omega

/-- Months begin in their order. -/
theorem monthNumber_lt_iff {a b : Int} : monthNumber a < monthNumber b ↔ a < b := by
  have hmono : StrictMono monthNumber := strictMono_int_of_lt_succ fun index => by
    have := monthNumber_add_le index
    omega
  exact hmono.lt_iff_lt

/-! ## Dates -/

namespace Date

variable (date : Date)

/-- The month of a date, counted from January of year 0. -/
def monthIndex : Int := 12 * date.year + (date.month - 1)

/-- **A date is a month and a day of it.** -/
theorem number_eq_monthNumber :
    date.number = monthNumber date.monthIndex + (date.day - 1 : Nat) := by
  obtain ⟨h, h'⟩ := date.month_bounds
  rw [monthIndex, monthNumber_eq h h']
  exact date.number_eq.symm

/-- No day of a month is past the 31st. -/
theorem day_le : date.day ≤ 31 := by
  have hday := date.day_bounds
  have hlength := Year.monthLength_bounds date.inLeapYear date.month
  omega

/-- A date is in its month. -/
theorem monthNumber_bounds :
    monthNumber date.monthIndex ≤ date.number ∧
      date.number < monthNumber (date.monthIndex + 1) := by
  obtain ⟨h, h'⟩ := date.month_bounds
  have hnumber := date.number_eq_monthNumber
  have hday := date.day_bounds
  have hnext : monthNumber (date.monthIndex + 1) =
      monthNumber date.monthIndex + Year.monthLength date.inLeapYear date.month :=
    monthNumber_succ h h'
  omega

variable {date}

/-- Days that every month has are dates of the month: a day number from the start of a month,
    less than 28 days on, lies before the next month. -/
theorem of_number_eq {index : Int} {day : Nat} (hday : day < 28)
    (h : date.number = monthNumber index + day) :
    date.monthIndex = index ∧ date.day = day + 1 := by
  have hlength := monthNumber_add_le index
  obtain ⟨hlow, hhigh⟩ := date.monthNumber_bounds
  have hindex : date.monthIndex = index := by
    have hlt : date.monthIndex < index + 1 := monthNumber_lt_iff.1 (by omega)
    have hgt : index < date.monthIndex + 1 := monthNumber_lt_iff.1 (by omega)
    omega
  have hnumber := date.number_eq_monthNumber
  have hpos := date.day_bounds
  rw [hindex] at hnumber
  omega

/-- The year is read off the index of the month. -/
theorem year_eq_monthIndex : date.year = date.monthIndex / 12 := by
  have h := date.month_bounds
  show date.year = (12 * date.year + ((date.month : Int) - 1)) / 12
  omega

/-- So is the number of the month. -/
theorem month_eq_monthIndex : (date.month : Int) = date.monthIndex % 12 + 1 := by
  have h := date.month_bounds
  show (date.month : Int) = (12 * date.year + ((date.month : Int) - 1)) % 12 + 1
  omega

/-- Up to 31 days from the start of a month are dates exactly if the calendar has its year: such
    a day is still in the year, even if it has left the month. -/
theorem ofNumber?_monthNumber_eq_none_iff {index : Int} {days : Nat} (hdays : days < 31) :
    ofNumber? (monthNumber index + days) = none ↔ ¬InCalendar (index / 12) := by
  obtain ⟨year, month, h, h', rfl⟩ := exists_year_month index
  obtain ⟨hlow, hhigh⟩ := @monthNumber_within year month h h'
  have hyear : (12 * year + ((month : Int) - 1)) / 12 = year := by omega
  rw [hyear, ofNumber?_eq_none_iff, @Year.within_iff year _ ⟨by omega, by omega⟩]

/-- With a day of a month the calendar has the first of it. -/
theorem exists_first {index : Int} {days : Nat} (hdays : days < 31)
    (h : date.number = monthNumber index + days) : ofNumber? (monthNumber index) ≠ none := by
  have hdate : ofNumber? (monthNumber index + days) ≠ none := by
    rw [← h, date.ofNumber?_number]
    exact Option.some_ne_none date
  rw [ne_eq, ofNumber?_monthNumber_eq_none_iff hdays] at hdate
  rwa [← Int.add_zero (monthNumber index), ne_eq, ← Int.natCast_zero,
    ofNumber?_monthNumber_eq_none_iff (by omega)]

/-- The first day of a month is found by its year and its number. -/
theorem of?_first (index : Int) :
    of? (index / 12) (index % 12 + 1).toNat 1 = ofNumber? (monthNumber index) := by
  have hlength := Year.monthLength_bounds (Year.isLeap (index / 12)) (index % 12 + 1).toNat
  have hday : 1 ≤ (index % 12 + 1).toNat ∧ (index % 12 + 1).toNat ≤ 12 ∧ 1 ≤ 1 ∧
      1 ≤ Year.monthLength (Year.isLeap (index / 12)) (index % 12 + 1).toNat := by omega
  unfold of? monthNumber
  dsimp only
  rw [if_pos hday, Nat.sub_self, Int.natCast_zero, Int.add_zero]

end Date

/-! ## Moving -/

namespace Instant

/-- A move is one step on the line of months: the first day of the target month is a date
    whenever the day that is reached is one. -/
theorem addMonths?_eq (t : Instant) (n : Int) :
    t.addMonths? n =
      (Date.ofNumber? (monthNumber (t.date.monthIndex + n) + (t.date.day - 1 : Nat))).map
        fun date => ⟨date, t.time⟩ := by
  have hindex : t.date.year * 12 + ((t.date.month - 1 : Nat) : Int) + n = t.date.monthIndex + n := by
    have h := t.date.month_bounds
    show _ = 12 * t.date.year + ((t.date.month : Int) - 1) + n
    omega
  have hday := t.date.day_le
  rw [addMonths?, hindex, Date.of?_first]
  cases hfirst : Date.ofNumber? (monthNumber (t.date.monthIndex + n)) with
  | none =>
    -- without the first day there is none behind it
    cases hdate : Date.ofNumber? (monthNumber (t.date.monthIndex + n) + (t.date.day - 1 : Nat)) with
    | none => rfl
    | some date =>
      exact absurd hfirst (Date.exists_first (by omega) (Date.ofNumber?_eq_some_iff.1 hdate))
  | some first =>
    rw [← Date.ofNumber?_eq_some_iff.1 hfirst]
    rfl

/-- Moving by months goes as many days into the target month as the instant is into its own. -/
theorem addMonths?_eq_some_iff {t s : Instant} {n : Int} :
    t.addMonths? n = some s ↔
      s.time = t.time ∧
        s.date.number = monthNumber (t.date.monthIndex + n) + (t.date.day - 1 : Nat) := by
  rw [addMonths?_eq, Option.map_eq_some_iff]
  constructor
  · rintro ⟨date, hdate, rfl⟩
    exact ⟨rfl, Date.ofNumber?_eq_some_iff.1 hdate⟩
  · rintro ⟨htime, hnumber⟩
    exact ⟨s.date, Date.ofNumber?_eq_some_iff.2 hnumber, by rw [← htime]⟩

/-- Moving fails only where the calendar has no year for the target month: the days that spill
    over never leave it.  They reach the third day of the next month at most, and December has 31
    days, so none of them passes the end of the year. -/
theorem isSome_addMonths?_iff (t : Instant) (n : Int) :
    (t.addMonths? n).isSome = true ↔ InCalendar ((t.date.monthIndex + n) / 12) := by
  have hday := t.date.day_le
  rw [addMonths?_eq, Option.isSome_map, ← not_iff_not, Bool.not_eq_true, Option.isSome_eq_false_iff,
    Option.isNone_iff_eq_none, Date.ofNumber?_monthNumber_eq_none_iff (by omega)]

/-- The first day of the target month is a date, and the days are counted from there. -/
theorem exists_first_of_addMonths? {t s : Instant} {n : Int} (h : t.addMonths? n = some s) :
    ∃ first : Date, first.year = (t.date.monthIndex + n) / 12 ∧
      (first.month : Int) = (t.date.monthIndex + n) % 12 + 1 ∧ first.day = 1 ∧
      s.date.number = first.number + (t.date.day - 1 : Nat) := by
  obtain ⟨_, hnumber⟩ := addMonths?_eq_some_iff.1 h
  have hday := t.date.day_le
  obtain ⟨first, hfirst⟩ := Option.ne_none_iff_exists'.1 (Date.exists_first (by omega) hnumber)
  have hfirst := Date.ofNumber?_eq_some_iff.1 hfirst
  have hzero : first.number = monthNumber (t.date.monthIndex + n) + (0 : Nat) := by omega
  obtain ⟨hindex, hone⟩ := Date.of_number_eq (by omega) hzero
  refine ⟨first, ?_, ?_, hone, ?_⟩
  · rw [first.year_eq_monthIndex, hindex]
  · rw [first.month_eq_monthIndex, hindex]
  · rw [hnumber, hfirst]

/-- More months lead further: the targets begin at least 28 days apart, and both days are equally
    far into them. -/
theorem addMonths?_lt {t a b : Instant} {m n : Int} (hmn : m < n) (ha : t.addMonths? m = some a)
    (hb : t.addMonths? n = some b) : a < b := by
  obtain ⟨htime, hnumber⟩ := addMonths?_eq_some_iff.1 ha
  obtain ⟨htime', hnumber'⟩ := addMonths?_eq_some_iff.1 hb
  have hfirst := monthNumber_lt_iff.2 (Int.add_lt_add_left hmn t.date.monthIndex)
  show (a.date.number * 86400 + a.time.second) * 2000000000 + a.time.nanosecond <
    (b.date.number * 86400 + b.time.second) * 2000000000 + b.time.nanosecond
  rw [htime, htime']
  omega

/-- No months are no move. -/
theorem addMonths?_zero (t : Instant) : t.addMonths? 0 = some t := by
  rw [addMonths?_eq_some_iff, Int.add_zero]
  exact ⟨rfl, t.date.number_eq_monthNumber⟩

/-- On a day that every month has, two moves are one: the day is kept. -/
theorem addMonths?_add {t a b : Instant} {m n : Int} (hday : t.date.day ≤ 28)
    (ha : t.addMonths? m = some a) (hb : a.addMonths? n = some b) :
    t.addMonths? (m + n) = some b := by
  obtain ⟨htime, hnumber⟩ := addMonths?_eq_some_iff.1 ha
  obtain ⟨htime', hnumber'⟩ := addMonths?_eq_some_iff.1 hb
  obtain ⟨hindex, hday'⟩ := Date.of_number_eq (by omega) hnumber
  refine addMonths?_eq_some_iff.2 ⟨htime'.trans htime, ?_⟩
  rw [hnumber', hindex, hday', Int.add_assoc, Nat.add_sub_cancel]

/-- What moving by calendar months is like. -/
structure IsMonthMove (move : Instant → Int → Option Instant) : Prop where
  /-- It fails only where the target month is in no year of the calendar. -/
  isSome_iff : ∀ t n, (move t n).isSome = true ↔ InCalendar ((t.date.monthIndex + n) / 12)
  /-- It keeps the time of day, and goes to the first day of the target month and on from there by the
      days of the month that are over. -/
  target : ∀ t n s, move t n = some s → s.time = t.time ∧
    ∃ first : Date, first.year = (t.date.monthIndex + n) / 12 ∧
      (first.month : Int) = (t.date.monthIndex + n) % 12 + 1 ∧ first.day = 1 ∧
      s.date.number = first.number + (t.date.day - 1 : Nat)
  /-- More months lead to a later instant. -/
  increasing : ∀ t m n a b, m < n → move t m = some a → move t n = some b → a < b
  /-- No months lead nowhere. -/
  zero : ∀ t, move t 0 = some t
  /-- On days that every month has, two moves are one. -/
  add : ∀ t, t.date.day ≤ 28 → ∀ m n a b, move t m = some a → move a n = some b →
    move t (m + n) = some b

/-- **Moving by months is a month move**: it is defined on the calendar's years only, goes to the
    same day of the target month with overflow into the next, keeps the time of day, is strictly
    increasing, and is additive on the days that every month has. -/
theorem addMonths?_isMonthMove : IsMonthMove Instant.addMonths? where
  isSome_iff := isSome_addMonths?_iff
  target := by
    intro t n s h
    exact ⟨(addMonths?_eq_some_iff.1 h).1, exists_first_of_addMonths? h⟩
  increasing := by
    intro t m n a b hmn ha hb
    exact addMonths?_lt hmn ha hb
  zero := addMonths?_zero
  add := by
    intro t hday m n a b ha hb
    exact addMonths?_add hday ha hb

/-- The 31st of January spills over February. -/
example : ((Date.of? 2024 1 31).bind fun date => (atMidnight date).addMonths? 1) =
    (Date.of? 2024 3 2).map atMidnight := by decide

end Instant

end GanttChart
