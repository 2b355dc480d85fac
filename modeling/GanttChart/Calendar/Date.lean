/-
  Dates of a bounded calendar, the Gregorian one.

  1. **Years**, extended to all integers.  Days are numbered from 1970-01-01, day 0.  `Year.start` is
     the number of a year's first day in closed form; `Year.ofDay` goes back by an estimate from the
     mean length of a year, which is off by at most one year, and a correction.  `Year.ofDay_bounds`
     says that the two agree: every day lies between the start of its year and the start of the next.
     Inside a year a day is counted from 0, and `monthStart` and `monthOf` relate this count to the
     months, which are numbered from 1.

  2. **Dates.**  A date is the number of its day and lies in the years from -262143 to 262142.  Year,
     month and day are read off the number; `Date.of?` goes the other way and accepts exactly the
     days that exist (`of?_year_month_day`).
-/
namespace GanttChart

/-! ## Years -/

namespace Year

/-- Every fourth year is a leap year, but of the full centuries only every fourth. -/
def isLeap (year : Int) : Bool := year % 4 == 0 && (year % 100 != 0 || year % 400 == 0)

/-- The number of the first day of a year. -/
def start (year : Int) : Int :=
  365 * (year - 1) + (year - 1) / 4 - (year - 1) / 100 + (year - 1) / 400 - 719162

/-- The year that a day lies in. -/
def ofDay (day : Int) : Int :=
  let estimate := 400 * (day + 719162) / 146097 + 1
  if day < start estimate then estimate - 1
  else if start (estimate + 1) ≤ day then estimate + 1
  else estimate

/-- A year has 366 days if it is a leap year, and else 365. -/
theorem start_succ (year : Int) :
    start (year + 1) = start year + (if isLeap year then 366 else 365) := by
  have h : isLeap year = true ↔ year % 4 = 0 ∧ (year % 100 ≠ 0 ∨ year % 400 = 0) := by
    simp [isLeap]
  have hs : start (year + 1) - start year =
      if year % 4 = 0 ∧ (year % 100 ≠ 0 ∨ year % 400 = 0) then 366 else 365 := by
    unfold start
    split <;> omega
  simp only [h]
  omega

/-- A day lies in its year: the estimate is off by one year at most, and the correction finds the
    right one. -/
theorem ofDay_bounds (day : Int) : start (ofDay day) ≤ day ∧ day < start (ofDay day + 1) := by
  unfold ofDay
  dsimp only
  split
  · unfold start at *
    omega
  · split
    · unfold start at *
      omega
    · unfold start at *
      omega

/-! ### Months -/

/-- One more for the days after February in a leap year. -/
def leapDay (leap : Bool) : Nat := if leap then 1 else 0

/-- The length of a year, with the leap day counted apart. -/
theorem start_succ_eq (year : Int) : start (year + 1) = start year + 365 + leapDay (isLeap year) := by
  rw [start_succ]
  cases isLeap year with
  | true => exact (Int.add_assoc _ 365 1).symm
  | false => exact (Int.add_zero _).symm

/-- The days of a year before its month `month`. -/
def monthStart (leap : Bool) (month : Nat) : Nat :=
  if month ≤ 2 then 31 * (month - 1) else (153 * month - 457) / 5 + 59 + leapDay leap

/-- The days of a month. -/
def monthLength (leap : Bool) (month : Nat) : Nat :=
  if month = 2 then 28 + leapDay leap
  else if month = 4 ∨ month = 6 ∨ month = 9 ∨ month = 11 then 30
  else 31

/-- The month that the day number `day` of a year lies in. -/
def monthOf (leap : Bool) (day : Nat) : Nat :=
  if day < 31 then 1
  else if day < 59 + leapDay leap then 2
  else (5 * (day - 59 - leapDay leap) + 2) / 153 + 3

/-- A month begins where the one before it ends. -/
theorem monthStart_succ (leap : Bool) {month : Nat} (h : 1 ≤ month) (h' : month ≤ 12) :
    monthStart leap (month + 1) = monthStart leap month + monthLength leap month := by
  have : ∀ l : Bool, ∀ m : Fin 13, 1 ≤ m.val →
      monthStart l (m.val + 1) = monthStart l m.val + monthLength l m.val := by decide
  exact this leap ⟨month, by omega⟩ h

/-- Months are numbered from 1. -/
theorem monthOf_pos (leap : Bool) (day : Nat) : 1 ≤ monthOf leap day := by
  unfold monthOf
  split
  · omega
  · split <;> omega

/-- A day of the year is in one of its twelve months. -/
theorem monthOf_le {leap : Bool} {day : Nat} (h : day < 365 + leapDay leap) :
    monthOf leap day ≤ 12 := by
  unfold monthOf
  split
  · omega
  · split <;> omega

/-- A day is not before the first of its month. -/
theorem monthStart_monthOf_le (leap : Bool) (day : Nat) :
    monthStart leap (monthOf leap day) ≤ day := by
  cases leap <;> simp only [monthOf, monthStart, leapDay] <;> (repeat' split) <;> omega

/-- And before the first of the next one. -/
theorem lt_monthStart_monthOf_succ (leap : Bool) (day : Nat) :
    day < monthStart leap (monthOf leap day + 1) := by
  cases leap <;> simp only [monthOf, monthStart, leapDay] <;> (repeat' split) <;> omega

end Year

/-! ## Dates -/

/-- A day from -262143-01-01 to +262142-12-31, numbered from 1970-01-01. -/
structure Date where
  number : Int
  first_le : Year.start (-262143) ≤ number
  lt_end : number < Year.start 262143
  deriving DecidableEq

namespace Date

/-- 1970-01-01. -/
def epoch : Date := ⟨0, by decide, by decide⟩

instance : Inhabited Date := ⟨epoch⟩

/-- The date of a day number in the calendar's range. -/
def ofNumber? (number : Int) : Option Date :=
  if h : Year.start (-262143) ≤ number ∧ number < Year.start 262143 then
    some ⟨number, h.1, h.2⟩
  else none

/-- The year. -/
def year (date : Date) : Int := Year.ofDay date.number

/-- The year has a 29 February. -/
def inLeapYear (date : Date) : Bool := Year.isLeap date.year

/-- The number of days of the year that are over. -/
def dayOfYear (date : Date) : Nat := (date.number - Year.start date.year).toNat

/-- The month, from 1. -/
def month (date : Date) : Nat := Year.monthOf date.inLeapYear date.dayOfYear

/-- The day of the month, from 1. -/
def day (date : Date) : Nat := date.dayOfYear - Year.monthStart date.inLeapYear date.month + 1

/-- The date of a year, a month and a day, if there is such a day. -/
def of? (year : Int) (month day : Nat) : Option Date :=
  let leap := Year.isLeap year
  if 1 ≤ month ∧ month ≤ 12 ∧ 1 ≤ day ∧ day ≤ Year.monthLength leap month then
    ofNumber? (Year.start year + Year.monthStart leap month + (day - 1 : Nat))
  else none

/-- The number of a date gives the date back. -/
theorem ofNumber?_number (date : Date) : ofNumber? date.number = some date := by
  simp [ofNumber?, date.first_le, date.lt_end]

/-- A number gives the date whose number it is. -/
theorem ofNumber?_eq_some_iff {number : Int} {date : Date} :
    ofNumber? number = some date ↔ date.number = number := by
  constructor
  · intro h
    unfold ofNumber? at h
    split at h
    · cases h
      rfl
    · cases h
  · rintro rfl
    exact date.ofNumber?_number

/-- And none outside the range of the calendar. -/
theorem ofNumber?_eq_none_iff {number : Int} :
    ofNumber? number = none ↔ ¬(Year.start (-262143) ≤ number ∧ number < Year.start 262143) := by
  unfold ofNumber?
  split
  · rename_i h
    simp [h]
  · rename_i h
    simp [h]

/-- A date is the first day of its year and the days of the year that are over. -/
theorem start_add_dayOfYear (date : Date) :
    Year.start date.year + date.dayOfYear = date.number := by
  have := (Year.ofDay_bounds date.number).1
  unfold dayOfYear year
  omega

/-- At most 365 days of a year are over, and 364 without a leap day. -/
theorem dayOfYear_lt (date : Date) : date.dayOfYear < 365 + Year.leapDay date.inLeapYear := by
  have hsum := date.start_add_dayOfYear
  have hlt : date.number < Year.start (date.year + 1) := (Year.ofDay_bounds date.number).2
  rw [Year.start_succ_eq] at hlt
  show date.dayOfYear < 365 + Year.leapDay (Year.isLeap date.year)
  omega

/-- Months are numbered from 1 to 12. -/
theorem month_bounds (date : Date) : 1 ≤ date.month ∧ date.month ≤ 12 :=
  ⟨Year.monthOf_pos _ _, Year.monthOf_le date.dayOfYear_lt⟩

/-- The days before a date's month are over. -/
theorem monthStart_le_dayOfYear (date : Date) :
    Year.monthStart date.inLeapYear date.month ≤ date.dayOfYear :=
  Year.monthStart_monthOf_le _ _

/-- The day of the month is one that the month has. -/
theorem day_bounds (date : Date) :
    1 ≤ date.day ∧ date.day ≤ Year.monthLength date.inLeapYear date.month := by
  obtain ⟨hmonth, hmonth'⟩ := date.month_bounds
  have hstart := date.monthStart_le_dayOfYear
  have hend : date.dayOfYear < Year.monthStart date.inLeapYear (date.month + 1) :=
    Year.lt_monthStart_monthOf_succ _ _
  rw [Year.monthStart_succ _ hmonth hmonth'] at hend
  unfold day
  omega

/-- A date is the first day of its month and the days of the month that are over. -/
theorem number_eq (date : Date) :
    Year.start date.year + Year.monthStart date.inLeapYear date.month + ((date.day - 1 : Nat) : Int) =
      date.number := by
  have hsum := date.start_add_dayOfYear
  have hstart := date.monthStart_le_dayOfYear
  unfold day
  omega

/-- Year, month and day determine the date. -/
theorem of?_year_month_day (date : Date) : of? date.year date.month date.day = some date := by
  obtain ⟨hmonth, hmonth'⟩ := date.month_bounds
  obtain ⟨hday, hday'⟩ := date.day_bounds
  unfold of?
  show (if 1 ≤ date.month ∧ date.month ≤ 12 ∧ 1 ≤ date.day ∧
      date.day ≤ Year.monthLength date.inLeapYear date.month then
    ofNumber? (Year.start date.year + Year.monthStart date.inLeapYear date.month +
      ((date.day - 1 : Nat) : Int)) else none) = some date
  rw [if_pos ⟨hmonth, hmonth', hday, hday'⟩, date.number_eq]
  exact date.ofNumber?_number

/-! ### Weeks -/

/-- The day of the week, Monday being 0. -/
def weekday (date : Date) : Nat := ((date.number + 3) % 7).toNat

/-- The number of the Thursday in the same week, which decides the week's year. -/
def thursday (date : Date) : Int := date.number - date.weekday + 3

/-- The year that the date's week belongs to: the one with most of its days. -/
def weekYear (date : Date) : Int := Year.ofDay date.thursday

/-- The week of that year, from 1. -/
def weekOfYear (date : Date) : Nat :=
  ((date.thursday - Year.start date.weekYear) / 7).toNat + 1

/-- How many times a weekday has begun in the year so far, Monday being 0. -/
def weeksSince (date : Date) (weekday : Nat) : Nat :=
  (date.dayOfYear + 7 - (date.weekday + 7 - weekday) % 7) / 7

example : (of? 2024 2 29).map (fun d => (d.number, d.year, d.month, d.day)) =
    some (19782, 2024, 2, 29) := by decide

example : (of? 2021 1 3).map (fun d => (d.weekday, d.weekYear, d.weekOfYear)) =
    some (6, 2020, 53) := by decide

example : of? 2023 2 29 = none ∧ of? 262143 1 1 = none := by decide

end Date

end GanttChart
