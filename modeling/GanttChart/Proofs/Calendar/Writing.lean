/-
  Writing instants.

  Every instant can be written so that it is read back.

  1. **Fractions.**  Digits write a part of a second exactly if, filled up with zeros to nine, they are
     its nanoseconds (`IsFraction`).  Without the zeros at their end they are as few as possible
     (`isShortest_shortestFraction`).

  2. **Parts.**  An instant is written with the texts of fields: a year has four digits or a sign, and
     every other number has two digits, since no calendar or clock shows more
     (`exists_parts_of_isWriting`).

  3. **Reading back.**  Parts in a form are read as what they mean, so each writing of an instant is read
     as that instant, whatever blanks surround it (`writings_readBack`).

  Nothing here takes a reader apart.  What is read is known from `ofLiteral?_margins_text` for any parts
  in a form; it is left to find the parts of a writing, and to see that numbers written with leading
  zeros have the values that they were written for.
-/
import GanttChart.Proofs.Calendar.Form
import GanttChart.Proofs.Calendar.Month
import GanttChart.Proofs.Schedule.EndField

namespace GanttChart

open GanttChart.Text GanttChart.Text.Digits

namespace Literal

variable {n : Nat} {digits : List Char}

/-! ## Fractions -/

/-- The digits write a part of a second, given in nanoseconds, exactly. -/
def IsFraction (nanosecond : Nat) (digits : List Char) : Prop :=
  (∀ c ∈ digits, c.isDigit = true) ∧ digits.length ≤ 9 ∧
    value digits * 10 ^ (9 - digits.length) = nanosecond

/-- No fewer digits write it. -/
def IsShortest (nanosecond : Nat) (digits : List Char) : Prop :=
  IsFraction nanosecond digits ∧
    ∀ other, IsFraction nanosecond other → digits.length ≤ other.length

/-- Nanoseconds in nine digits without the zeros at the end. -/
def shortestFraction (nanosecond : Nat) : List Char :=
  (padded 9 nanosecond).rdropWhile fun c => c = '0'

/-- An exact fraction is read as its nanoseconds, for it has nine digits at most. -/
theorem nanoseconds_of_isFraction (h : IsFraction n digits) : nanoseconds digits = n := by
  obtain ⟨-, hlength, hvalue⟩ := h
  rw [nanoseconds, List.take_of_length_le hlength, hvalue]

/-- What is taken off the nine digits are zeros. -/
theorem shortestFraction_append_zeros (nanosecond : Nat) :
    ∃ count, shortestFraction nanosecond ++ List.replicate count '0' = padded 9 nanosecond := by
  have hzeros : ∀ c ∈ (padded 9 nanosecond).rtakeWhile (fun c => c = '0'), c = '0' := by
    intro c hc
    simpa using List.mem_rtakeWhile_imp hc
  refine ⟨((padded 9 nanosecond).rtakeWhile fun c => c = '0').length, ?_⟩
  rw [shortestFraction, ← List.eq_replicate_of_mem hzeros]
  exact List.rdropWhile_append_rtakeWhile

/-- The digits that are left are exact: as many zeros as were taken off are filled up. -/
theorem isFraction_shortestFraction (h : n < 10 ^ 9) : IsFraction n (shortestFraction n) := by
  obtain ⟨count, hzeros⟩ := shortestFraction_append_zeros n
  have hlength : (shortestFraction n).length + count = 9 := by
    rw [← length_padded_of_lt (by decide) h, ← hzeros, List.length_append, List.length_replicate]
  refine ⟨fun c hc => ?_, by omega, ?_⟩
  · exact isDigit_of_mem_padded ((List.rdropWhile_prefix _ _).mem hc)
  · have hcount : 9 - (shortestFraction n).length = count := by omega
    rw [hcount, ← value_append_zeros, hzeros, value_padded]

/-- The digits that are left are as few as possible.  With fewer digits the number would be a
    multiple of ten, so its last digit would be a zero, and none is left at the end. -/
theorem isShortest_shortestFraction (h : n < 10 ^ 9) : IsShortest n (shortestFraction n) := by
  have hshortest := isFraction_shortestFraction h
  refine ⟨hshortest, fun other hother => Nat.le_of_not_lt fun hlt => ?_⟩
  obtain ⟨hdigits, hlength, hvalue⟩ := hshortest
  obtain ⟨-, -, hvalue'⟩ := hother
  have hne : shortestFraction n ≠ [] := List.ne_nil_of_length_pos (by omega)
  -- the other digits, filled up, have more zeros than these
  have hten : 10 ∣ value (shortestFraction n) := by
    obtain ⟨more, hmore⟩ := Nat.exists_eq_add_of_lt hlt
    have hexponent : 9 - other.length = more + 1 + (9 - (shortestFraction n).length) := by omega
    have hpos : 0 < 10 ^ (9 - (shortestFraction n).length) := Nat.pow_pos (by decide)
    have hmul : value (shortestFraction n) = value other * 10 ^ (more + 1) := by
      refine Nat.eq_of_mul_eq_mul_right hpos ?_
      rw [hvalue, Nat.mul_assoc, ← Nat.pow_add, ← hexponent, hvalue']
    rw [hmul, Nat.pow_succ, ← Nat.mul_assoc]
    exact Nat.dvd_mul_left 10 _
  have hlast : (shortestFraction n).getLast hne ≠ '0' := fun hzero =>
    List.rdropWhile_last_not (fun c => decide (c = '0')) (padded 9 n) hne (decide_eq_true hzero)
  rw [← List.dropLast_append_getLast hne] at hten
  exact hlast (eq_zero_of_ten_dvd_value (hdigits _ (List.getLast_mem hne)) hten)

/-- Whole groups of digits are exact, where the rest of the nanoseconds is zero. -/
theorem isFraction_padded {width : Nat} (hwidth : 0 < width) (hle : width ≤ 9) (h : n < 10 ^ 9)
    (hexact : n % 10 ^ (9 - width) = 0) : IsFraction n (padded width (n / 10 ^ (9 - width))) := by
  have hpow : 10 ^ 9 = 10 ^ width * 10 ^ (9 - width) := by
    rw [← Nat.pow_add]
    congr 1
    omega
  have hlt : n / 10 ^ (9 - width) < 10 ^ width := by
    rw [Nat.div_lt_iff_lt_mul (Nat.pow_pos (by decide)), ← hpow]
    exact h
  have hlength := length_padded_of_lt hwidth hlt
  refine ⟨fun _ => isDigit_of_mem_padded, by omega, ?_⟩
  rw [hlength, value_padded]
  exact Nat.div_mul_cancel (Nat.dvd_of_mod_eq_zero hexact)

/-- The groups of three digits that literals are written with are exact. -/
theorem exists_fractionText_eq (h : n < 10 ^ 9) :
    ∃ digits, Instant.fractionText n = pointed digits ∧ IsFraction n digits := by
  have hpointed : ∀ width m, '.' :: padded width m = pointed (padded width m) := by
    intro width m
    obtain ⟨c, later, hc⟩ := List.exists_cons_of_ne_nil (padded_ne_nil width m)
    rw [hc]
    rfl
  unfold Instant.fractionText
  split
  case isTrue hzero =>
    exact ⟨[], rfl, nofun, Nat.zero_le 9, hzero ▸ rfl⟩
  split
  case isTrue hmilli =>
    exact ⟨_, hpointed 3 _, isFraction_padded (by decide) (by decide) h hmilli⟩
  split
  case isTrue hmicro =>
    exact ⟨_, hpointed 6 _, isFraction_padded (by decide) (by decide) h hmicro⟩
  have hnano : IsFraction n (padded 9 (n / 10 ^ (9 - 9))) :=
    isFraction_padded (by decide) (by decide) h (Nat.mod_one n)
  rw [Nat.sub_self, Nat.pow_zero, Nat.div_one] at hnano
  exact ⟨_, hpointed 9 n, hnano⟩

/-! ## Numbers

  A number below a hundred fits two digits, and a year from 0 to 9999 fits four; every other year
  gets a sign, behind which any number of digits is read. -/

/-- A number in two digits. -/
def Field.ofNat (n : Nat) (h : n < 10 ^ 2) : Field where
  margin := []
  digits := padded 2 n
  isBlank_margin := nofun
  isDigit_digits := fun _ => isDigit_of_mem_padded
  length_pos := List.length_pos_iff.2 (padded_ne_nil 2 n)
  length_le := (length_padded_of_lt (by decide) h).le

/-- A number in two digits is written with a leading zero if need be. -/
@[simp] theorem Field.text_ofNat (h : n < 10 ^ 2) : (Field.ofNat n h).text = padded 2 n := rfl

/-- Two digits have the value that they were written for. -/
@[simp] theorem Field.value_ofNat (h : n < 10 ^ 2) : (Field.ofNat n h).value = n := value_padded 2 n

/-- The sign of a year that is not written in four digits. -/
def yearSign (year : Int) : List Char :=
  if year < 0 then ['-'] else if year ≤ 9999 then [] else ['+']

/-- Three ranges of years: those of four digits, later ones, and those before the year 0. -/
theorem yearSign_cases (year : Int) :
    yearSign year = [] ∧ 0 ≤ year ∧ year ≤ 9999 ∨ yearSign year = ['+'] ∧ 9999 < year ∨
      yearSign year = ['-'] ∧ year < 0 := by
  unfold yearSign
  split
  case isTrue hneg => exact .inr (.inr ⟨rfl, hneg⟩)
  split
  · exact .inl ⟨rfl, by omega, by omega⟩
  · exact .inr (.inl ⟨rfl, by omega⟩)

/-- A year, with a sign if it needs one. -/
def YearField.ofInt (year : Int) : YearField where
  sign := yearSign year
  digits := padded 4 year.natAbs
  sign_cases := (yearSign_cases year).imp And.left (.imp And.left And.left)
  isDigit_digits := fun _ => isDigit_of_mem_padded
  length_pos := List.length_pos_iff.2 (padded_ne_nil 4 year.natAbs)

/-- The fields of a year have the text that it is written with. -/
@[simp] theorem YearField.text_ofInt (year : Int) :
    (YearField.ofInt year).text = Instant.yearText year := by
  show yearSign year ++ padded 4 year.natAbs = Instant.yearText year
  unfold yearSign Instant.yearText
  split
  · rfl
  · split <;> rfl

/-- The fields of a year have its value. -/
@[simp] theorem YearField.value_ofInt (year : Int) : (YearField.ofInt year).value = year := by
  show (if yearSign year = ['-'] then -(Digits.value (padded 4 year.natAbs) : Int)
    else Digits.value (padded 4 year.natAbs)) = year
  rw [value_padded]
  rcases yearSign_cases year with ⟨hsign, hyear, -⟩ | ⟨hsign, hyear⟩ | ⟨hsign, hyear⟩
  · rw [hsign, if_neg (by decide)]
    omega
  · rw [hsign, if_neg (by decide)]
    omega
  · rw [hsign, if_pos rfl]
    omega

/-- Without a sign the year has four digits. -/
theorem YearField.length_ofInt (year : Int) (h : (YearField.ofInt year).sign = []) :
    (YearField.ofInt year).digits.length ≤ 4 := by
  refine (length_padded_of_lt (by decide) ?_).le
  rcases yearSign_cases year with ⟨-, hyear⟩ | ⟨hsign, -⟩ | ⟨hsign, -⟩
  · omega
  · cases hsign.symm.trans h
  · cases hsign.symm.trans h

end Literal

/-! ## Dates and times -/

namespace TimeOfDay

variable (time : TimeOfDay)

/-- A clock shows hours to 23. -/
theorem hour_lt : time.hour < 24 := by
  have := time.second_lt
  unfold hour
  omega

/-- A clock shows minutes to 59. -/
theorem minute_lt : time.minute < 60 := Nat.mod_lt _ (by decide)

/-- A clock shows seconds to 59, and 60 in a leap second. -/
theorem clockSecond_le : time.clockSecond ≤ 60 := by
  have := time.nanosecond_lt
  unfold clockSecond
  omega

/-- A fraction of a second has nine digits. -/
theorem fraction_lt : time.fraction < 10 ^ 9 := Nat.mod_lt _ (by decide)

end TimeOfDay

namespace Literal

/-- The parts of a date. -/
def DateParts.ofDate (date : Date) : DateParts where
  year := .ofInt date.year
  month := .ofNat date.month (by have := date.month_bounds; omega)
  day := .ofNat date.day (by
    have hday := date.day_bounds.2
    have hlength := (Year.monthLength_bounds date.inLeapYear date.month).2
    omega)

/-- The parts of a date have the text that it is written with. -/
@[simp] theorem DateParts.text_ofDate (date : Date) :
    (DateParts.ofDate date).text = Instant.dateText date := by
  simp only [DateParts.text, DateParts.ofDate, YearField.text_ofInt, Field.text_ofNat,
    Instant.dateText, List.append_assoc, List.cons_append]

/-- The parts of a date mean it. -/
@[simp] theorem DateParts.date?_ofDate (date : Date) :
    (DateParts.ofDate date).date? = some date := by
  simp only [DateParts.date?, DateParts.ofDate, YearField.value_ofInt, Field.value_ofNat,
    Date.of?_year_month_day]

/-- The hour and the minute that a clock shows, with or without a second. -/
def TimeParts.ofTime (time : TimeOfDay) (seconds : Option Seconds) : TimeParts where
  hour := .ofNat time.hour (Nat.lt_trans time.hour_lt (by decide))
  minute := .ofNat time.minute (Nat.lt_trans time.minute_lt (by decide))
  seconds := seconds

/-- The second that a clock shows, and digits of a fraction. -/
def Seconds.ofTime (time : TimeOfDay) (fraction : List Char)
    (hfraction : ∀ c ∈ fraction, c.isDigit = true) : Seconds where
  field := .ofNat time.clockSecond (Nat.lt_of_le_of_lt time.clockSecond_le (by decide))
  fraction := fraction
  isDigit_fraction := hfraction

/-- With a second and an exact fraction the parts of a time mean it. -/
theorem TimeParts.time?_ofTime_some {time : TimeOfDay} {digits : List Char}
    (h : IsFraction time.fraction digits) :
    (TimeParts.ofTime time (some (.ofTime time digits h.1))).time? = some time := by
  have hclock := time.of?_clock
  rw [← nanoseconds_of_isFraction h] at hclock
  simpa only [TimeParts.time?, TimeParts.ofTime, Seconds.ofTime, Field.value_ofNat] using hclock

/-- At a full minute they mean it without a second. -/
theorem TimeParts.time?_ofTime_none {time : TimeOfDay} (hsecond : time.clockSecond = 0)
    (hfraction : time.fraction = 0) : (TimeParts.ofTime time none).time? = some time := by
  have hclock := time.of?_clock
  rw [hsecond, hfraction] at hclock
  simpa only [TimeParts.time?, TimeParts.ofTime, Field.value_ofNat] using hclock

end Literal

namespace Instant

open Literal

variable {t : Instant} {text : List Char}

/-! ## Writings -/

/-- The hour and the minute. -/
def minuteText (time : TimeOfDay) : List Char :=
  padded 2 time.hour ++ ':' :: padded 2 time.minute

/-- The ways to write an instant: in full with an exact fraction of any length, without seconds at a
    full minute, and without a time at midnight. -/
inductive IsWriting (t : Instant) : List Char → Prop
  | full {separator : Char} {digits : List Char} (hseparator : separator = 'T' ∨ separator = ' ')
      (hfraction : IsFraction t.time.fraction digits) :
      IsWriting t (dateText t.date ++ separator :: (minuteText t.time ++
        ':' :: (padded 2 t.time.clockSecond ++ pointed digits)))
  | minutes {separator : Char} (hseparator : separator = 'T' ∨ separator = ' ')
      (hsecond : t.time.clockSecond = 0) (hfraction : t.time.fraction = 0) :
      IsWriting t (dateText t.date ++ separator :: minuteText t.time)
  | date (hmidnight : t.time = .midnight) : IsWriting t (dateText t.date)

/-- A time behind a date has parts in a local form.  A letter or a single space is a separator
    that follows a day of two digits. -/
theorem exists_parts_of_time {separator : Char} {a : TimeParts}
    (hseparator : separator = 'T' ∨ separator = ' ') (hmargin : a.hour.margin = [])
    (htime : a.time? = some t.time) :
    ∃ p : Parts, p.text = dateText t.date ++ separator :: a.text ∧ p.IsLocal ∧
      p.instant? = some t := by
  have hfollows : (Clock.unzoned [separator] a).Follows (DateParts.ofDate t.date).day := by
    rcases hseparator with rfl | rfl
    · exact .inl rfl
    · -- a space is a blank, and the hour has no margin of its own
      refine .inr (.inr ⟨?_, hmargin, fun hnone => absurd hnone (List.cons_ne_nil ' ' [])⟩)
      intro c hc
      cases List.mem_singleton.1 hc
      rfl
  have hsmall : [separator] ≠ ['t'] := by
    rcases hseparator with rfl | rfl <;> decide
  refine ⟨.dateTime (.ofDate t.date) [separator] a hfollows, ?_,
    Parts.isLocal_dateTime hfollows (YearField.length_ofInt t.date.year) hsmall, ?_⟩
  · rw [Parts.text_dateTime, DateParts.text_ofDate]
    rfl
  · exact Parts.instant?_of_time (DateParts.date?_ofDate t.date) rfl htime rfl

/-- Every writing of an instant has parts that mean it: one case for each way to write. -/
theorem exists_parts_of_isWriting (h : IsWriting t text) :
    ∃ p : Parts, p.text = text ∧ p.IsLocal ∧ p.instant? = some t := by
  cases h with
  | @full separator digits hseparator hfraction =>
    obtain ⟨p, htext, hlocal, hinstant⟩ :=
      exists_parts_of_time hseparator rfl (TimeParts.time?_ofTime_some hfraction)
    refine ⟨p, ?_, hlocal, hinstant⟩
    simp only [htext, TimeParts.text, TimeParts.ofTime, Seconds.textBehind, Seconds.text,
      Seconds.ofTime, Field.text_ofNat, minuteText, List.append_assoc, List.cons_append]
  | minutes hseparator hsecond hfraction =>
    obtain ⟨p, htext, hlocal, hinstant⟩ :=
      exists_parts_of_time hseparator rfl (TimeParts.time?_ofTime_none hsecond hfraction)
    refine ⟨p, ?_, hlocal, hinstant⟩
    simp only [htext, TimeParts.text, TimeParts.ofTime, Seconds.textBehind, Field.text_ofNat,
      minuteText, List.append_nil]
  | date hmidnight =>
    have hmeant := Parts.instant?_dateOnly (DateParts.date?_ofDate t.date)
    rw [atMidnight, ← hmidnight] at hmeant
    refine ⟨.dateOnly (.ofDate t.date), ?_,
      Parts.isLocal_dateOnly (YearField.length_ofInt t.date.year), hmeant⟩
    rw [Parts.text_dateOnly, DateParts.text_ofDate]

/-- The literal of an instant is a writing in full, with a `T` and groups of three digits. -/
theorem isWriting_toLiteral (t : Instant) : IsWriting t t.toLiteral := by
  obtain ⟨digits, htext, hfraction⟩ := exists_fractionText_eq t.time.fraction_lt
  have hliteral : t.toLiteral = dateText t.date ++ 'T' :: (minuteText t.time ++
      ':' :: (padded 2 t.time.clockSecond ++ pointed digits)) := by
    simp only [toLiteral, timeText, minuteText, htext, List.append_assoc, List.cons_append]
  rw [hliteral]
  exact .full (.inl rfl) hfraction

/-- **Every instant can be written.**  Its literal is one of its writings, there is one with the
    shortest exact fraction, and each of them is read back as the instant, whatever blanks
    surround it: a writing has parts in a local form, and parts in a form are read as what they
    mean. -/
theorem writings_readBack (t : Instant) :
    IsWriting t t.toLiteral ∧
    IsShortest t.time.fraction (shortestFraction t.time.fraction) ∧
    ∀ text, IsWriting t text → ∀ before after : List Char, (∀ c ∈ before, isBlank c = true) →
      (∀ c ∈ after, isBlank c = true) → ofLiteral (before ++ text ++ after) = .ok t := by
  refine ⟨t.isWriting_toLiteral, isShortest_shortestFraction t.time.fraction_lt, ?_⟩
  intro text h before after hbefore hafter
  obtain ⟨p, rfl, hlocal, hinstant⟩ := exists_parts_of_isWriting h
  rw [ofLiteral_eq_ok_iff, ofLiteral?_margins_text (.inl hlocal) hbefore hafter, hinstant]

/-- The middle of a leap second in a year of five digits. -/
def lateLeapSecond : Instant :=
  ⟨⟨3669591, by decide, by decide⟩, ⟨86399, 1500000000, by decide, by decide, by decide⟩⟩

/-- A writing with a signed year, a leap second, the shortest fraction and blanks around it. -/
theorem writings_readBack_lateLeapSecond :
    ofLiteral (['\t'] ++ "+12016-12-31 23:59:60.5".toList ++ [' ']) = .ok lateLeapSecond := by
  have hfraction : IsFraction lateLeapSecond.time.fraction ['5'] :=
    ⟨List.all_eq_true.1 rfl, by decide, by decide⟩
  have htext : "+12016-12-31 23:59:60.5".toList = dateText lateLeapSecond.date ++
      ' ' :: (minuteText lateLeapSecond.time ++
        ':' :: (padded 2 lateLeapSecond.time.clockSecond ++ pointed ['5'])) := by decide
  rw [htext]
  exact (writings_readBack lateLeapSecond).2.2 _ (.full (.inr rfl) hfraction) ['\t'] [' ']
    (List.all_eq_true.1 rfl) (List.all_eq_true.1 rfl)

end Instant

end GanttChart
