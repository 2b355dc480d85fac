/-
  Instants: a date and a time of day, without a time zone.

  1. **Times of day.**  A time is the number of whole seconds since midnight and the nanoseconds since
     then.  A leap second is written `:60` and kept as the second before it with a further 10 ^ 9
     nanoseconds; it may stand at the end of any minute, and nowhere else.

  2. **Order.**  Instants are ordered by date, second and nanosecond.  Since a nanosecond count stays
     below 2 * 10 ^ 9, one integer (`Instant.key`) carries this order.

  3. **Differences.**  `millisecondsSince` is the time from one instant to another in whole
     milliseconds, cut toward zero; a leap second counts if the two times of day lie on different
     sides of it.

  4. **Movements.**  `addNanoseconds?` moves an instant.  Leap seconds are not known to the calendar,
     so an instant inside one either stays inside it or leaves it at the end it moves toward.
     `addMonths?` moves by calendar months and lets a day past the end of the target month spill into
     the next month.  Every movement answers `none` when it leaves the calendar.
-/
import GanttChart.Calendar.Date

namespace GanttChart

/-! ## Times of day -/

/-- A time of day, to the nanosecond. -/
structure TimeOfDay where
  second : Nat
  nanosecond : Nat
  second_lt : second < 86400
  nanosecond_lt : nanosecond < 2000000000
  leap_at_minute : 1000000000 ≤ nanosecond → second % 60 = 59
  deriving DecidableEq

namespace TimeOfDay

/-- The first instant of a day. -/
def midnight : TimeOfDay := ⟨0, 0, by decide, by decide, by decide⟩

instance : Inhabited TimeOfDay := ⟨midnight⟩

/-- The time of a second of the day and a nanosecond, if it is one. -/
def ofSecond? (second nanosecond : Nat) : Option TimeOfDay :=
  if h : second < 86400 ∧ nanosecond < 2000000000 ∧
      (1000000000 ≤ nanosecond → second % 60 = 59) then
    some ⟨second, nanosecond, h.1, h.2.1, h.2.2⟩
  else none

/-- The time that a clock shows; its second may be 60, for a leap second. -/
def of? (hour minute second nanosecond : Nat) : Option TimeOfDay :=
  if 24 ≤ hour ∨ 60 ≤ minute ∨ 60 < second ∨ 1000000000 ≤ nanosecond then none
  else if second = 60 then ofSecond? (hour * 3600 + minute * 60 + 59) (nanosecond + 1000000000)
  else ofSecond? (hour * 3600 + minute * 60 + second) nanosecond

/-- The hour, from 0 to 23. -/
def hour (time : TimeOfDay) : Nat := time.second / 3600

/-- The minute of the hour. -/
def minute (time : TimeOfDay) : Nat := time.second / 60 % 60

/-- The second of the minute as a clock shows it, 60 in a leap second. -/
def clockSecond (time : TimeOfDay) : Nat := time.second % 60 + time.nanosecond / 1000000000

/-- The nanoseconds after the second that a clock shows. -/
def fraction (time : TimeOfDay) : Nat := time.nanosecond % 1000000000

/-- What a clock shows determines the time. -/
theorem of?_clock (time : TimeOfDay) :
    of? time.hour time.minute time.clockSecond time.fraction = some time := by
  have hs := time.second_lt
  have hn := time.nanosecond_lt
  have hl := time.leap_at_minute
  have hbound : ¬(24 ≤ time.hour ∨ 60 ≤ time.minute ∨ 60 < time.clockSecond ∨
      1000000000 ≤ time.fraction) := by
    unfold hour minute clockSecond fraction
    by_cases h : 1000000000 ≤ time.nanosecond
    · have := hl h
      omega
    · omega
  -- A leap second shows as second 60, and its nanoseconds are past a second.
  rw [of?, if_neg hbound]
  by_cases h : 1000000000 ≤ time.nanosecond
  · have h59 := hl h
    have h60 : time.clockSecond = 60 := by
      unfold clockSecond
      omega
    have hsec : time.hour * 3600 + time.minute * 60 + 59 = time.second := by
      unfold hour minute
      omega
    have hnano : time.fraction + 1000000000 = time.nanosecond := by
      unfold fraction
      omega
    rw [if_pos h60, hsec, hnano, ofSecond?, dif_pos ⟨hs, hn, hl⟩]
  · have h60 : ¬time.clockSecond = 60 := by
      unfold clockSecond
      omega
    have hsec : time.hour * 3600 + time.minute * 60 + time.clockSecond = time.second := by
      unfold hour minute clockSecond
      omega
    have hnano : time.fraction = time.nanosecond := by
      unfold fraction
      omega
    rw [if_neg h60, hsec, hnano, ofSecond?, dif_pos ⟨hs, hn, hl⟩]

end TimeOfDay

/-! ## Instants -/

/-- A date and a time of day. -/
structure Instant where
  date : Date
  time : TimeOfDay
  deriving DecidableEq, Inhabited

namespace Instant

/-- The first instant of a day. -/
def atMidnight (date : Date) : Instant := ⟨date, .midnight⟩

/-! ### Order -/

/-- A number that grows with the instant. -/
def key (t : Instant) : Int :=
  (t.date.number * 86400 + t.time.second) * 2000000000 + t.time.nanosecond

instance : LT Instant := ⟨fun a b => a.key < b.key⟩

instance : LE Instant := ⟨fun a b => a.key ≤ b.key⟩

instance (a b : Instant) : Decidable (a < b) := inferInstanceAs (Decidable (a.key < b.key))

instance (a b : Instant) : Decidable (a ≤ b) := inferInstanceAs (Decidable (a.key ≤ b.key))

instance : Min Instant := ⟨fun a b => if a ≤ b then a else b⟩

instance : Max Instant := ⟨fun a b => if a ≤ b then b else a⟩

/-- Instants with the same key are the same. -/
theorem key_injective {a b : Instant} (h : a.key = b.key) : a = b := by
  obtain ⟨⟨d, hd₁, hd₂⟩, ⟨s, n, hs, hn, hl⟩⟩ := a
  obtain ⟨⟨d', hd₁', hd₂'⟩, ⟨s', n', hs', hn', hl'⟩⟩ := b
  simp only [key] at h
  have h₁ : d = d' := by omega
  have h₂ : s = s' := by omega
  have h₃ : n = n' := by omega
  subst h₁ h₂ h₃
  rfl

/-! ### Time between instants -/

/-- Whole seconds since the epoch, a leap second counting as the second before it. -/
def timestamp (t : Instant) : Int := t.date.number * 86400 + t.time.second

/-- Whole milliseconds since the epoch. -/
def timestampMilliseconds (t : Instant) : Int := t.timestamp * 1000 + t.time.nanosecond / 1000000

/-- The seconds that a leap second adds between two times of day. -/
def leapBetween (later earlier : TimeOfDay) : Int :=
  if earlier.second < later.second ∧ 1000000000 ≤ earlier.nanosecond then 1
  else if later.second < earlier.second ∧ 1000000000 ≤ later.nanosecond then -1
  else 0

/-- The nanoseconds from `earlier` to `later`. -/
def nanosecondsSince (later earlier : Instant) : Int :=
  (later.timestamp - earlier.timestamp + leapBetween later.time earlier.time) * 1000000000 +
    ((later.time.nanosecond : Int) - earlier.time.nanosecond)

/-- The whole milliseconds from `earlier` to `later`, cut toward zero. -/
def millisecondsSince (later earlier : Instant) : Int :=
  (nanosecondsSince later earlier).tdiv 1000000

/-! ### Moving -/

/-- The instant of a day number with any counts of seconds and nanoseconds, carried over. -/
def carry? (day second nanosecond : Int) : Option Instant :=
  let whole := second + nanosecond / 1000000000
  (Date.ofNumber? (day + whole / 86400)).map fun date =>
    ⟨date, ⟨(whole % 86400).toNat, (nanosecond % 1000000000).toNat, by omega, by omega, by omega⟩⟩

/-- The instant `delta` nanoseconds later. -/
def addNanoseconds? (t : Instant) (delta : Int) : Option Instant :=
  let seconds := delta.tdiv 1000000000
  let part := delta.tmod 1000000000
  if leap : 1000000000 ≤ t.time.nanosecond then
    if ahead : 0 < seconds ∨ (0 < part ∧ 2000000000 - part ≤ t.time.nanosecond) then
      carry? t.date.number (t.time.second + seconds) (t.time.nanosecond - 1000000000 + part)
    else if seconds < 0 then
      carry? t.date.number (t.time.second + 1 + seconds) (t.time.nanosecond - 1000000000 + part)
    else
      some ⟨t.date, ⟨t.time.second, (t.time.nanosecond + part).toNat, t.time.second_lt,
        by have := t.time.nanosecond_lt; omega, fun _ => t.time.leap_at_minute leap⟩⟩
  else carry? t.date.number (t.time.second + seconds) (t.time.nanosecond + part)

/-- The instant `delta` milliseconds later. -/
def addMilliseconds? (t : Instant) (delta : Int) : Option Instant :=
  t.addNanoseconds? (delta * 1000000)

/--
  The instant `delta` minutes later on the clock.  Minutes are whole, so the second of the minute
  stays, a leap second included.
-/
def addMinutes? (t : Instant) (delta : Int) : Option Instant :=
  let whole := (t.time.second : Int) + delta * 60
  (Date.ofNumber? (t.date.number + whole / 86400)).map fun date =>
    ⟨date, ⟨(whole % 86400).toNat, t.time.nanosecond, by omega, t.time.nanosecond_lt,
      fun leap => by have := t.time.leap_at_minute leap; omega⟩⟩

/-- The same time of day as many days later. -/
def addDays? (t : Instant) (days : Int) : Option Instant :=
  (Date.ofNumber? (t.date.number + days)).map fun date => ⟨date, t.time⟩

/-- The instant `months` calendar months later; a day that the month lacks spills over. -/
def addMonths? (t : Instant) (months : Int) : Option Instant := do
  let total := t.date.year * 12 + (t.date.month - 1 : Nat) + months
  let first ← Date.of? (total / 12) (total % 12 + 1).toNat 1
  addDays? ⟨first, t.time⟩ (t.date.day - 1 : Nat)

end Instant

end GanttChart
