/-
  Labels: instants written by a pattern.

  `Item.text?` is the text of one item, and `label?` joins the texts of a pattern.  A label fails
  only if the pattern asks for a time zone (`label?_eq_none_iff`).

  Years outside 0 to 9999 are written with a sign.  A century is taken modulo 256, and a number of
  tens past nine is written as the character that many places after the digit zero, so two
  places always suffice.
-/
import GanttChart.Calendar.Literal
import GanttChart.Calendar.Pattern

namespace GanttChart.Pattern

open GanttChart.Text

/-! ## Numbers -/

/-- A natural brought to a width. -/
def natText (padding : Padding) (width n : Nat) : List Char :=
  match padding with
  | .none => Digits.ofNat n
  | .zero => Digits.padded width n
  | .space => Digits.padLeft ' ' width (Digits.ofNat n)

/-- A number below 256 in two places. -/
def twoPlaces (padding : Padding) (n : Nat) : List Char :=
  let tens :=
    if n / 10 = 0 then
      match padding with
      | .none => []
      | .zero => ['0']
      | .space => [' ']
    else [Char.ofNat (48 + n / 10)]
  tens ++ Digits.ofNat (n % 10)

/-- A sign and a natural brought to a width that counts the sign. -/
def signedText (padding : Padding) (width : Nat) (sign : Char) (n : Nat) : List Char :=
  match padding with
  | .none => sign :: Digits.ofNat n
  | .zero => sign :: Digits.padded (width - 1) n
  | .space => Digits.padLeft ' ' width (sign :: Digits.ofNat n)

/-- A year of four digits, signed if it has more or is before year 0. -/
def yearText (padding : Padding) (year : Int) : List Char :=
  if year < 0 then signedText padding 5 '-' year.natAbs
  else if year ≤ 9999 then natText padding 4 year.natAbs
  else signedText padding 5 '+' year.natAbs

/-- A count of seconds, signed only if it is negative. -/
def timestampText (padding : Padding) (seconds : Int) : List Char :=
  if seconds < 0 then signedText padding 9 '-' seconds.natAbs
  else natText padding 9 seconds.natAbs

/-- The hour on a dial of twelve. -/
def dialHour (time : TimeOfDay) : Nat := if time.hour % 12 = 0 then 12 else time.hour % 12

/-- The text of a numeric field. -/
def Quantity.text (t : Instant) (padding : Padding) : Quantity → List Char
  | .year => yearText padding t.date.year
  | .century => twoPlaces padding (t.date.year / 100 % 256).toNat
  | .yearOfCentury => twoPlaces padding (t.date.year % 100).toNat
  | .weekYear => yearText padding t.date.weekYear
  | .weekYearOfCentury => twoPlaces padding (t.date.weekYear % 100).toNat
  | .quarter => Digits.ofNat ((t.date.month - 1) / 3 + 1)
  | .month => twoPlaces padding t.date.month
  | .day => twoPlaces padding t.date.day
  | .dayOfYear => natText padding 3 (t.date.dayOfYear + 1)
  | .weekFromSunday => twoPlaces padding (t.date.weeksSince 6)
  | .weekFromMonday => twoPlaces padding (t.date.weeksSince 0)
  | .weekOfYear => twoPlaces padding t.date.weekOfYear
  | .weekdayFromSunday => Digits.ofNat ((t.date.weekday + 1) % 7)
  | .weekdayFromMonday => Digits.ofNat (t.date.weekday + 1)
  | .hour => twoPlaces padding t.time.hour
  | .hourOfTwelve => twoPlaces padding (dialHour t.time)
  | .minute => twoPlaces padding t.time.minute
  | .second => twoPlaces padding t.time.clockSecond
  | .nanosecond => natText padding 9 t.time.fraction
  | .timestamp => timestampText padding t.timestamp

/-! ## Words -/

/-- The months in order. -/
def monthNames : List String :=
  ["January", "February", "March", "April", "May", "June", "July", "August", "September",
    "October", "November", "December"]

/-- The days of the week from Monday. -/
def weekdayNames : List String :=
  ["Monday", "Tuesday", "Wednesday", "Thursday", "Friday", "Saturday", "Sunday"]

/-- The name of the month. -/
def monthName (date : Date) : List Char := (monthNames.getD (date.month - 1) "").toList

/-- The name of the day of the week. -/
def weekdayName (date : Date) : List Char := (weekdayNames.getD date.weekday "").toList

/-- The text of a field written as a word; short names have three letters. -/
def Name.text (t : Instant) : Name → List Char
  | .month => monthName t.date
  | .monthShort => (monthName t.date).take 3
  | .weekday => weekdayName t.date
  | .weekdayShort => (weekdayName t.date).take 3
  | .meridiem => if t.time.hour < 12 then "AM".toList else "PM".toList
  | .meridiemSmall => if t.time.hour < 12 then "am".toList else "pm".toList

/-- The text of a part of a second; a fixed count of digits cuts off the others. -/
def Fraction.text (nanosecond : Nat) : Fraction → List Char
  | .shortest => Instant.fractionText nanosecond
  | .digits pointed count =>
    (if pointed then ['.'] else []) ++ Digits.padded count (nanosecond / Nat.pow 10 (9 - count))

/-! ## Labels -/

/-- The text of an item, if an instant has what it shows. -/
def Item.text? (t : Instant) : Item → Option (List Char)
  | .literal c => some [c]
  | .quantity q padding => some (q.text t padding)
  | .name n => some (n.text t)
  | .fraction f => some (f.text t.time.fraction)
  | .zone => none

/-- The instant written by a pattern. -/
def label? (t : Instant) : List Item → Option (List Char)
  | [] => some []
  | item :: items => do return (← item.text? t) ++ (← label? t items)

theorem Item.text?_eq_none_iff {t : Instant} {item : Item} :
    item.text? t = none ↔ item = .zone := by
  cases item <;> simp [Item.text?]

/-- A label fails exactly if its pattern asks for a time zone. -/
theorem label?_eq_none_iff {t : Instant} {items : List Item} :
    label? t items = none ↔ .zone ∈ items := by
  induction items with
  | nil => simp [label?]
  | cons item items ih =>
    cases h : item.text? t with
    | none =>
      have := Item.text?_eq_none_iff.1 h
      simp [label?, this, Item.text?]
    | some text =>
      have hz : item ≠ .zone := fun hz => by simp [Item.text?_eq_none_iff.2 hz] at h
      cases h' : label? t items with
      | none => simp [label?, h, h', ih.1 h']
      | some rest =>
        have : .zone ∉ items := fun hm => by simp [ih.2 hm] at h'
        simp [label?, h, h', hz.symm, this]

end GanttChart.Pattern
