/-
  Date and time literals.

  Reading (`Instant.ofLiteral?`) tries six forms in turn on a literal without the blanks around
  it, and each has to use it up:

  1. a date, `2024-01-31`, meaning its midnight;
  2. a date, a `T` and a time with seconds; 3. the same with a space for the `T`;
  4. a date, a `T` and a time without seconds; 5. the same with a space for the `T`;
  6. a date and a time with a zone, in the strict form of Internet timestamps, moved to UTC.

  In the first five forms blanks may stand before every number, a field of two digits may have
  one, a year with a sign any number and one without at most four, and the space may be any
  blanks or none.  The sixth has exactly the digits it asks for.

  Writing (`Instant.toLiteral`) gives the second form with the shortest exact fraction of three,
  six or nine digits.
-/
import GanttChart.Calendar.Instant
import GanttChart.Text.Words

namespace GanttChart

open GanttChart.Text

namespace Literal

/-! ## Parts of a literal

  Each reader takes its part from the front of a text and answers with the rest. -/

/-- The given character. -/
def char? (c : Char) : List Char → Option (List Char)
  | [] => none
  | d :: text => if d = c then some text else none

/-- A number of one or two digits, after blanks. -/
def shortNumber? (text : List Char) : Option (Nat × List Char) := Digits.take? 1 2 (trimStart text)

/-- A year, after blanks. -/
def year? (text : List Char) : Option (Int × List Char) :=
  match trimStart text with
  | '-' :: text => (Digits.take? 1 text.length text).map fun (n, rest) => (-n, rest)
  | '+' :: text => (Digits.take? 1 text.length text).map fun (n, rest) => (n, rest)
  | text => (Digits.take? 1 4 text).map fun (n, rest) => (n, rest)

/-- A date: year, month and day with hyphens between them. -/
def date? (text : List Char) : Option (Date × List Char) := do
  let (year, text) ← year? text
  let text ← char? '-' text
  let (month, text) ← shortNumber? text
  let text ← char? '-' text
  let (day, text) ← shortNumber? text
  return (← Date.of? year month day, text)

/-- Nanoseconds: at least one digit, of which the first nine count. -/
def nanoseconds? (text : List Char) : Option (Nat × List Char) :=
  let digits := text.takeWhile Char.isDigit
  if digits.isEmpty then none
  else
    let counted := digits.take 9
    some (Digits.value counted * Nat.pow 10 (9 - counted.length), text.drop digits.length)

/-- A point and nanoseconds, or nothing, which is zero. -/
def fraction? : List Char → Option (Nat × List Char)
  | '.' :: text => nanoseconds? text
  | text => some (0, text)

/-- Hour and minute. -/
def minutes? (text : List Char) : Option (TimeOfDay × List Char) := do
  let (hour, text) ← shortNumber? text
  let text ← char? ':' text
  let (minute, text) ← shortNumber? text
  return (← TimeOfDay.of? hour minute 0 0, text)

/-- Hour, minute, second and possibly a fraction. -/
def seconds? (text : List Char) : Option (TimeOfDay × List Char) := do
  let (hour, text) ← shortNumber? text
  let text ← char? ':' text
  let (minute, text) ← shortNumber? text
  let text ← char? ':' text
  let (second, text) ← shortNumber? text
  let (nanosecond, text) ← fraction? text
  return (← TimeOfDay.of? hour minute second nanosecond, text)

/-! ## Local literals -/

/-- A whole text that is a date. -/
def plainDate? (text : List Char) : Option Instant := do
  let (date, rest) ← date? text
  if rest.isEmpty then return .atMidnight date else none

/-- A whole text that is a date, a separator and a time. -/
def dateTime? (separator : List Char → Option (List Char))
    (time? : List Char → Option (TimeOfDay × List Char)) (text : List Char) : Option Instant := do
  let (date, text) ← date? text
  let text ← separator text
  let (time, rest) ← time? text
  if rest.isEmpty then return ⟨date, time⟩ else none

/-! ## Internet timestamps -/

/-- The minutes that a zone is ahead of UTC, from `Z` or a sign, two digits, a colon and two. -/
def offset? : List Char → Option (Int × List Char)
  | [] => none
  | c :: text =>
    if c = 'Z' ∨ c = 'z' then some (0, text)
    else if c = '+' ∨ c = '-' ∨ c = '\u2212' then do
      let (hour, text) ← Digits.take? 2 2 text
      let text ← char? ':' text
      let (minute, text) ← Digits.take? 2 2 text
      if 24 ≤ hour ∨ 60 ≤ minute then none
      else
        let minutes : Int := hour * 60 + minute
        return (if c = '+' then minutes else -minutes, text)
    else none

/-- The character between date and time. -/
def timestampSeparator? : List Char → Option (List Char)
  | [] => none
  | c :: text => if c = 'T' ∨ c = 't' ∨ c = ' ' then some text else none

/-- A whole text that is a date, a time and a zone; the instant is the one at UTC. -/
def timestamp? (text : List Char) : Option Instant := do
  let (year, text) ← Digits.take? 4 4 text
  let text ← char? '-' text
  let (month, text) ← Digits.take? 2 2 text
  let text ← char? '-' text
  let (day, text) ← Digits.take? 2 2 text
  let text ← timestampSeparator? text
  let (hour, text) ← Digits.take? 2 2 text
  let text ← char? ':' text
  let (minute, text) ← Digits.take? 2 2 text
  let text ← char? ':' text
  let (second, text) ← Digits.take? 2 2 text
  let (nanosecond, text) ← fraction? text
  let (ahead, rest) ← offset? text
  let date ← Date.of? year month day
  let time ← TimeOfDay.of? hour minute second nanosecond
  if rest.isEmpty then Instant.addMinutes? ⟨date, time⟩ (-ahead) else none

end Literal

namespace Instant

/-- The instant that a literal denotes. -/
def ofLiteral? (text : List Char) : Option Instant :=
  let text := trim text
  Literal.plainDate? text
    <|> Literal.dateTime? (Literal.char? 'T') Literal.seconds? text
    <|> Literal.dateTime? (some ∘ trimStart) Literal.seconds? text
    <|> Literal.dateTime? (Literal.char? 'T') Literal.minutes? text
    <|> Literal.dateTime? (some ∘ trimStart) Literal.minutes? text
    <|> Literal.timestamp? text

/-! ## Writing -/

/-- A year in four digits; one outside 0 to 9999 has a sign and at least four. -/
def yearText (year : Int) : List Char :=
  if year < 0 then '-' :: Digits.padded 4 year.natAbs
  else if year ≤ 9999 then Digits.padded 4 year.natAbs
  else '+' :: Digits.padded 4 year.natAbs

/-- A point and the fewest groups of three digits that write a part of a second exactly. -/
def fractionText (nanosecond : Nat) : List Char :=
  if nanosecond = 0 then []
  else if nanosecond % 1000000 = 0 then '.' :: Digits.padded 3 (nanosecond / 1000000)
  else if nanosecond % 1000 = 0 then '.' :: Digits.padded 6 (nanosecond / 1000)
  else '.' :: Digits.padded 9 nanosecond

/-- The date part of a literal. -/
def dateText (date : Date) : List Char :=
  yearText date.year ++ '-' :: Digits.padded 2 date.month ++ '-' :: Digits.padded 2 date.day

/-- The time part of a literal. -/
def timeText (time : TimeOfDay) : List Char :=
  Digits.padded 2 time.hour ++ ':' :: Digits.padded 2 time.minute ++
    ':' :: Digits.padded 2 time.clockSecond ++ fractionText time.fraction

/-- The instant as a literal. -/
def toLiteral (t : Instant) : List Char := dateText t.date ++ 'T' :: timeText t.time

end Instant

end GanttChart
