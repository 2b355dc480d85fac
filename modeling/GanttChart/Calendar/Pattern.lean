/-
  Patterns for writing instants, in two notations.

  1. **Directives.**  A pattern is a list of items: literal characters, and fields that are filled in
     from an instant.  In text a field is a percent sign and a letter; a hyphen, a zero or an
     underscore between the two replaces the padding of a numeric field, and a few letters stand for
     several fields at once.  `Pattern.ofText?` reads the text form and answers `none` if any
     directive in it is unknown, incomplete, or padded without being a single number.

  2. **Tokens**, patterns of repeated letters such as `dd/MM/yyyy`.  A text without a percent sign is
     cut into pieces: two quotes in a row mean one quote, a quoted span is literal and may lack its
     closing quote, and what stands outside quotes falls into maximal runs of one character.  A run
     that is a known token becomes a percent directive; every other piece stands for itself.  A text
     with a percent sign is a pattern in directive form already and stays as it is.
-/
namespace GanttChart.Pattern

/-! ## Items -/

/-- How a number is brought to its width. -/
inductive Padding where
  | none
  | zero
  | space
  deriving DecidableEq

/-- The numeric fields. -/
inductive Quantity where
  | year
  | century
  | yearOfCentury
  | weekYear
  | weekYearOfCentury
  | quarter
  | month
  | day
  | dayOfYear
  | weekFromSunday
  | weekFromMonday
  | weekOfYear
  | weekdayFromSunday
  | weekdayFromMonday
  | hour
  | hourOfTwelve
  | minute
  | second
  | nanosecond
  | timestamp
  deriving DecidableEq

/-- The fields written as words. -/
inductive Name where
  | month
  | monthShort
  | weekday
  | weekdayShort
  | meridiem
  | meridiemSmall
  deriving DecidableEq

/-- The ways to write the part of a second. -/
inductive Fraction where
  /-- A point and as many groups of three digits as needed, or nothing. -/
  | shortest
  /-- As many digits as given, with or without a point. -/
  | digits (pointed : Bool) (count : Nat)
  deriving DecidableEq

/-- One piece of a pattern. -/
inductive Item where
  | literal (c : Char)
  | quantity (q : Quantity) (padding : Padding)
  | name (n : Name)
  | fraction (f : Fraction)
  /-- Anything about a time zone, which an instant does not have. -/
  | zone
  deriving DecidableEq

/-- The item shows something of the instant. -/
def Item.isField : Item → Bool
  | .literal _ => false
  | _ => true

/-! ## Directives -/

/-- The numeric field of a letter, with its usual padding. -/
def quantity? : Char → Option (Quantity × Padding)
  | 'Y' => some (.year, .zero)
  | 'C' => some (.century, .zero)
  | 'y' => some (.yearOfCentury, .zero)
  | 'G' => some (.weekYear, .zero)
  | 'g' => some (.weekYearOfCentury, .zero)
  | 'q' => some (.quarter, .none)
  | 'm' => some (.month, .zero)
  | 'd' => some (.day, .zero)
  | 'e' => some (.day, .space)
  | 'j' => some (.dayOfYear, .zero)
  | 'U' => some (.weekFromSunday, .zero)
  | 'W' => some (.weekFromMonday, .zero)
  | 'V' => some (.weekOfYear, .zero)
  | 'w' => some (.weekdayFromSunday, .none)
  | 'u' => some (.weekdayFromMonday, .none)
  | 'H' => some (.hour, .zero)
  | 'k' => some (.hour, .space)
  | 'I' => some (.hourOfTwelve, .zero)
  | 'l' => some (.hourOfTwelve, .space)
  | 'M' => some (.minute, .zero)
  | 'S' => some (.second, .zero)
  | 'f' => some (.nanosecond, .zero)
  | 's' => some (.timestamp, .none)
  | _ => none

/-- A two-digit number with leading zeros. -/
def twoDigits (q : Quantity) : Item := .quantity q .zero

/-- Month, day and year of the century between slashes. -/
def slashDate : List Item :=
  [twoDigits .month, .literal '/', twoDigits .day, .literal '/', twoDigits .yearOfCentury]

/-- Hour, minute and second between colons. -/
def colonTime : List Item :=
  [twoDigits .hour, .literal ':', twoDigits .minute, .literal ':', twoDigits .second]

/-- The items of a letter that is not a single number. -/
def composite? : Char → Option (List Item)
  | 'A' => some [.name .weekday]
  | 'a' => some [.name .weekdayShort]
  | 'B' => some [.name .month]
  | 'b' => some [.name .monthShort]
  | 'h' => some [.name .monthShort]
  | 'p' => some [.name .meridiem]
  | 'P' => some [.name .meridiemSmall]
  | 'D' => some slashDate
  | 'x' => some slashDate
  | 'F' => some [.quantity .year .zero, .literal '-', twoDigits .month, .literal '-',
      twoDigits .day]
  | 'v' => some [.quantity .day .space, .literal '-', .name .monthShort, .literal '-',
      .quantity .year .zero]
  | 'R' => some [twoDigits .hour, .literal ':', twoDigits .minute]
  | 'T' => some colonTime
  | 'X' => some colonTime
  | 'r' => some [twoDigits .hourOfTwelve, .literal ':', twoDigits .minute, .literal ':',
      twoDigits .second, .literal ' ', .name .meridiem]
  | 'c' => some ([.name .weekdayShort, .literal ' ', .name .monthShort, .literal ' ',
      .quantity .day .space, .literal ' '] ++ colonTime ++ [.literal ' ', .quantity .year .zero])
  | 'Z' => some [.zone]
  | 'z' => some [.zone]
  | '+' => some [.zone]
  | 'n' => some [.literal '\n']
  | 't' => some [.literal '\t']
  | '%' => some [.literal '%']
  | _ => none

/-- The items of a letter after a percent sign. -/
def directive? (c : Char) : Option (List Item) :=
  match quantity? c with
  | some (q, padding) => some [.quantity q padding]
  | none => composite? c

/-- The item of a letter after a percent sign and a padding. -/
def paddedDirective? (padding : Padding) (c : Char) : Option (List Item) :=
  (quantity? c).map fun (q, _) => [.quantity q padding]

/-- The items of a directive in front of those of the rest of a pattern. -/
def prepend (front rest : Option (List Item)) : Option (List Item) := do
  return (← front) ++ (← rest)

/-- The items of a pattern in text form. -/
def ofText? : List Char → Option (List Item)
  | [] => some []
  | '%' :: '-' :: c :: text => prepend (paddedDirective? .none c) (ofText? text)
  | '%' :: '0' :: c :: text => prepend (paddedDirective? .zero c) (ofText? text)
  | '%' :: '_' :: c :: text => prepend (paddedDirective? .space c) (ofText? text)
  | '%' :: '#' :: 'z' :: text => prepend (some [.zone]) (ofText? text)
  | '%' :: ':' :: 'z' :: text => prepend (some [.zone]) (ofText? text)
  | '%' :: ':' :: ':' :: 'z' :: text => prepend (some [.zone]) (ofText? text)
  | '%' :: ':' :: ':' :: ':' :: 'z' :: text => prepend (some [.zone]) (ofText? text)
  | '%' :: '.' :: 'f' :: text => prepend (some [.fraction .shortest]) (ofText? text)
  | '%' :: '.' :: '3' :: 'f' :: text => prepend (some [.fraction (.digits true 3)]) (ofText? text)
  | '%' :: '.' :: '6' :: 'f' :: text => prepend (some [.fraction (.digits true 6)]) (ofText? text)
  | '%' :: '.' :: '9' :: 'f' :: text => prepend (some [.fraction (.digits true 9)]) (ofText? text)
  | '%' :: '3' :: 'f' :: text => prepend (some [.fraction (.digits false 3)]) (ofText? text)
  | '%' :: '6' :: 'f' :: text => prepend (some [.fraction (.digits false 6)]) (ofText? text)
  | '%' :: '9' :: 'f' :: text => prepend (some [.fraction (.digits false 9)]) (ofText? text)
  | '%' :: c :: text => prepend (directive? c) (ofText? text)
  | ['%'] => none
  | c :: text => prepend (some [.literal c]) (ofText? text)

/-- The items of a pattern that is well formed and shows something of the instant. -/
def fieldsOfText? (text : List Char) : Option (List Item) :=
  (ofText? text).filter fun items => items.any Item.isField

example : ofText? "%-d.%m".toList =
    some [.quantity .day .none, .literal '.', .quantity .month .zero] := by decide

example : ofText? "%".toList = none ∧ ofText? "%-F".toList = none := by decide

example : fieldsOfText? "100%%".toList = none := by decide

/-! ## Tokens -/

/-- A piece of a token pattern. -/
inductive Piece where
  | quote
  | quoted (body : List Char)
  | run (c : Char) (length : Nat)
  deriving DecidableEq

/-- A character outside quotes in front of the pieces that follow it. -/
def joinRun (c : Char) : List Piece → List Piece
  | .run d n :: rest => if d = c then .run c (n + 1) :: rest else .run c 1 :: .run d n :: rest
  | pieces => .run c 1 :: pieces

/-- A character inside quotes in front of the pieces that follow it. -/
def joinQuoted (c : Char) : List Piece → List Piece
  | .quoted body :: rest => .quoted (c :: body) :: rest
  | pieces => pieces

/-- The pieces of a text that begins inside or outside of quotes. -/
def piecesFrom : (inside : Bool) → List Char → List Piece
  | false, [] => []
  | false, '\'' :: '\'' :: text => .quote :: piecesFrom false text
  | false, '\'' :: text => piecesFrom true text
  | false, c :: text => joinRun c (piecesFrom false text)
  | true, [] => [.quoted []]
  | true, '\'' :: text => .quoted [] :: piecesFrom false text
  | true, c :: text => joinQuoted c (piecesFrom true text)

/-- The pieces of a token pattern. -/
def pieces (text : List Char) : List Piece := piecesFrom false text

/-- The directive of a token, a letter repeated `length` times. -/
def tokenDirective? (c : Char) (length : Nat) : Option String :=
  match c, length with
  | 'y', 1 => some "%Y"
  | 'y', 4 => some "%Y"
  | 'y', 2 => some "%y"
  | 'M', 1 => some "%-m"
  | 'M', 2 => some "%m"
  | 'M', 3 => some "%b"
  | 'M', 4 => some "%B"
  | 'd', 1 => some "%-d"
  | 'd', 2 => some "%d"
  | 'E', 3 => some "%a"
  | 'E', 4 => some "%A"
  | 'H', 1 => some "%-H"
  | 'H', 2 => some "%H"
  | 'h', 1 => some "%-I"
  | 'h', 2 => some "%I"
  | 'm', 1 => some "%-M"
  | 'm', 2 => some "%M"
  | 's', 1 => some "%-S"
  | 's', 2 => some "%S"
  | 'a', 1 => some "%p"
  | _, _ => none

/-- The directive form of a piece. -/
def Piece.directives : Piece → List Char
  | .quote => ['\'']
  | .quoted body => body
  | .run c n =>
    match tokenDirective? c n with
    | some directive => directive.toList
    | none => List.replicate n c

/-- The directive form of a pattern that may be written in tokens. -/
def directives (text : List Char) : List Char :=
  if '%' ∈ text then text else (pieces text).flatMap Piece.directives

example : directives "dd/MM 'de' yyyy".toList = "%d/%m de %Y".toList := by decide

example : pieces "''yyy'a".toList = [.quote, .run 'y' 3, .quoted ['a']] := by decide

end GanttChart.Pattern
