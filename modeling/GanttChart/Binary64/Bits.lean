/-
  Numbers as bits and as digits.

  1. **Bits.**  The interchange format is a word of 64 bits: from the highest bit down the sign,
     eleven bits of exponent and 52 bits of fraction.  A magnitude below 2 ^ 52 quanta is its own
     fraction under the exponent zero; any other loses its leading one to the exponent.  All
     not-a-numbers share one word here.

  2. **Writing to hundredths.**  A number is rounded to hundredths on its exact value, a half to the
     even one, and written without superfluous digits: no zeros at the end of the fraction, no point
     without a fraction, and no sign in front of a zero.

  3. **Reading numerals.**  A numeral is an optional sign and either a decimal or one of the words
     `inf`, `infinity` and `nan` in any case.  A decimal has digits on at least one side of an
     optional point, then possibly an exponent: a letter e, an optional sign, and at least one digit.
     Nothing else may stand before, between or after, blanks included.  The number read is the one
     nearest to what the decimal denotes, however many digits it has.
-/
import GanttChart.Binary64.Basic
import GanttChart.Text.Casing
import GanttChart.Text.Words

namespace GanttChart.Binary64

open GanttChart.Text

/-! ## Bits -/

/-- The sign bit, in place. -/
def signBit (negative : Bool) : Nat := if negative then 1 <<< 63 else 0

/-- Exponent and fraction of a magnitude, in place. -/
def magnitudeBits (quanta : Nat) : Nat :=
  if quanta < 1 <<< 52 then quanta
  else
    let shift := quanta.log2 - 52
    (shift + 1) <<< 52 + (quanta >>> shift - 1 <<< 52)

/-- The word of a number. -/
def toBits : Binary64 → Nat
  | .nan => 0x7FF8000000000000
  | .infinite s => signBit s + 0x7FF0000000000000
  | .finite s quanta _ => signBit s + magnitudeBits quanta

example : toBits 1 = 0x3FF0000000000000 ∧ toBits (-0) = 0x8000000000000000 := by decide +kernel

/-! ## Writing to hundredths -/

/-- A magnitude in hundredths, a half rounded to the even one. -/
def hundredths (quanta : Nat) : Nat := divHalfEven (quanta * 100) unit

/-- A point and a fraction of `n` hundredths, as short as they get; `n` is below 100. -/
def fractionText (n : Nat) : List Char :=
  if n = 0 then []
  else if n % 10 = 0 then '.' :: Digits.ofNat (n / 10)
  else '.' :: Digits.padded 2 n

/-- A signed count of hundredths. -/
def hundredthsText (negative : Bool) (n : Nat) : List Char :=
  (if negative && n != 0 then ['-'] else []) ++ Digits.ofNat (n / 100) ++ fractionText (n % 100)

/-- The number to at most two decimals. -/
def toText : Binary64 → List Char
  | .nan => "NaN".toList
  | .infinite s => (if s then ['-'] else []) ++ "inf".toList
  | .finite s quanta _ => hundredthsText s (hundredths quanta)

example : toText 0.125 = "0.12".toList ∧ toText (-2.5) = "-2.5".toList := by
  decide +kernel

/-! ## Reading numerals -/

/-- Whether a sign says minus, and the text after the sign. -/
def takeSign : List Char → Bool × List Char
  | '-' :: text => (true, text)
  | '+' :: text => (false, text)
  | text => (false, text)

/-- The value of an exponent part that makes up the whole text. -/
def exponent? : List Char → Option Int
  | [] => some 0
  | c :: text =>
    if c = 'e' ∨ c = 'E' then
      let (negative, digits) := takeSign text
      if digits.isEmpty || !digits.all Char.isDigit then none
      else some (signed negative (Digits.value digits))
    else none

/-- The number that an unsigned decimal denotes, with a sign. -/
def ofDecimalText? (negative : Bool) (text : List Char) : Option Binary64 := do
  let (whole, rest) := text.span Char.isDigit
  let (part, rest) :=
    match rest with
    | '.' :: rest => rest.span Char.isDigit
    | _ => ([], rest)
  if whole.isEmpty && part.isEmpty then none
  let e ← exponent? rest
  return ofDecimal negative (Digits.value (whole ++ part)) (e - part.length)

/-- The number that a numeral denotes. -/
def ofNumeral? (text : List Char) : Option Binary64 :=
  let (negative, body) := takeSign text
  if alike body "inf".toList || alike body "infinity".toList then
    some (.infinite negative)
  else if alike body "nan".toList then some .nan
  else ofDecimalText? negative body

example : ofNumeral? "-.5e1".toList = some (-5) := by decide +kernel

example : ofNumeral? ['.'] = none ∧ ofNumeral? "1e+".toList = none := by decide +kernel

end GanttChart.Binary64
