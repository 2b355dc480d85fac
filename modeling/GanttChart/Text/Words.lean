/-
  The pieces of a text: its lines, the words and fields of a line, and the digits of a number.

  1. **Blanks.**  `isBlank` is the Unicode property White_Space, a fixed set of 25 characters; it
     holds the line feed and the no-break spaces too, but not the zero-width ones.  `trimStart`,
     `trimEnd` and `trim` drop blanks from one or both ends and nothing else.

  2. **Cutting a line.**  `words` are the maximal runs without blanks, `fields` the pieces between
     commas as they stand, and `breakOn?` gives what stands before and after the first occurrence of
     a marker.  `words` and `fields` are the library's `splitOnP` and `splitOn`, so its laws apply: no
     word is empty or holds a blank, no field holds a comma, and commas between the fields give the
     text back.

  3. **Lines.**  A line ends at a line feed, and a carriage return just before it belongs to the
     line's end.  Text after the last line feed is a line too, if there is any, and keeps its
     carriage return.

  4. **Digits.**  `Digits.ofNat` writes without leading zeros and `Digits.value` reads any string of
     digits, so reading undoes writing (`Digits.value_ofNat`).  `Digits.take?` reads a number of a
     bounded count of digits from the front of a text, the way the fields of a date are read.
-/
namespace GanttChart.Text

/-! ## Blanks -/

/-- The Unicode property White_Space. -/
def isBlank (c : Char) : Bool :=
  let n := c.toNat
  (0x9 ≤ n && n ≤ 0xD) || n == 0x20 || n == 0x85 || n == 0xA0 || n == 0x1680 ||
    (0x2000 ≤ n && n ≤ 0x200A) || n == 0x2028 || n == 0x2029 || n == 0x202F || n == 0x205F ||
    n == 0x3000

/-- The text without the blanks it starts with. -/
def trimStart (text : List Char) : List Char := text.dropWhile isBlank

/-- The text without the blanks it ends with. -/
def trimEnd (text : List Char) : List Char := (text.reverse.dropWhile isBlank).reverse

/-- The text without the blanks at both ends. -/
def trim (text : List Char) : List Char := trimEnd (trimStart text)

/-- There is nothing to drop from an empty text. -/
@[simp] theorem trimStart_nil : trimStart [] = [] := rfl

/-- A blank in front is dropped, and any other character ends the search. -/
theorem trimStart_cons (c : Char) (text : List Char) :
    trimStart (c :: text) = if isBlank c then trimStart text else c :: text := by
  simp [trimStart, List.dropWhile_cons]

/-- Blanks in front of a text do not change what is left of it. -/
theorem trimStart_append_of_blank {margin : List Char} (h : ∀ c ∈ margin, isBlank c = true)
    (text : List Char) : trimStart (margin ++ text) = trimStart text := by
  induction margin with
  | nil => rfl
  | cons c margin ih =>
    rw [List.cons_append, trimStart_cons, if_pos (h c (by simp))]
    exact ih fun d hd => h d (by simp [hd])

example : trim "\ta b\u3000".toList = "a b".toList := by decide

/-! ## Words, fields and halves -/

/-- The maximal runs of characters that are not blank. -/
def words (text : List Char) : List (List Char) :=
  (text.splitOnP isBlank).filter fun word => !word.isEmpty

/-- Words with one space between neighbours. -/
def unwords (ws : List (List Char)) : List Char := [' '].intercalate ws

/-- The pieces between commas; a text without a comma is one field. -/
def fields (text : List Char) : List (List Char) := text.splitOn ','

/-- What stands before and after the first occurrence of `marker`. -/
def breakOn? (marker : List Char) : List Char → Option (List Char × List Char)
  | [] => none
  | c :: text =>
    match marker.isPrefixOf? (c :: text) with
    | some after => some ([], after)
    | none => (breakOn? marker text).map fun halves => (c :: halves.1, halves.2)

/-- No piece of a split holds a character that it is split at. -/
theorem of_mem_splitOnP {p : Char → Bool} {text piece : List Char} (h : piece ∈ text.splitOnP p)
    {c : Char} (hc : c ∈ piece) : p c = false := by
  induction text generalizing piece with
  | nil => simp_all [List.splitOnP_nil]
  | cons d text ih =>
    rw [List.splitOnP_cons_eq_if_modifyHead] at h
    split at h
    · rcases List.mem_cons.1 h with rfl | h
      · simp at hc
      · exact ih h hc
    · rename_i hd
      cases hs : text.splitOnP p with
      | nil => exact absurd hs (List.splitOnP_ne_nil p text)
      | cons first rest =>
        rw [hs] at h ih
        rcases List.mem_cons.1 h with rfl | h
        · rcases List.mem_cons.1 hc with rfl | hc
          · simpa using hd
          · exact ih List.mem_cons_self hc
        · exact ih (List.mem_cons_of_mem _ h) hc

/-- No word holds a blank. -/
theorem isBlank_of_mem_words {word text : List Char} (h : word ∈ words text) {c : Char}
    (hc : c ∈ word) : isBlank c = false :=
  of_mem_splitOnP (List.mem_filter.1 h).1 hc

/-- No field holds a comma. -/
theorem comma_notMem_of_mem_fields {field text : List Char} (h : field ∈ fields text) :
    ',' ∉ field := by
  intro hc
  simpa using of_mem_splitOnP h hc

/-- No word is empty. -/
theorem ne_nil_of_mem_words {word text : List Char} (h : word ∈ words text) : word ≠ [] := by
  rintro rfl
  simp [words] at h

/-- Commas between the fields give the text back. -/
theorem intercalate_fields (text : List Char) : [','].intercalate (fields text) = text :=
  List.intercalate_splitOn ','

/-- There is always a field, if only an empty one. -/
theorem fields_ne_nil (text : List Char) : fields text ≠ [] := by
  intro h
  exact List.splitOn_ne_nil _ _ h

example : words " ab\t\nc".toList = ["ab".toList, ['c']] := by decide

example : fields "a,, ".toList = [['a'], [], [' ']] := by decide

example : breakOn? "--".toList "a---".toList = some (['a'], ['-']) := by decide

/-! ## Lines -/

/-- The lines of a text, without their ends. -/
def lines : List Char → List (List Char)
  | [] => []
  | '\n' :: text => [] :: lines text
  | '\r' :: '\n' :: text => [] :: lines text
  | c :: text =>
    match lines text with
    | [] => [[c]]
    | line :: rest => (c :: line) :: rest

/-- An empty text has no lines. -/
@[simp] theorem lines_nil : lines [] = [] := rfl

/-- A line feed ends an empty line. -/
@[simp] theorem lines_newline (text : List Char) : lines ('\n' :: text) = [] :: lines text := rfl

/-- And so does one with a carriage return before it. -/
@[simp] theorem lines_return_newline (text : List Char) :
    lines ('\r' :: '\n' :: text) = [] :: lines text := rfl

/-- No line holds a line feed. -/
theorem newline_notMem_of_mem_lines {text line : List Char} (h : line ∈ lines text) :
    '\n' ∉ line := by
  fun_induction lines text generalizing line with
  | case1 => simp at h
  | case2 text ih =>
    rcases List.mem_cons.1 h with rfl | h
    · simp
    · exact ih h
  | case3 text ih =>
    rcases List.mem_cons.1 h with rfl | h
    · simp
    · exact ih h
  | case4 c text hc _ hl ih =>
    rw [List.mem_singleton.1 h, List.mem_singleton]
    exact Ne.symm hc
  | case5 c text hc _ first rest hl ih =>
    rw [hl] at ih
    rcases List.mem_cons.1 h with rfl | h
    · rw [List.mem_cons, not_or]
      exact ⟨Ne.symm hc, ih List.mem_cons_self⟩
    · exact ih (List.mem_cons_of_mem _ h)

example : lines "a\r\n\nb\r".toList = [['a'], [], "b\r".toList] := by decide

example : lines "a\n".toList = [['a']] := by decide

/-! ## Digits -/

namespace Digits

/-- The decimal digits of a natural, without leading zeros. -/
def ofNat (n : Nat) : List Char := Nat.toDigits 10 n

/-- The number that a string of digits denotes. -/
def value (digits : List Char) : Nat := Nat.ofDigitChars 10 digits 0

/-- Fills a text up to a width from the left; a longer one stays as it is. -/
def padLeft (filler : Char) (width : Nat) (text : List Char) : List Char :=
  List.replicate (width - text.length) filler ++ text

/-- The digits of a natural with leading zeros up to a width. -/
def padded (width n : Nat) : List Char := padLeft '0' width (ofNat n)

/-- A number of at least `low` and at most `high` digits at the front of a text, and the rest. -/
def take? (low high : Nat) (text : List Char) : Option (Nat × List Char) :=
  let digits := (text.take high).takeWhile Char.isDigit
  if digits.length < low then none else some (value digits, text.drop digits.length)

/-- A whole text that is a machine word: digits below 2 ^ 64, possibly after a plus sign. -/
def ofWord? (text : List Char) : Option Nat :=
  let digits := if text.head? = some '+' then text.tail else text
  if digits.isEmpty || !digits.all Char.isDigit then none
  else if value digits < 0x10000000000000000 then some (value digits)
  else none

/-- Reading a number undoes writing it. -/
@[simp] theorem value_ofNat (n : Nat) : value (ofNat n) = n := Nat.ofDigitChars_ten_toDigits

example : take? 1 2 "123".toList = some (12, ['3']) := by decide

example : ofWord? "+007".toList = some 7 ∧ ofWord? "-1".toList = none := by decide

end Digits

end GanttChart.Text
