/-
  The characters that XML allows.

  XML 1.0 has no place for most control characters, not even escaped.  `IsChar` are the characters
  that a document may hold, and `IsClean` says that a text has no others.

  1. **Texts.**  Being clean is a matter of each character, so a text that is put together is clean if
     its parts are.  A character that is not allowed is then in none of them (`IsClean.notMem`), which
     is how the lemmas are used: what a chart writes on its own can be left out of account.

  2. **Letters and numbers.**  Digits, letters, padded numbers and the decimals of coordinates are
     clean, whatever the number is (`isClean_number`).

  3. **Shapes.**  So are the attributes that say where and how large a shape is
     (`isClean_of_mem_shapeAttributes`).
-/
import GanttChart.Proofs.Text.Fields
import GanttChart.Svg.Document

namespace GanttChart.Svg

open GanttChart.Text

/-- A character that XML 1.0 allows: a tab, a line feed, a carriage return, or one from the space on
    but for U+FFFE and U+FFFF. -/
def IsChar (c : Char) : Prop :=
  c.toNat = 0x9 ∨ c.toNat = 0xA ∨ c.toNat = 0xD ∨ (0x20 ≤ c.toNat ∧ c.toNat ≤ 0xD7FF) ∨
    (0xE000 ≤ c.toNat ∧ c.toNat ≤ 0xFFFD) ∨ (0x10000 ≤ c.toNat ∧ c.toNat ≤ 0x10FFFF)

instance (c : Char) : Decidable (IsChar c) := inferInstanceAs (Decidable (_ ∨ _))

/-- All characters of a text are allowed. -/
def IsClean (text : List Char) : Prop := ∀ c ∈ text, IsChar c

instance (text : List Char) : Decidable (IsClean text) := List.decidableBAll _ text

example : IsClean "a\t\u00E9\u0085".toList ∧ ¬ IsChar '\x01' ∧ ¬ IsChar '\uFFFF' := by decide

/-- A character that is not allowed is none that is. -/
theorem ne_of_isChar {c d : Char} (hc : ¬ IsChar c) (hd : IsChar d) : c ≠ d := by
  rintro rfl
  exact hc hd

/-- It is in no clean text. -/
theorem IsClean.notMem {c : Char} {text : List Char} (h : IsClean text) (hc : ¬ IsChar c) :
    c ∉ text :=
  fun hmem => hc (h c hmem)

/-! ## Texts -/

/-- The empty text is clean. -/
theorem isClean_nil : IsClean [] := fun _ h => nomatch h

/-- A text is clean if its first character is allowed and the rest is clean. -/
@[simp] theorem isClean_cons {c : Char} {text : List Char} :
    IsClean (c :: text) ↔ IsChar c ∧ IsClean text :=
  List.forall_mem_cons

/-- Clean texts in a row are clean, and nothing else makes a clean one. -/
@[simp] theorem isClean_append {front rest : List Char} :
    IsClean (front ++ rest) ↔ IsClean front ∧ IsClean rest :=
  List.forall_mem_append

/-- A literal is clean if its characters are, which need not be read from its bytes then. -/
theorem isClean_ofList {text : List Char} (h : IsClean text) :
    IsClean (String.ofList text).toList := by
  rwa [String.toList_ofList]

/-! ## Letters and numbers -/

/-- Digits are allowed. -/
theorem isChar_of_isDigit {c : Char} (h : c.isDigit = true) : IsChar c := by
  simp only [Char.isDigit, Bool.and_eq_true, decide_eq_true_eq] at h
  have hdigit : 48 ≤ c.toNat ∧ c.toNat ≤ 57 := h
  unfold IsChar
  omega

/-- Letters of both cases and digits are allowed. -/
theorem isChar_of_isAlphanum {c : Char} (h : c.isAlphanum = true) : IsChar c := by
  have hcases : (c.isUpper = true ∨ c.isLower = true) ∨ c.isDigit = true := by
    rw [← Bool.or_eq_true, ← Bool.or_eq_true]
    exact h
  rcases hcases with (hupper | hlower) | hdigit
  · have hrange : 65 ≤ c.toNat ∧ c.toNat ≤ 90 := of_decide_eq_true hupper
    unfold IsChar
    omega
  · obtain ⟨hlow, hhigh⟩ := Bool.and_eq_true_iff.1 hlower
    have hrange : 97 ≤ c.toNat ∧ c.toNat ≤ 122 := ⟨of_decide_eq_true hlow, of_decide_eq_true hhigh⟩
    unfold IsChar
    omega
  · exact isChar_of_isDigit hdigit

/-- A number in digits is clean. -/
theorem isClean_digits (n : Nat) : IsClean (Digits.ofNat n) :=
  fun _ hc => isChar_of_isDigit (Nat.isDigit_of_mem_toDigits (by decide) (by decide) hc)

/-- Padding by a character that is allowed keeps a text clean. -/
theorem isClean_padLeft {filler : Char} (hfiller : IsChar filler) (width : Nat) {text : List Char}
    (h : IsClean text) : IsClean (Digits.padLeft filler width text) := by
  refine isClean_append.2 ⟨?_, h⟩
  intro c hc
  rw [List.eq_of_mem_replicate hc]
  exact hfiller

/-- A number with leading zeros is clean. -/
theorem isClean_padded (width n : Nat) : IsClean (Digits.padded width n) :=
  isClean_padLeft (by decide) width (isClean_digits n)

/-- **A coordinate is clean**, infinite ones and those that are no number included. -/
theorem isClean_number (x : Binary64) : IsClean (number x).toList := by
  -- a fraction has no digits, one or two
  have hfraction : ∀ n, IsClean (Binary64.fractionText n) := by
    intro n
    unfold Binary64.fractionText
    split
    · exact isClean_nil
    · split
      · exact isClean_cons.2 ⟨by decide, isClean_digits _⟩
      · exact isClean_cons.2 ⟨by decide, isClean_padded 2 n⟩
  rw [number, String.toList_ofList]
  unfold Binary64.toText
  split
  · decide
  · split
    · decide
    · decide
  · refine isClean_append.2 ⟨isClean_append.2 ⟨?_, isClean_digits _⟩, hfraction _⟩
    split
    · decide
    · exact isClean_nil

/-! ## Shapes -/

/-- A point is two numbers and a separator. -/
theorem isClean_pointText (p : Point) : IsClean (pointText p).toList := by
  simp only [pointText, String.toList_append, isClean_append]
  exact ⟨⟨isClean_number _, by decide⟩, isClean_number _⟩

/-- A piece of a path is a letter and its points. -/
theorem isClean_stepText (step : PathStep) : IsClean (stepText step).toList := by
  cases step with
  | moveTo p =>
    simp only [stepText, String.toList_append, isClean_append]
    exact ⟨by decide, isClean_pointText p⟩
  | lineTo p =>
    simp only [stepText, String.toList_append, isClean_append]
    exact ⟨by decide, isClean_pointText p⟩
  | curveTo control₁ control₂ p =>
    simp only [stepText, String.toList_append, isClean_append]
    exact ⟨⟨⟨⟨⟨by decide, isClean_pointText _⟩, by decide⟩, isClean_pointText _⟩, by decide⟩,
      isClean_pointText p⟩
  | close => decide

/-- A path is its pieces with spaces between them. -/
theorem isClean_pathText (steps : List PathStep) : IsClean (pathText steps).toList := by
  have hspace : IsClean " ".toList := by decide
  rw [pathText, String.toList_intercalate]
  refine forall_mem_intercalate hspace ?_
  intro text htext
  rw [List.map_map] at htext
  obtain ⟨step, _, rfl⟩ := List.mem_map.1 htext
  exact isClean_stepText step

/-- **What a shape says of its place and size is clean.** -/
theorem isClean_of_mem_shapeAttributes {shape : Shape} {pair : String × String}
    (h : pair ∈ shapeAttributes shape) : IsClean pair.2.toList := by
  revert pair
  -- the attributes of each shape are a fixed list of names with numbers, points and words as values
  cases shape with
  | rect x y width height cornerRadius =>
    simp only [shapeAttributes, List.forall_mem_cons, isClean_number, true_and]
    exact fun _ h => nomatch h
  | diamond center size =>
    simp only [shapeAttributes, List.forall_mem_cons, isClean_number, true_and,
      String.toList_append, isClean_append, isClean_pointText]
    exact ⟨by decide, fun _ h => nomatch h⟩
  | line source target =>
    simp only [shapeAttributes, List.forall_mem_cons, isClean_number, true_and]
    exact fun _ h => nomatch h
  | text x y lines lineHeight anchor =>
    simp only [shapeAttributes, List.forall_mem_cons, isClean_number, true_and]
    cases anchor <;> exact ⟨by decide, by decide, by decide, fun _ h => nomatch h⟩
  | path steps =>
    simp only [shapeAttributes, List.forall_mem_cons, isClean_pathText, true_and]
    exact fun _ h => nomatch h

end GanttChart.Svg
