/-
  Whole numbers.

  Durations are read as numbers of the format and multiplied by the length of their unit.  A whole
  amount may have any number of digits, so its product may be rounded, or infinite; what has to be
  known is that this can only happen beyond the bound at which the amount is refused.

  1. **Counting.**  Every natural below 2 ^ 53 is a number of the format, and nothing from there on is
     rounded to less.  So a number that counts something (`Counts`) is the count itself below 2 ^ 53,
     and otherwise at least 2 ^ 53, an infinity included.  Products with naturals and rounding to
     whole numbers keep to that (`Counts.mul`, `Counts.round`), however large the count gets: it can
     neither wrap nor come back.

  2. **Numerals.**  An integer in decimal digits is read as a number that counts it, whatever its
     length (`exists_counts_of_isInteger`).
-/
import GanttChart.Binary64.Bits
import GanttChart.Proofs.Binary64.Nearest
import Mathlib.Data.List.TakeDrop
import Mathlib.Data.List.TakeWhile

namespace GanttChart.Binary64

open GanttChart.Text

/-! ## Magnitudes from below -/

/-- The magnitude is at least `quanta`, or infinite. -/
def AtLeast (quanta : Nat) : Binary64 → Prop
  | .nan => False
  | .infinite _ => True
  | .finite _ m _ => quanta ≤ m

variable {x y : Binary64} {negative : Bool} {a b g n k : Nat}

/-- Rounding does not lead below a number of the format, by monotony and because it is left
    alone. -/
theorem le_nearest_of_onGrid (hb : 0 < b) (hg : OnGrid g) (h : g * b ≤ a) : g ≤ nearest a b := by
  have hscaled := nearest_mul_right g 1 hb
  rw [Nat.one_mul, nearest_one_of_onGrid hg] at hscaled
  exact Nat.le_trans (Nat.le_of_eq hscaled.symm) (nearest_mono b h)

/-- Rounding does not lead below a number of the format; past the end of the format stands an
    infinity. -/
theorem atLeast_rounded (hb : 0 < b) (hg : OnGrid g) (h : g * b ≤ a) :
    AtLeast g (rounded negative a b) := by
  unfold rounded
  split
  · exact le_nearest_of_onGrid hb hg h
  · exact trivial

/-- A number is at least its own magnitude. -/
theorem Is.atLeast (hx : x.Is negative a) : AtLeast a x := by
  obtain ⟨_, rfl⟩ := hx
  exact Nat.le_refl a

/-- A lower bound on a factor is one on the product, as far as it is itself a number of the
    format. -/
theorem AtLeast.mul_natural (hx : AtLeast a x) (hk : 0 < k) (hy : y.Is false (k * unit))
    (hg : OnGrid g) (h : g ≤ a * k) : AtLeast g (x * y) := by
  obtain ⟨_, rfl⟩ := hy
  have hne : k * unit ≠ 0 := Nat.ne_of_gt (Nat.mul_pos hk unit_pos)
  cases x with
  | nan => exact hx.elim
  | infinite s =>
    show AtLeast g (mul (.infinite s) (.finite false (k * unit) _))
    rw [mul, if_neg hne]
    exact trivial
  | finite s m hm =>
    refine atLeast_rounded unit_pos hg ?_
    calc g * unit ≤ a * k * unit := Nat.mul_le_mul_right unit h
      _ ≤ m * k * unit := Nat.mul_le_mul_right unit (Nat.mul_le_mul_right k hx)
      _ = m * (k * unit) := Nat.mul_assoc m k unit

/-- Whole units are whole already. -/
theorem wholeUnits_mul_unit (n : Nat) : wholeUnits (n * unit) = n := by
  have hunit := unit_pos
  have htwice : n * (2 * unit) = 2 * (n * unit) := Nat.mul_left_comm n 2 unit
  have hsucc : (n + 1) * (2 * unit) = n * (2 * unit) + 2 * unit := Nat.succ_mul n (2 * unit)
  exact Nat.div_eq_of_lt_le (by omega) (by omega)

/-- A whole lower bound survives rounding to a whole number. -/
theorem AtLeast.round (hx : AtLeast (n * unit) x) (hg : OnGrid (n * unit)) :
    AtLeast (n * unit) (Binary64.round x) := by
  cases x with
  | nan => exact hx.elim
  | infinite s => exact trivial
  | finite s m hm =>
    refine atLeast_rounded Nat.one_pos hg ?_
    have hwhole : n ≤ wholeUnits m := by
      rw [← wholeUnits_mul_unit n]
      exact wholeUnits_mono hx
    rw [Nat.mul_one]
    exact Nat.mul_le_mul_right unit hwhole

/-! ## Counting -/

/-- The number is `n` with a sign if `n` is below 2 ^ 53, and not below 2 ^ 53 if `n` is not. -/
structure Counts (x : Binary64) (negative : Bool) (n : Nat) : Prop where
  exact : n < 2 ^ 53 → x.Is negative (n * unit)
  large : 2 ^ 53 ≤ n → AtLeast (2 ^ 53 * unit) x

/-- The number nearest to a natural counts it. -/
theorem counts_rounded (negative : Bool) (n : Nat) :
    (rounded negative (n * unit) 1).Counts negative n where
  exact := by
    intro hn
    have his : (rounded negative (n * unit) 1).Is negative (nearest (n * unit) 1) := by
      refine is_rounded negative Nat.one_pos ?_
      rw [Nat.mul_one]
      exact Nat.mul_le_mul_right unit (by omega)
    rwa [nearest_one_of_onGrid (onGrid_mul_unit hn)] at his
  large := by
    intro hn
    refine atLeast_rounded Nat.one_pos (onGrid_two_pow_mul_unit 53) ?_
    rw [Nat.mul_one]
    exact Nat.mul_le_mul_right unit hn

/-- A product with a natural counts the product.  Below 2 ^ 53 all is exact; a product from 2 ^
    53 on comes from an exact factor or from one that is past 2 ^ 53 already. -/
theorem Counts.mul (hx : x.Counts negative n) (hk : 0 < k) (hk' : k < 2 ^ 53) :
    (x * ofNat k).Counts negative (n * k) where
  exact := by
    intro hnk
    have hn : n < 2 ^ 53 := Nat.lt_of_le_of_lt (Nat.le_mul_of_pos_right n hk) hnk
    have hquanta : n * unit * k = n * k * unit := Nat.mul_right_comm n unit k
    have hproduct := (hx.exact hn).mul_natural (is_ofNat hk')
      (by rw [hquanta]; exact Nat.mul_le_mul_right unit (by omega))
    rwa [hquanta, nearest_one_of_onGrid (onGrid_mul_unit hnk)] at hproduct
  large := by
    intro hnk
    by_cases hn : n < 2 ^ 53
    · -- an exact factor, whose product may have to be rounded
      refine (hx.exact hn).atLeast.mul_natural hk (is_ofNat hk') (onGrid_two_pow_mul_unit 53) ?_
      calc 2 ^ 53 * unit ≤ n * k * unit := Nat.mul_le_mul_right unit hnk
        _ = n * unit * k := Nat.mul_right_comm n k unit
    · -- a factor that is past the bound already
      refine (hx.large (Nat.le_of_not_lt hn)).mul_natural hk (is_ofNat hk')
        (onGrid_two_pow_mul_unit 53) ?_
      exact Nat.le_mul_of_pos_right _ hk

/-- Rounding to a whole number changes no count. -/
theorem Counts.round (hx : x.Counts negative n) : (Binary64.round x).Counts negative n where
  exact := by
    intro hn
    have hround := (hx.exact hn).round (by rw [wholeUnits_mul_unit]; omega)
    rwa [wholeUnits_mul_unit, nearest_one_of_onGrid (onGrid_mul_unit hn)] at hround
  large := by
    intro hn
    exact (hx.large hn).round (onGrid_two_pow_mul_unit 53)

/-- A count is compared with a bound below 2 ^ 53 as it is: exactly where it is exact, and past
    every such bound where it is not. -/
theorem Counts.lt_abs_iff (hx : x.Counts negative n) {bound : Binary64} {m : Nat}
    (hbound : bound.Is false (m * unit)) (hm : m < 2 ^ 53) : lt bound x.abs = true ↔ m < n := by
  obtain ⟨_, rfl⟩ := hbound
  by_cases hn : n < 2 ^ 53
  · obtain ⟨hn', rfl⟩ := hx.exact hn
    have hquanta : m * unit < n * unit ↔ m < n := Nat.mul_lt_mul_right unit_pos
    show decide (signed false (m * unit) < signed false (n * unit)) = true ↔ m < n
    rw [decide_eq_true_iff, ← hquanta]
    exact Int.ofNat_lt
  · refine iff_of_true ?_ (by omega)
    have hlarge := hx.large (Nat.le_of_not_lt hn)
    cases x with
    | nan => exact hlarge.elim
    | infinite s => rfl
    | finite s q hq =>
      have hlt : m * unit < 2 ^ 53 * unit := (Nat.mul_lt_mul_right unit_pos).2 hm
      show decide (signed false (m * unit) < signed false q) = true
      exact decide_eq_true (Int.ofNat_lt.2 (Nat.lt_of_lt_of_le hlt hlarge))

/-- The integer part of whole units is their count, with the sign. -/
theorem Is.toInt (hx : x.Is negative (n * unit)) : x.toInt = signed negative n := by
  obtain ⟨_, rfl⟩ := hx
  show signed negative (n * unit / unit) = signed negative n
  rw [Nat.mul_div_cancel n unit_pos]

/-! ## Numerals of integers

  A numeral may also be one of three words, which begin with letters, so digits are told apart
  from them by the first character. -/

/-- The text is an integer in decimal digits, possibly after a minus sign. -/
def IsInteger (text : List Char) (n : Int) : Prop :=
  ∃ negative digits, digits ≠ [] ∧ (∀ c ∈ digits, c.isDigit = true) ∧
    text = (if negative then ['-'] else []) ++ digits ∧ n = signed negative (Digits.value digits)

/-- Digits come in one case only. -/
theorem toLower_of_isDigit {c : Char} (h : c.isDigit = true) : c.toLower = c := by
  simp only [Char.isDigit, Bool.and_eq_true, decide_eq_true_eq] at h
  have hupper : ¬(c.val ≥ 'A'.val ∧ c.val ≤ 'Z'.val) := by
    rintro ⟨hlow, _⟩
    exact absurd (UInt32.le_trans hlow h.2) (by decide)
  exact dif_neg hupper

/-- Digits are none of the words that are numerals. -/
theorem not_alike_of_isDigit {c : Char} (hc : c.isDigit = true) (digits : List Char) {first : Char}
    (hfirst : first.toLower.isDigit = false) (word : List Char) :
    alike (c :: digits) (first :: word) = false := by
  unfold alike
  rw [List.map_cons, List.map_cons, toLower_of_isDigit hc, beq_eq_false_iff_ne]
  intro heq
  rw [(List.cons.inj heq).1, hfirst] at hc
  cases hc

/-- A minus sign in front of digits is taken off, and without one the digits stay. -/
theorem takeSign_sign_append (negative : Bool) {c : Char} (hc : c.isDigit = true)
    (digits : List Char) :
    takeSign ((if negative then ['-'] else []) ++ c :: digits) = (negative, c :: digits) := by
  cases negative with
  | true => rfl
  | false =>
    show takeSign (c :: digits) = (false, c :: digits)
    unfold takeSign
    split
    · rename_i heq
      cases (List.cons.inj heq).1
      cases hc
    · rename_i heq
      cases (List.cons.inj heq).1
      cases hc
    · rfl

/-- Digits alone are a decimal without a fraction and without an exponent. -/
theorem ofDecimalText?_digits (negative : Bool) {digits : List Char} (hne : digits ≠ [])
    (hdigits : ∀ c ∈ digits, c.isDigit = true) :
    ofDecimalText? negative digits =
      some (rounded negative (Digits.value digits * unit) 1) := by
  have hspan : digits.span Char.isDigit = (digits, []) := by
    rw [List.span_eq_takeWhile_dropWhile, List.takeWhile_eq_self_iff.2 hdigits,
      List.dropWhile_eq_nil_iff.2 hdigits]
  have hempty : digits.isEmpty = false := List.isEmpty_eq_false_iff.2 hne
  unfold ofDecimalText?
  rw [hspan]
  simp only [hempty, exponent?, List.append_nil, Bool.false_and, Bool.false_eq_true, if_false]
  show some (rounded negative (Digits.value digits * 1 * unit) 1) = _
  rw [Nat.mul_one]

/-- **An integer in digits is read as a number that counts it.**  It is none of the three words,
    its sign is taken off, and what is left is a decimal of digits only. -/
theorem exists_counts_of_isInteger {text : List Char} {n : Int} (h : IsInteger text n) :
    ∃ x negative count, ofNumeral? text = some x ∧ x.Counts negative count ∧
      n = signed negative count := by
  obtain ⟨negative, digits, hne, hdigits, rfl, rfl⟩ := h
  refine ⟨_, negative, Digits.value digits, ?_, counts_rounded negative _, rfl⟩
  rw [← ofDecimalText?_digits negative hne hdigits]
  obtain ⟨c, rest, rfl⟩ := List.exists_cons_of_ne_nil hne
  have hc : c.isDigit = true := hdigits c List.mem_cons_self
  have hword : ∀ {first : Char} {word : List Char}, first.toLower.isDigit = false →
      alike (c :: rest) (first :: word) = false :=
    fun hfirst => not_alike_of_isDigit hc rest hfirst _
  have hinf : alike (c :: rest) "inf".toList = false := hword (by decide)
  have hinfinity : alike (c :: rest) "infinity".toList = false := hword (by decide)
  have hnan : alike (c :: rest) "nan".toList = false := hword (by decide)
  unfold ofNumeral?
  rw [takeSign_sign_append negative hc rest]
  simp only [hinf, hinfinity, hnan, Bool.or_self, Bool.false_eq_true, if_false]

end GanttChart.Binary64
