/-
  Numbers as canonical decimals.

  1. **Decimals.**  `Decimal` is a decimal with at most two places and no superfluous character: no
     leading zeros, no zeros at the end of the fraction, no sign on a zero, and a point only in front
     of a fraction.  Nothing else is needed to make it unique: decimals of the same value are the same
     (`Decimal.eq_of_value_eq`).

  2. **Hundredths.**  A signed count of hundredths is written as a decimal of that value
     (`hundredthsText_eq_text`), the one that is left of two fixed places when the zeros at the end and
     then the point are taken away (`hundredthsText_eq_trimmed`).

  3. **Numbers.**  So the text of a finite number is the canonical decimal of the hundredths nearest to
     its exact value, and the other sign changes nothing but the sign (`toText_isCanonical`).

  Uniqueness goes through the hundredths.  They are a natural below 100 behind the point and any
  natural before it; the digits of both are read back from them, the first by trying all hundred, the
  second by the laws of digits without leading zeros.
-/
import GanttChart.Proofs.Binary64.Exact
import GanttChart.Proofs.Calendar.Field
import Mathlib.Data.List.DropRight
import Mathlib.Tactic.Ring

namespace GanttChart

open GanttChart.Text GanttChart.Text.Digits GanttChart.Literal

/-! ## Decimals -/

/-- A decimal with at most two places and no superfluous character. -/
@[ext]
structure Decimal where
  negative : Bool
  whole : List Char
  fraction : List Char
  isDigit_whole : ∀ c ∈ whole, c.isDigit = true
  whole_ne_nil : whole ≠ []
  no_leading_zero : whole.head? = some '0' → whole = ['0']
  isDigit_fraction : ∀ c ∈ fraction, c.isDigit = true
  length_fraction : fraction.length ≤ 2
  no_final_zero : fraction.getLast? ≠ some '0'
  no_signed_zero : whole = ['0'] → fraction = [] → negative = false

/-- The hundredths of at most two digits behind the point. -/
def fractionHundredths (digits : List Char) : Nat := value digits * 10 ^ (2 - digits.length)

/-- The digits of a fraction of hundredths without the zeros at the end. -/
def fractionDigits (n : Nat) : List Char := (padded 2 n).rdropWhile fun c => c = '0'

/-- Hundredths are read back from the digits that are left of them. -/
theorem fractionHundredths_fractionDigits {n : Nat} (h : n < 100) :
    fractionHundredths (fractionDigits n) = n := by
  revert n
  decide +kernel

/-- Of two digits at most two are left. -/
theorem length_fractionDigits {n : Nat} (h : n < 100) : (fractionDigits n).length ≤ 2 := by
  have hle : (fractionDigits n).length ≤ (padded 2 n).length := (List.rdropWhile_prefix _ _).length_le
  rwa [length_padded_of_lt (by decide) h] at hle

/-- What is left are digits. -/
theorem isDigit_of_mem_fractionDigits {n : Nat} {c : Char} (hc : c ∈ fractionDigits n) :
    c.isDigit = true :=
  isDigit_of_mem_padded ((List.rdropWhile_prefix _ _).mem hc)

/-- No zero is left at the end. -/
theorem getLast?_fractionDigits (n : Nat) : (fractionDigits n).getLast? ≠ some '0' := by
  intro h
  have hne : fractionDigits n ≠ [] := by
    rintro hnil
    rw [hnil] at h
    cases h
  rw [List.getLast?_eq_some_getLast hne, Option.some.injEq] at h
  exact List.rdropWhile_last_not (fun c => decide (c = '0')) (padded 2 n) hne (decide_eq_true h)

/-- At most two digits without a zero at the end are those of their hundredths.  The digits are
    finitely many; the cases are no digit, one and two. -/
theorem fractionDigits_fractionHundredths {digits : List Char}
    (hdigits : ∀ c ∈ digits, c.isDigit = true) (hlength : digits.length ≤ 2)
    (hlast : digits.getLast? ≠ some '0') :
    fractionHundredths digits < 100 ∧ fractionDigits (fractionHundredths digits) = digits := by
  match digits, hlength with
  | [], _ => decide
  | [c], _ =>
    have hall : ∀ d < 10, [Nat.digitChar d].getLast? ≠ some '0' →
        fractionHundredths [Nat.digitChar d] < 100 ∧
          fractionDigits (fractionHundredths [Nat.digitChar d]) = [Nat.digitChar d] := by
      decide +kernel
    obtain ⟨d, hd, rfl⟩ := exists_digitChar_eq (hdigits c List.mem_cons_self)
    exact hall d hd hlast
  | [c, e], _ =>
    have hall : ∀ d < 10, ∀ k < 10, [Nat.digitChar d, Nat.digitChar k].getLast? ≠ some '0' →
        fractionHundredths [Nat.digitChar d, Nat.digitChar k] < 100 ∧
          fractionDigits (fractionHundredths [Nat.digitChar d, Nat.digitChar k]) =
            [Nat.digitChar d, Nat.digitChar k] := by
      decide +kernel
    obtain ⟨d, hd, rfl⟩ := exists_digitChar_eq (hdigits c List.mem_cons_self)
    obtain ⟨k, hk, rfl⟩ := exists_digitChar_eq
      (hdigits e (List.mem_cons_of_mem _ List.mem_cons_self))
    exact hall d hd k hk hlast

namespace Decimal

variable {d e : Decimal}

/-- The characters of a decimal. -/
def text (d : Decimal) : List Char :=
  (if d.negative then ['-'] else []) ++ d.whole ++ pointed d.fraction

/-- The number that a decimal denotes. -/
def value (d : Decimal) : ℚ :=
  (if d.negative then -1 else 1) *
    (Digits.value d.whole + Digits.value d.fraction / 10 ^ d.fraction.length)

/-- The number without its sign, in hundredths. -/
def hundredths (d : Decimal) : Nat := Digits.value d.whole * 100 + fractionHundredths d.fraction

/-- The digits before the point are those of their value, for none is a leading zero. -/
theorem ofNat_value_whole (d : Decimal) : ofNat (Digits.value d.whole) = d.whole :=
  ofNat_value d.isDigit_whole d.whole_ne_nil d.no_leading_zero

/-- A fraction is less than one. -/
theorem fractionHundredths_lt (d : Decimal) : fractionHundredths d.fraction < 100 :=
  (fractionDigits_fractionHundredths d.isDigit_fraction d.length_fraction d.no_final_zero).1

/-- The digits before the point are determined by the hundredths. -/
theorem whole_eq (d : Decimal) : d.whole = ofNat (d.hundredths / 100) := by
  have hfraction := d.fractionHundredths_lt
  have hdiv : d.hundredths / 100 = Digits.value d.whole := by
    unfold hundredths
    omega
  rw [hdiv, d.ofNat_value_whole]

/-- The digits behind the point are determined by the hundredths. -/
theorem fraction_eq (d : Decimal) : d.fraction = fractionDigits (d.hundredths % 100) := by
  obtain ⟨hlt, hdigits⟩ :=
    fractionDigits_fractionHundredths d.isDigit_fraction d.length_fraction d.no_final_zero
  have hmod : d.hundredths % 100 = fractionHundredths d.fraction := by
    unfold hundredths
    omega
  rw [hmod, hdigits]

/-- Only zero has no hundredths, and it has no sign. -/
theorem negative_eq_false (h : d.hundredths = 0) : d.negative = false := by
  refine d.no_signed_zero ?_ ?_
  · rw [d.whole_eq, h]
    rfl
  · rw [d.fraction_eq, h]
    rfl

/-- The value is the signed count of hundredths over a hundred. -/
theorem value_eq (d : Decimal) : d.value = (Binary64.signed d.negative d.hundredths : ℚ) / 100 := by
  have hfraction : (fractionHundredths d.fraction : ℚ) / 100 =
      Digits.value d.fraction / 10 ^ d.fraction.length := by
    -- one or two places, or none, are filled up to two
    have hpow : (10 : ℚ) ^ d.fraction.length * 10 ^ (2 - d.fraction.length) = 100 := by
      rw [← pow_add, Nat.add_sub_cancel' d.length_fraction]
      norm_num
    have hne : (10 : ℚ) ^ d.fraction.length ≠ 0 := pow_ne_zero _ (by norm_num)
    rw [div_eq_div_iff (by norm_num) hne, ← hpow, fractionHundredths]
    push_cast
    ring
  have habs : (d.hundredths : ℚ) / 100 =
      Digits.value d.whole + Digits.value d.fraction / 10 ^ d.fraction.length := by
    rw [← hfraction, hundredths]
    push_cast
    ring
  rw [value, ← habs]
  cases d.negative with
  | false =>
    show 1 * ((d.hundredths : ℚ) / 100) = ((d.hundredths : ℤ) : ℚ) / 100
    rw [one_mul, Int.cast_natCast]
  | true =>
    show -1 * ((d.hundredths : ℚ) / 100) = ((-(d.hundredths : ℤ) : ℤ) : ℚ) / 100
    rw [neg_one_mul, Int.cast_neg, Int.cast_natCast, neg_div]

/-- **Decimals of the same value are the same.**  The value determines the hundredths, they
    determine the digits on both sides, and the sign is free only where there is something to be
    negative. -/
theorem eq_of_value_eq (h : d.value = e.value) : d = e := by
  rw [d.value_eq, e.value_eq, div_left_inj' (by norm_num), Int.cast_inj] at h
  have hhundredths : d.hundredths = e.hundredths := by
    have habs := congrArg Int.natAbs h
    unfold Binary64.signed at habs
    split at habs <;> split at habs <;> omega
  have hnegative : d.negative = e.negative := by
    rcases Nat.eq_zero_or_pos d.hundredths with hzero | hpos
    · -- neither zero has a sign
      rw [negative_eq_false hzero, negative_eq_false (hhundredths ▸ hzero)]
    · rw [← hhundredths] at h
      unfold Binary64.signed at h
      cases hd : d.negative <;> cases he : e.negative <;> simp only [hd, he] at h ⊢ <;>
        simp at h <;> omega
  refine Decimal.ext hnegative ?_ ?_
  · rw [d.whole_eq, e.whole_eq, hhundredths]
  · rw [d.fraction_eq, e.fraction_eq, hhundredths]

/-- The decimal of a signed count of hundredths. -/
def ofHundredths (negative : Bool) (n : Nat) : Decimal where
  negative := negative && n != 0
  whole := ofNat (n / 100)
  fraction := fractionDigits (n % 100)
  isDigit_whole := fun _ => isDigit_of_mem_ofNat
  whole_ne_nil := Nat.toDigits_ne_nil
  no_leading_zero := by
    intro h
    rw [eq_zero_of_head?_ofNat h]
    rfl
  isDigit_fraction := fun _ => isDigit_of_mem_fractionDigits
  length_fraction := length_fractionDigits (Nat.mod_lt n (by decide))
  no_final_zero := getLast?_fractionDigits _
  no_signed_zero := by
    intro hwhole hfraction
    have hzero : n / 100 = 0 := eq_zero_of_head?_ofNat (by rw [hwhole]; rfl)
    have hmod := fractionHundredths_fractionDigits (Nat.mod_lt n (show 0 < 100 by decide))
    rw [hfraction] at hmod
    have hmod : n % 100 = 0 := hmod.symm
    have hn : n = 0 := by omega
    rw [hn]
    exact Bool.and_false _

/-- The decimal of a count has that count. -/
@[simp] theorem hundredths_ofHundredths (negative : Bool) (n : Nat) :
    (ofHundredths negative n).hundredths = n := by
  show Digits.value (ofNat (n / 100)) * 100 + fractionHundredths (fractionDigits (n % 100)) = n
  rw [value_ofNat, fractionHundredths_fractionDigits (Nat.mod_lt n (by decide))]
  omega

/-- The decimal of a signed count has its value; the sign that a zero loses is worth nothing. -/
theorem value_ofHundredths (negative : Bool) (n : Nat) :
    (ofHundredths negative n).value = (Binary64.signed negative n : ℚ) / 100 := by
  rw [value_eq, hundredths_ofHundredths]
  show (Binary64.signed (negative && n != 0) n : ℚ) / 100 = _
  rcases Nat.eq_zero_or_pos n with rfl | hpos
  · cases negative <;> rfl
  · rw [bne_iff_ne.2 (Nat.ne_of_gt hpos), Bool.and_true]

/-- **Hundredths are written as a decimal.**  The three ways to write a fraction are compared for
    all hundred of them. -/
theorem hundredthsText_eq_text (negative : Bool) (n : Nat) :
    Binary64.hundredthsText negative n = (ofHundredths negative n).text := by
  have hfraction : ∀ k < 100, Binary64.fractionText k = pointed (fractionDigits k) := by
    decide +kernel
  unfold Binary64.hundredthsText
  rw [hfraction (n % 100) (Nat.mod_lt n (by decide))]
  rfl

/-! ## The ends of a decimal

  The sign is told by the first character and a fraction by the last one, since digits are
  neither a minus sign nor a point. -/

/-- A digit is no other character. -/
theorem ne_of_isDigit {c d : Char} (hc : c.isDigit = true) (hd : d.isDigit = false) : c ≠ d := by
  rintro rfl
  rw [hc] at hd
  cases hd

/-- Only a negative decimal begins with a minus sign. -/
theorem negative_eq_true (h : d.text.head? = some '-') : d.negative = true := by
  obtain ⟨c, rest, hwhole⟩ := List.exists_cons_of_ne_nil d.whole_ne_nil
  have hc : c ≠ '-' := ne_of_isDigit (d.isDigit_whole c (hwhole ▸ List.mem_cons_self)) rfl
  unfold text at h
  rw [hwhole] at h
  cases hnegative : d.negative with
  | true => rfl
  | false =>
    rw [hnegative] at h
    exact absurd (Option.some.inj h) hc

/-- A decimal ends in a digit. -/
theorem isDigit_getLast? (d : Decimal) {c : Char} (h : d.text.getLast? = some c) :
    c.isDigit = true := by
  unfold text at h
  cases hfraction : d.fraction with
  | nil =>
    -- without a fraction the last character is that of the whole part
    rw [hfraction, pointed, List.append_nil, List.getLast?_append_of_ne_nil _ d.whole_ne_nil] at h
    exact d.isDigit_whole c (List.mem_of_getLast? h)
  | cons first rest =>
    rw [hfraction, pointed, List.getLast?_append_cons, List.getLast?_cons_cons] at h
    exact d.isDigit_fraction c (hfraction ▸ List.mem_of_getLast? h)

/-- Digits and a fraction make a single zero only as zero without a fraction. -/
theorem zero_of_append_pointed {whole fraction : List Char} (hne : whole ≠ [])
    (h : whole ++ pointed fraction = ['0']) : whole = ['0'] ∧ fraction = [] := by
  obtain ⟨c, rest, rfl⟩ := List.exists_cons_of_ne_nil hne
  obtain ⟨rfl, hrest⟩ := List.cons.inj h
  obtain ⟨rfl, hpointed⟩ := List.append_eq_nil_iff.1 hrest
  cases fraction with
  | nil => exact ⟨rfl, rfl⟩
  | cons first rest => cases hpointed

/-- No decimal is a zero with a sign. -/
theorem text_ne_signed_zero (d : Decimal) : d.text ≠ ['-', '0'] := by
  intro h
  have hnegative : d.negative = true := negative_eq_true (by rw [h]; rfl)
  unfold text at h
  rw [hnegative, if_pos rfl, List.append_assoc, List.singleton_append] at h
  obtain ⟨hwhole, hfraction⟩ := zero_of_append_pointed d.whole_ne_nil (List.cons.inj h).2
  rw [d.no_signed_zero hwhole hfraction] at hnegative
  cases hnegative

/-- Only zero is written as a single zero. -/
theorem hundredths_eq_zero (h : d.text = ['0']) : d.hundredths = 0 := by
  have hnegative : d.negative = false := by
    cases hcase : d.negative with
    | false => rfl
    | true =>
      unfold text at h
      rw [hcase] at h
      exact absurd (List.cons.inj h).1 (by decide)
  unfold text at h
  rw [hnegative] at h
  obtain ⟨hwhole, hfraction⟩ := zero_of_append_pointed d.whole_ne_nil h
  rw [hundredths, hwhole, hfraction]
  rfl

end Decimal

/-! ## Two places, trimmed -/

/-- Hundredths with two fixed places, and with a sign also on a zero. -/
def twoPlaces (negative : Bool) (n : Nat) : List Char :=
  (if negative then ['-'] else []) ++ ofNat (n / 100) ++ '.' :: padded 2 (n % 100)

/-- A text without the zeros at its end and then without the points there; a zero has no sign. -/
def trimmed (text : List Char) : List Char :=
  let short := (text.rdropWhile fun c => c = '0').rdropWhile fun c => c = '.'
  if short = ['-', '0'] then ['0'] else short

/-- Trimming from the right does not pass a character that stays.  The induction is from the
    right end, as trimming is. -/
theorem rdropWhile_append_cons {p : Char → Bool} (front back : List Char) {c : Char}
    (hc : p c = false) : (front ++ c :: back).rdropWhile p = front ++ c :: back.rdropWhile p := by
  induction back using List.reverseRecOn with
  | nil => exact List.rdropWhile_concat_neg p front c (by rw [hc]; exact Bool.false_ne_true)
  | append_singleton back e ih =>
    have hshape : front ++ c :: (back ++ [e]) = front ++ c :: back ++ [e] := by simp
    rw [hshape, List.rdropWhile_concat, List.rdropWhile_concat]
    split
    · exact ih
    · exact hshape.symm

/-- The zeros of a whole number stay, and so does its last digit. -/
theorem rdropWhile_twoPlaces (negative : Bool) (n : Nat) :
    ((twoPlaces negative n).rdropWhile fun c => c = '0').rdropWhile (fun c => c = '.') =
      (if negative then ['-'] else []) ++ ofNat (n / 100) ++ pointed (fractionDigits (n % 100)) := by
  have hzeros : (twoPlaces negative n).rdropWhile (fun c => c = '0') =
      (if negative then ['-'] else []) ++ ofNat (n / 100) ++ '.' :: fractionDigits (n % 100) :=
    rdropWhile_append_cons _ _ rfl
  rw [hzeros]
  -- a digit at the end keeps the points before it
  have hkeep : ∀ front back : List Char, back ≠ [] → (∀ c ∈ back, c.isDigit = true) →
      (front ++ back).rdropWhile (fun c => c = '.') = front ++ back := by
    intro front back hne hdigits
    rw [List.rdropWhile_eq_self_iff]
    intro hl
    rw [List.getLast_append_of_ne_nil hl hne, decide_eq_true_iff]
    exact Decimal.ne_of_isDigit (hdigits _ (List.getLast_mem hne)) rfl
  cases hfraction : fractionDigits (n % 100) with
  | nil =>
    -- no digit is left behind the point, so the point goes too
    rw [List.rdropWhile_concat_pos (fun c => decide (c = '.')) _ '.' rfl, pointed, List.append_nil]
    exact hkeep _ _ Nat.toDigits_ne_nil fun _ => isDigit_of_mem_ofNat
  | cons c rest =>
    have hdigits : ∀ e ∈ c :: rest, e.isDigit = true := fun e he =>
      isDigit_of_mem_fractionDigits (hfraction ▸ he)
    have hsplit := hkeep ((if negative then ['-'] else []) ++ ofNat (n / 100) ++ ['.']) (c :: rest)
      (List.cons_ne_nil c rest) hdigits
    rwa [List.append_assoc, List.singleton_append] at hsplit

/-- **The text of hundredths is that of two places, trimmed.** -/
theorem hundredthsText_eq_trimmed (negative : Bool) (n : Nat) :
    Binary64.hundredthsText negative n = trimmed (twoPlaces negative n) := by
  rcases Nat.eq_zero_or_pos n with rfl | hpos
  · cases negative <;> decide +kernel
  · have htext : (Decimal.ofHundredths negative n).text =
        (if negative then ['-'] else []) ++ ofNat (n / 100) ++ pointed (fractionDigits (n % 100)) := by
      show (if negative && n != 0 then ['-'] else []) ++ _ ++ _ = _
      rw [bne_iff_ne.2 (Nat.ne_of_gt hpos), Bool.and_true]
      rfl
    unfold trimmed
    rw [rdropWhile_twoPlaces, ← htext]
    dsimp only
    rw [if_neg (Decimal.text_ne_signed_zero _), Decimal.hundredthsText_eq_text]

/-! ## Numbers -/

/-- A text with the other sign. -/
def flipSign : List Char → List Char
  | '-' :: text => text
  | text => '-' :: text

/-- A text without a minus sign gets one. -/
theorem flipSign_of_head? {text : List Char} (h : text.head? ≠ some '-') :
    flipSign text = '-' :: text := by
  unfold flipSign
  split
  · exact absurd rfl h
  · rfl

/-- The other sign of a count of hundredths is the other sign of its text, except for zero. -/
theorem hundredthsText_not (negative : Bool) {n : Nat} (h : n ≠ 0) :
    Binary64.hundredthsText (!negative) n = flipSign (Binary64.hundredthsText negative n) := by
  have hbne : (n != 0) = true := bne_iff_ne.2 h
  have hminus : Binary64.hundredthsText true n = '-' :: Binary64.hundredthsText false n := by
    unfold Binary64.hundredthsText
    rw [hbne]
    rfl
  cases negative with
  | true =>
    rw [hminus]
    rfl
  | false =>
    rw [flipSign_of_head?]
    · exact hminus
    · intro hhead
      rw [Decimal.hundredthsText_eq_text] at hhead
      exact absurd (Decimal.negative_eq_true hhead) Bool.false_ne_true

namespace Binary64

/-- **A finite number is written as the canonical decimal of its nearest hundredths.**  The text
    is that of the decimal of its hundredths; that they are nearest is
    `isNearestEven_hundredths`, uniqueness is `Decimal.eq_of_value_eq`, and the error of at most
    half a hundredth follows from nearness alone. -/
theorem toText_isCanonical (x : Binary64) (hx : x.isFinite = true) :
    ∃ d : Decimal, ∃ n : ℤ, x.toText = d.text ∧ (∀ e : Decimal, e.value = d.value → e = d) ∧
      IsNearestEven (100 * x.toRat) n ∧ d.value = n / 100 ∧ |d.value - x.toRat| ≤ 1 / 200 ∧
      x.toText ≠ ['-', '0'] ∧ x.toText.getLast? ≠ some '.' ∧
      (neg x).toText = if x.toText = ['0'] then ['0'] else flipSign x.toText := by
  cases x with
  | nan => cases hx
  | infinite s => cases hx
  | finite s quanta h =>
    have htext : (finite s quanta h).toText = (Decimal.ofHundredths s (hundredths quanta)).text :=
      Decimal.hundredthsText_eq_text s _
    have hnearest := isNearestEven_hundredths s h
    have hvalue := Decimal.value_ofHundredths s (hundredths quanta)
    refine ⟨Decimal.ofHundredths s (hundredths quanta), signed s (hundredths quanta), htext,
      fun e he => Decimal.eq_of_value_eq he, hnearest, hvalue, ?_, ?_, ?_, ?_⟩
    · -- half a hundredth, from half of one on the scale of hundredths
      have herror := hnearest.error_le
      rw [abs_le] at herror
      rw [hvalue, abs_le]
      constructor <;> linarith
    · rw [htext]
      exact Decimal.text_ne_signed_zero _
    · rw [htext]
      intro hpoint
      exact absurd (Decimal.isDigit_getLast? _ hpoint) (by decide)
    · show hundredthsText (!s) (hundredths quanta) = _
      split
      · -- the text is a zero, so there are no hundredths of either sign
        rename_i hzero
        rw [htext] at hzero
        have hnone := Decimal.hundredths_eq_zero hzero
        rw [Decimal.hundredths_ofHundredths] at hnone
        rw [hnone]
        cases s <;> rfl
      · -- otherwise there are some, and the sign is flipped with them
        rename_i hnonzero
        refine hundredthsText_not s fun hnone => hnonzero ?_
        show hundredthsText s (hundredths quanta) = ['0']
        rw [hnone]
        cases s <;> rfl

/-- A tie: twelve and a half hundredths are nearest to twelve. -/
theorem toText_isCanonical_eighth :
    (-0.125 : Binary64).toText = "-0.12".toList ∧ (0.125 : Binary64).toText = "0.12".toList ∧
      ∃ d : Decimal, ∃ n : ℤ, "-0.12".toList = d.text ∧
        IsNearestEven (100 * (-0.125 : Binary64).toRat) n ∧ d.value = n / 100 := by
  have htext : (-0.125 : Binary64).toText = "-0.12".toList := by decide +kernel
  obtain ⟨d, n, hd, -, hn, hvalue, -, -, -, hneg⟩ :=
    toText_isCanonical (-0.125) (by decide +kernel)
  rw [htext] at hd hneg
  have hback : neg (-0.125 : Binary64) = 0.125 := neg_neg _
  rw [hback] at hneg
  exact ⟨htext, hneg, d, n, hd, hn, hvalue⟩

end Binary64

end GanttChart
