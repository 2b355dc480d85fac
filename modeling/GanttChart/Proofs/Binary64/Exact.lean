/-
  Exact values, and rounding as a choice among integers.

  A number of the format is a rational, and what a text shows of it is said of that rational: which
  integer of hundredths is nearest to it.  The choice is stated as a relation between a rational and
  an integer, without any algorithm, so that what follows from it does not depend on how the digits
  are computed.

  1. **Values.**  A finite number is a rational, its quanta over the unit (`Binary64.toRat`).

  2. **Rounding as a choice.**  `IsNearestEven q n` says of an integer that no other is nearer to `q`,
     and that it is the even one if another is as near.  There is at most one (`IsNearestEven.unique`),
     and an integer within a half is it, if it is even whenever it is a half away
     (`IsNearestEven.of_error`).

  3. **What rounding chooses.**  `divHalfEven` gives the integer that is nearest to a fraction, so the
     hundredths of a number are the nearest ones to its exact value (`Binary64.isNearestEven_hundredths`).
-/
import GanttChart.Binary64.Bits
import GanttChart.Proofs.Binary64.Nearest
import Mathlib.Algebra.Order.Field.Rat
import Mathlib.Algebra.Ring.Int.Parity
import Mathlib.Tactic.Linarith
import Mathlib.Tactic.NormNum

namespace GanttChart

/-! ## Values -/

namespace Binary64

/-- The exact value of a finite number; an infinity and a not-a-number are given zero. -/
def toRat : Binary64 → ℚ
  | .finite negative quanta _ => (signed negative quanta : ℚ) / unit
  | _ => 0

/-- The unit may be divided by. -/
theorem unit_ne_zero : (unit : ℚ) ≠ 0 := Nat.cast_ne_zero.2 (Nat.ne_of_gt unit_pos)

/-- The other sign is the negation. -/
theorem signed_not (negative : Bool) (n : Nat) : signed (!negative) n = -signed negative n := by
  cases negative with
  | false => rfl
  | true => exact (Int.neg_neg _).symm

/-- The other sign of a number has the opposite value. -/
theorem toRat_neg (x : Binary64) : (neg x).toRat = -x.toRat := by
  cases x with
  | nan => exact neg_zero.symm
  | infinite s => exact neg_zero.symm
  | finite s m h =>
    show ((signed (!s) m : ℤ) : ℚ) / unit = -(((signed s m : ℤ) : ℚ) / unit)
    rw [signed_not, Int.cast_neg, neg_div]

end Binary64

/-! ## Rounding as a choice

  All that is proved of the relation rests on one inequality: two different integers are at least
  one apart, so their distances to `q` add up to at least one (`one_le_error_add_error`). -/

/-- No integer is nearer to `q` than `n`, and `n` is even if another is as near. -/
structure IsNearestEven (q : ℚ) (n : ℤ) : Prop where
  nearest : ∀ m : ℤ, |q - n| ≤ |q - m|
  even : ∀ m : ℤ, m ≠ n → |q - m| = |q - n| → Even n

namespace IsNearestEven

variable {q : ℚ} {n m : ℤ}

/-- Different integers are one apart. -/
theorem one_le_error_add_error (h : m ≠ n) : 1 ≤ |q - n| + |q - m| := by
  have hone : (1 : ℚ) ≤ |(m : ℚ) - n| := by
    have hint : 1 ≤ |m - n| := Int.one_le_abs (sub_ne_zero.2 h)
    exact_mod_cast hint
  calc (1 : ℚ) ≤ |(m : ℚ) - n| := hone
    _ = |(q - n) - (q - m)| := by rw [sub_sub_sub_cancel_left]
    _ ≤ |q - n| + |q - m| := abs_sub _ _

/-- An integer within a half is nearest, if it is even where another is as near. -/
theorem of_error (herror : |q - n| ≤ 1 / 2) (heven : |q - n| = 1 / 2 → Even n) :
    IsNearestEven q n where
  nearest m := by
    by_cases h : m = n
    · rw [h]
    · have := one_le_error_add_error (q := q) h
      linarith
  even m hne heq := by
    have := one_le_error_add_error (q := q) hne
    exact heven (by linarith)

/-- The nearest integer is at most a half away: one of its two neighbours would be nearer
    otherwise. -/
theorem error_le (h : IsNearestEven q n) : |q - n| ≤ 1 / 2 := by
  have hup := h.nearest (n + 1)
  have hdown := h.nearest (n - 1)
  push_cast at hup hdown
  -- compare with the neighbour on the side of `q`
  rcases le_total 0 (q - n) with hpos | hneg
  · rw [abs_of_nonneg hpos] at hup ⊢
    rcases abs_cases (q - (n + 1)) with ⟨habs, _⟩ | ⟨habs, _⟩ <;> linarith
  · rw [abs_of_nonpos hneg] at hdown ⊢
    rcases abs_cases (q - (n - 1)) with ⟨habs, _⟩ | ⟨habs, _⟩ <;> linarith

/-- **The choice is unique.**  Two nearest integers are both as near, hence both even, and then
    the integer half way between them would be nearer than either. -/
theorem unique (hn : IsNearestEven q n) (hm : IsNearestEven q m) : n = m := by
  by_contra hne
  have heq : |q - m| = |q - n| := le_antisymm (hm.nearest n) (hn.nearest m)
  obtain ⟨a, rfl⟩ := hn.even m (Ne.symm hne) heq
  obtain ⟨b, rfl⟩ := hm.even (a + a) hne heq.symm
  -- the integer in the middle of two even ones is nearer than both
  have hmiddle := hn.nearest (a + b)
  push_cast at heq hmiddle
  rcases abs_eq_abs.1 heq with hsame | hopposite
  · have hab : (a : ℚ) = b := by linarith
    exact hne (by rw [Int.cast_inj.1 hab])
  · have hq : q - (a + b) = 0 := by linarith
    rw [hq, abs_zero] at hmiddle
    have hzero := abs_nonpos_iff.1 hmiddle
    have hab : (a : ℚ) = b := by linarith
    exact hne (by rw [Int.cast_inj.1 hab])

/-- Distances do not change when both numbers are negated. -/
theorem error_neg (q : ℚ) (m : ℤ) : |-q - m| = |q - (-m : ℤ)| := by
  rw [← abs_neg, Int.cast_neg, neg_sub', neg_neg]

/-- The choice for the opposite number is the opposite choice; evenness does not see the sign. -/
theorem neg (h : IsNearestEven q n) : IsNearestEven (-q) (-n) where
  nearest m := by
    rw [error_neg, error_neg, neg_neg]
    exact h.nearest (-m)
  even m hne heq := by
    rw [error_neg, error_neg, neg_neg] at heq
    exact (h.even (-m) (fun hm => hne (by rw [← hm, neg_neg])) heq).neg

end IsNearestEven

/-! ## What rounding chooses

  The quotient is compared with the remainder on naturals; the rationals come in once the
  denominator has been cleared. -/

/-- At a tie the result is even: the remainder is half the divisor, and then the even one of the
    quotient and its successor is taken. -/
theorem divHalfEven_even {a b : Nat} (hb : 0 < b)
    (h : 2 * a = 2 * (divHalfEven a b * b) + b ∨ 2 * (divHalfEven a b * b) = 2 * a + b) :
    Even (divHalfEven a b) := by
  have hmod := Nat.mod_lt a hb
  have hdiv : a / b * b + a % b = a := Nat.div_add_mod' a b
  have hsucc : (a / b + 1) * b = a / b * b + b := Nat.succ_mul _ _
  unfold divHalfEven at h ⊢
  dsimp only at h ⊢
  split at h
  · omega
  · split at h
    · rw [hsucc] at h
      omega
    · -- neither side of the half, so the parity of the quotient has decided
      rw [if_neg ‹_›, if_neg ‹_›, Nat.even_iff]
      omega

/-- **Rounding a fraction chooses the nearest integer.**  The error is at most half the divisor
    (`divHalfEven_error`), and the result is even where it is exactly half (`divHalfEven_even`). -/
theorem isNearestEven_divHalfEven (a : Nat) {b : Nat} (hb : 0 < b) :
    IsNearestEven (a / b) (divHalfEven a b : ℕ) := by
  have hpos : (0 : ℚ) < b := Nat.cast_pos.2 hb
  obtain ⟨hhigh, hlow⟩ := divHalfEven_error a hb
  have hhigh' : (2 * (divHalfEven a b * b) : ℚ) ≤ 2 * a + b := by exact_mod_cast hhigh
  have hlow' : (2 * a : ℚ) ≤ 2 * (divHalfEven a b * b) + b := by exact_mod_cast hlow
  have hscaled : ((a : ℚ) / b - divHalfEven a b) * b = a - divHalfEven a b * b := by
    rw [sub_mul, div_mul_cancel₀ _ (ne_of_gt hpos)]
  rw [← Int.cast_natCast (R := ℚ) a]
  refine .of_error (abs_le.2 ⟨?_, ?_⟩) fun htie => ?_
  · refine le_of_mul_le_mul_right ?_ hpos
    push_cast
    linarith
  · refine le_of_mul_le_mul_right ?_ hpos
    push_cast
    linarith
  · refine (Int.even_coe_nat _).2 (divHalfEven_even hb ?_)
    -- a tie from above or from below
    rcases (abs_eq (by norm_num)).1 htie with hup | hdown
    · have hequal : ((a : ℚ) / b - divHalfEven a b) * b = 1 / 2 * b := by
        rw [← hup]
        push_cast
        rfl
      refine .inl ?_
      have : (2 * a : ℚ) = 2 * (divHalfEven a b * b) + b := by linarith
      exact_mod_cast this
    · have hequal : ((a : ℚ) / b - divHalfEven a b) * b = -(1 / 2) * b := by
        rw [← hdown]
        push_cast
        rfl
      refine .inr ?_
      have : (2 * (divHalfEven a b * b) : ℚ) = 2 * a + b := by linarith
      exact_mod_cast this

namespace Binary64

/-- **The hundredths of a number** are the nearest to its exact value.  They are computed from
    the magnitude alone, and the sign goes through by `IsNearestEven.neg`. -/
theorem isNearestEven_hundredths (negative : Bool) {quanta : Nat} (h : IsMagnitude quanta) :
    IsNearestEven (100 * (finite negative quanta h).toRat) (signed negative (hundredths quanta)) := by
  have hpositive : IsNearestEven (100 * ((quanta : ℚ) / unit)) (hundredths quanta : ℕ) := by
    have hfraction := isNearestEven_divHalfEven (quanta * 100) unit_pos
    rwa [Nat.cast_mul, mul_comm (quanta : ℚ), mul_div_assoc] at hfraction
  cases negative with
  | false => exact hpositive
  | true =>
    have hvalue : (finite true quanta h).toRat = -(finite false quanta h).toRat :=
      toRat_neg (finite false quanta h)
    rw [hvalue, mul_neg]
    exact hpositive.neg

end Binary64

end GanttChart
