/-
  How far computed numbers are from exact ones.

  The bars of a chart stand where a computation of several steps puts them, and each step rounds.  To
  compare the picture with the exact formulas, every computed number is paired with the rational that
  it stands for and with a count of the roundings on the way.

  1. **Factors.**  `Near k x v` bounds the ratio of two rationals, both ways, by `k` factors of
     1 + 2 ^ -52.  Such bounds add up along a computation (`Near.trans`, `Near.add`), so its error is
     told by the count of its roundings.  The relation is symmetric in shape, so a bound on the
     computed number and one on the exact number are the same work.

  2. **One rounding.**  Rounding a whole number of quanta, or a fraction with 52 bits or more, costs one
     factor (`near_nearest`).  Fractions of fewer bits are left out: near zero the distance of two
     neighbours is a quantum, which is no bounded ratio.

  3. **Operations.**  A sum or difference of numbers that are not negative, and a product with a
     natural, is one rounding of the exact result in quanta (`Is.add`, `Is.sub`, `Is.natural_mul`).
     The bound 2 ^ 100 on the results keeps them away from the end of the format, so none is an
     infinity.
-/
import GanttChart.Proofs.Binary64.Exact
import Mathlib.Tactic.Positivity
import Mathlib.Tactic.Ring

namespace GanttChart.Binary64

/-! ## Factors

  One factor is twice the error of one rounding to 53 bits, which leaves room to state it in both
  directions with the same constant. -/

/-- The ratio that one rounding keeps within. -/
def slack : ℚ := 1 + 1 / 2 ^ 52

/-- Factors do not shrink a number. -/
theorem one_le_slack : 1 ≤ slack := by
  unfold slack
  norm_num

/-- A number of factors may be divided by. -/
theorem slack_pow_pos (k : ℕ) : 0 < slack ^ k := pow_pos (lt_of_lt_of_le one_pos one_le_slack) k

/-- Neither number is more than `k` factors above the other. -/
structure Near (k : ℕ) (x v : ℚ) : Prop where
  exact_le : v ≤ x * slack ^ k
  le_exact : x ≤ v * slack ^ k

namespace Near

variable {j k : ℕ} {x y v w : ℚ}

/-- A number is near itself at no cost. -/
theorem refl (x : ℚ) : Near 0 x x := by
  constructor <;> rw [pow_zero, mul_one]

/-- Costs add up along a computation: each way, the second bound is put into the first. -/
theorem trans (h : Near j x y) (h' : Near k y v) : Near (j + k) x v where
  exact_le := by
    calc v ≤ y * slack ^ k := h'.exact_le
      _ ≤ x * slack ^ j * slack ^ k :=
        mul_le_mul_of_nonneg_right h.exact_le (le_of_lt (slack_pow_pos k))
      _ = x * slack ^ (j + k) := by rw [pow_add, mul_assoc]
  le_exact := by
    calc x ≤ y * slack ^ j := h.le_exact
      _ ≤ v * slack ^ k * slack ^ j :=
        mul_le_mul_of_nonneg_right h'.le_exact (le_of_lt (slack_pow_pos j))
      _ = v * slack ^ (j + k) := by rw [pow_add, mul_assoc, mul_comm (slack ^ k)]

/-- The computed number has the sign of the exact one. -/
theorem nonneg (h : Near k x v) (hv : 0 ≤ v) : 0 ≤ x :=
  nonneg_of_mul_nonneg_left (le_trans hv h.exact_le) (slack_pow_pos k)

/-- A higher count is a weaker bound, of numbers that are not negative. -/
theorem mono (h : Near j x v) (hv : 0 ≤ v) (hjk : j ≤ k) : Near k x v := by
  have hpow : slack ^ j ≤ slack ^ k := pow_le_pow_right₀ one_le_slack hjk
  exact ⟨le_trans h.exact_le (mul_le_mul_of_nonneg_left hpow (h.nonneg hv)),
    le_trans h.le_exact (mul_le_mul_of_nonneg_left hpow hv)⟩

/-- A sum is as near as its parts, before it is rounded itself. -/
theorem add (h : Near k x v) (h' : Near k y w) : Near k (x + y) (v + w) where
  exact_le := by
    rw [add_mul]
    exact add_le_add h.exact_le h'.exact_le
  le_exact := by
    rw [add_mul]
    exact add_le_add h.le_exact h'.le_exact

/-- An exact factor that is not negative costs nothing. -/
theorem mul_right (h : Near k x v) {t : ℚ} (ht : 0 ≤ t) : Near k (x * t) (v * t) where
  exact_le := by
    rw [mul_right_comm]
    exact mul_le_mul_of_nonneg_right h.exact_le ht
  le_exact := by
    rw [mul_right_comm]
    exact mul_le_mul_of_nonneg_right h.le_exact ht

/-- An exact divisor that is not negative costs nothing. -/
theorem div_right (h : Near k x v) {t : ℚ} (ht : 0 ≤ t) : Near k (x / t) (v / t) := by
  rw [div_eq_mul_one_div x, div_eq_mul_one_div v]
  exact h.mul_right (one_div_nonneg.2 ht)

/-- Ten roundings do not make up a factor of two. -/
theorem slack_pow_le_two (hk : k ≤ 10) : slack ^ k ≤ 2 := by
  refine le_trans (pow_le_pow_right₀ one_le_slack hk) ?_
  unfold slack
  norm_num

/-- Within ten roundings the computed number is at most twice the exact one. -/
theorem le_two_mul (h : Near k x v) (hk : k ≤ 10) (hv : 0 ≤ v) : x ≤ 2 * v := by
  have := mul_le_mul_of_nonneg_left (slack_pow_le_two hk) hv
  linarith [h.le_exact]

/-- Within ten roundings the exact number is at most twice the computed one. -/
theorem exact_le_two_mul (h : Near k x v) (hk : k ≤ 10) (hx : 0 ≤ x) : v ≤ 2 * x := by
  have := mul_le_mul_of_nonneg_left (slack_pow_le_two hk) hx
  linarith [h.exact_le]

end Near

/-! ## One rounding -/

variable {a b : ℕ}

/-- **A rounding costs one factor**, of a whole number or with 52 bits.  With 52 bits the error
    of half a unit in the last place is at most `a / 2 ^ 53`; a whole number with fewer bits is
    exact. -/
theorem near_nearest (hb : 0 < b) (h : b = 1 ∨ 2 ^ 52 * b ≤ a) :
    Near 1 (nearest a b : ℚ) (a / b) := by
  have hpos : (0 : ℚ) < b := Nat.cast_pos.2 hb
  by_cases hlarge : 2 ^ 52 * b ≤ a
  · -- the error of the rounding, cleared of the denominator and moved to the rationals
    obtain ⟨hhigh, hlow⟩ := nearest_error hb hlarge
    have hhigh' : (2 ^ 53 * (nearest a b * b) : ℚ) ≤ 2 ^ 53 * a + a := by exact_mod_cast hhigh
    have hlow' : (2 ^ 53 * a : ℚ) ≤ 2 ^ 53 * (nearest a b * b) + a := by exact_mod_cast hlow
    have ha : (0 : ℚ) ≤ a := Nat.cast_nonneg a
    constructor
    · rw [div_le_iff₀ hpos, pow_one, slack]
      linarith
    · rw [div_mul_eq_mul_div, le_div_iff₀ hpos, pow_one, slack]
      linarith
  · -- a small whole number is not rounded at all
    obtain rfl : b = 1 := h.resolve_right hlarge
    have hgrid : OnGrid a := ⟨a, 0, by simp at hlarge ⊢; omega, rfl⟩
    rw [nearest_one_of_onGrid hgrid, Nat.cast_one, div_one]
    exact (Near.refl _).mono (Nat.cast_nonneg a) (Nat.zero_le 1)

/-- The case of a whole number of quanta, without the division. -/
theorem near_nearest_one (a : ℕ) : Near 1 (nearest a 1 : ℚ) a := by
  have h := near_nearest (a := a) Nat.one_pos (.inl rfl)
  rwa [Nat.cast_one, div_one] at h

/-- A rounded whole number is less than twice as large. -/
theorem nearest_one_le (a : ℕ) : nearest a 1 ≤ 2 * a := by
  have h := (near_nearest_one a).le_two_mul (by decide) (Nat.cast_nonneg a)
  exact_mod_cast h

/-! ## Operations

  `x.Is negative a` says that `x` has `a` quanta and the sign.  A zero may come out with either
  sign, which `IsNonneg` allows, since no later sum or difference tells the two apart. -/

variable {x y : Binary64} {negative : Bool} {i : ℕ}

/-- The value of a number with a positive sign. -/
theorem Is.toRat (hx : x.Is false a) : x.toRat = a / unit := by
  obtain ⟨_, rfl⟩ := hx
  rfl

/-- The number is not negative; a zero may have either sign. -/
def IsNonneg (x : Binary64) (a : ℕ) : Prop := ∃ negative, x.Is negative a ∧ (negative = true → a = 0)

/-- A number with a positive sign is not negative. -/
theorem Is.isNonneg (hx : x.Is false a) : x.IsNonneg a := ⟨false, hx, nofun⟩

/-- The value does not depend on the sign that a zero has. -/
theorem IsNonneg.toRat (hx : x.IsNonneg a) : x.toRat = a / unit := by
  obtain ⟨negative, ⟨_, rfl⟩, hzero⟩ := hx
  cases negative with
  | false => rfl
  | true =>
    obtain rfl := hzero rfl
    rfl

/-- A number above zero has the positive sign. -/
theorem IsNonneg.is_of_pos (hx : x.IsNonneg a) (ha : 0 < a) : x.Is false a := by
  obtain ⟨negative, his, hzero⟩ := hx
  cases negative with
  | false => exact his
  | true => exact absurd (hzero rfl) (Nat.ne_of_gt ha)

/-- A finite number whose value is not negative has its quanta, and a minus only in front of a
    zero. -/
theorem exists_isNonneg (hfinite : x.isFinite = true) (hx : 0 ≤ x.toRat) : ∃ a, x.IsNonneg a := by
  cases x with
  | nan => cases hfinite
  | infinite s => cases hfinite
  | finite s m h =>
    refine ⟨m, s, ⟨h, rfl⟩, ?_⟩
    rintro rfl
    have hunit : (0 : ℚ) < unit := Nat.cast_pos.2 unit_pos
    have hsigned := (le_div_iff₀ hunit).1 hx
    rw [zero_mul] at hsigned
    have hint : (0 : ℤ) ≤ -(m : ℤ) := by exact_mod_cast hsigned
    omega

/-- Zero is not rounded. -/
theorem rounded_zero (negative : Bool) : rounded negative 0 1 = signedZero negative := by
  unfold rounded signedZero
  rw [dif_pos (by rw [nearest_zero]; exact limit_pos)]
  simp only [nearest_zero]

/-- A sum is the rounded exact one.  The second number may be a negative zero; then the sum is
    formed by subtracting no quanta, which gives the first number again. -/
theorem Is.add (hx : x.Is false a) (hy : y.IsNonneg b) (h : a + b ≤ 2 ^ 100 * unit) :
    (x + y).Is false (nearest (a + b) 1) := by
  have hsum : x + y = rounded false (a + b) 1 := by
    obtain ⟨_, rfl⟩ := hx
    obtain ⟨negative, ⟨_, rfl⟩, hzero⟩ := hy
    show Binary64.add _ _ = _
    cases negative with
    | false => rw [Binary64.add, if_pos rfl]
    | true =>
      -- a negative zero: the branch of opposite signs, with nothing to take off
      obtain rfl := hzero rfl
      rw [Binary64.add, if_neg Bool.false_ne_true]
      rcases Nat.eq_zero_or_pos a with rfl | hpos
      · rw [if_neg (Nat.lt_irrefl 0), if_neg (Nat.lt_irrefl 0), rounded_zero]
      · rw [if_pos hpos, Nat.sub_zero, Nat.add_zero]
  rw [hsum]
  exact is_rounded false Nat.one_pos (by rwa [Nat.mul_one])

/-- A difference is the rounded exact one.  It is a sum with the opposite sign; where both
    numbers are equal the branch of cancellation gives zero, as rounding zero does. -/
theorem Is.sub (hx : x.Is false a) (hy : y.IsNonneg b) (hle : b ≤ a) (h : a ≤ 2 ^ 100 * unit) :
    (x - y).Is false (nearest (a - b) 1) := by
  have hdifference : x - y = rounded false (a - b) 1 := by
    obtain ⟨_, rfl⟩ := hx
    obtain ⟨negative, ⟨_, rfl⟩, hzero⟩ := hy
    show Binary64.sub _ _ = _
    rw [Binary64.sub]
    cases negative with
    | false =>
      rw [Binary64.neg, Binary64.add, if_neg (by decide)]
      rcases Nat.lt_or_eq_of_le hle with hlt | rfl
      · rw [if_pos hlt]
      · rw [if_neg (Nat.lt_irrefl _), if_neg (Nat.lt_irrefl _), Nat.sub_self, rounded_zero]
    | true =>
      -- a negative zero becomes a positive one, and the signs agree
      obtain rfl := hzero rfl
      rw [Binary64.neg, Binary64.add, if_pos (by decide), Nat.add_zero, Nat.sub_zero]
  rw [hdifference]
  exact is_rounded false Nat.one_pos (by omega)

/-- A product with a natural is the rounded exact one; the unit of the natural's quanta cancels. -/
theorem Is.natural_mul (hy : y.Is false (i * unit)) (hx : x.Is negative a)
    (h : a * i ≤ 2 ^ 100 * unit) : (y * x).Is negative (nearest (a * i) 1) := by
  have hcomm : y * x = x * y := by
    obtain ⟨_, rfl⟩ := hx
    obtain ⟨_, rfl⟩ := hy
    show Binary64.mul _ _ = Binary64.mul _ _
    rw [Binary64.mul, Binary64.mul, bne_comm, Nat.mul_comm]
  rw [hcomm]
  exact hx.mul_natural hy h

/-- Naturals are written as numbers by `ofNat`. -/
theorem natCast_eq_ofNat : (Nat.cast : ℕ → Binary64) = ofNat := rfl

/-- Small naturals are exact. -/
theorem is_natCast (h : i < 2 ^ 53) : (i : Binary64).Is false (i * unit) := by
  rw [natCast_eq_ofNat]
  exact is_ofNat h

/-- A natural of at most 53 bits has its own value. -/
theorem toRat_ofNat (h : i < 2 ^ 53) : (ofNat i).toRat = i := by
  rw [(is_ofNat h).toRat, Nat.cast_mul, mul_div_cancel_right₀ _ unit_ne_zero]

/-- Sums of small naturals are exact, for the sum has at most 53 bits itself. -/
theorem is_natCast_add {j : ℕ} (h : i + j < 2 ^ 53) :
    ((i : Binary64) + (j : Binary64)).Is false ((i + j) * unit) := by
  have hsum := (is_natCast (i := i) (by omega)).add (is_natCast (i := j) (by omega)).isNonneg
    (by rw [← Nat.add_mul]; exact Nat.mul_le_mul_right unit (by omega))
  rwa [← Nat.add_mul, nearest_one_of_onGrid (onGrid_mul_unit h)] at hsum

/-- Doubling is exact: the quanta keep their bits, one place further up. -/
theorem IsNonneg.double (hx : x.IsNonneg a) (h : a * 2 ≤ 2 ^ 100 * unit) :
    (((2 : ℕ) : Binary64) * x).IsNonneg (a * 2) := by
  obtain ⟨negative, his, hzero⟩ := hx
  have hgrid : OnGrid (a * 2) := by
    obtain ⟨⟨⟨m, e, hm, rfl⟩, _⟩, _⟩ := his
    exact ⟨m, e + 1, hm, by rw [Nat.shiftLeft_succ, Nat.mul_comm]⟩
  have hproduct := (is_natCast (i := 2) (by decide)).natural_mul his h
  rw [nearest_one_of_onGrid hgrid] at hproduct
  exact ⟨negative, hproduct, fun hneg => by rw [hzero hneg]⟩

end GanttChart.Binary64
