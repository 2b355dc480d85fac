/-
  Laws of rounding.

  Every operation of the format is exact arithmetic followed by `nearest`, so what holds of all of
  them is what holds of `nearest`: it is monotone, it leaves numbers of the format alone, it depends on
  the value of the fraction only, and its error is bounded.

  1. **The nearest natural.**  Rounding a fraction grows with its numerator, depends on the fraction
     only, and is off by half a unit at most.

  2. **The nearest magnitude.**  So does rounding to a last place, although the last place changes
     with the magnitude: at a power of two, where it does, both sides stay on their side
     (`Binary64.nearest_mono`).  A magnitude on the grid is its own nearest, and from 52 bits on the
     error is at most one part in 2 ^ 53 (`Binary64.nearest_error`).

  3. **Operations.**  A finite number with a sign and a magnitude (`Binary64.Is`) stays one under the
     operations, as long as the exact result is far from the last finite magnitude.
-/
import GanttChart.Proofs.Chart.Range
import Mathlib.Algebra.GroupWithZero.Nat

namespace GanttChart

/-! ## The nearest natural -/

/-- Rounding a fraction to a natural grows with the numerator. -/
theorem divHalfEven_mono {a a' : Nat} (b : Nat) (h : a ≤ a') : divHalfEven a b ≤ divHalfEven a' b := by
  rcases Nat.lt_or_eq_of_le (Nat.div_le_div_right (c := b) h) with hlt | heq
  · -- a greater quotient is at least the next natural, and rounding goes no further than that
    exact Nat.le_trans (divHalfEven_le a b) (Nat.le_trans hlt (le_divHalfEven a' b))
  · -- with the same quotient the remainders compare like the fractions
    have ha := Nat.div_add_mod a b
    have ha' := Nat.div_add_mod a' b
    have hmod : a % b ≤ a' % b := by
      rw [← heq] at ha'
      omega
    unfold divHalfEven
    rw [← heq]
    dsimp only
    (repeat' split) <;> omega

/-- Rounding does not see a common factor. -/
theorem divHalfEven_mul_right (a b : Nat) {c : Nat} (hc : 0 < c) :
    divHalfEven (a * c) (b * c) = divHalfEven a b := by
  have htwice : 2 * (a % b * c) = 2 * (a % b) * c := by rw [Nat.mul_assoc]
  unfold divHalfEven
  rw [Nat.mul_div_mul_right a b hc, Nat.mul_mod_mul_right, htwice]
  simp only [Nat.mul_lt_mul_right hc]

/-- A natural is its own nearest. -/
theorem divHalfEven_mul_self (a : Nat) {b : Nat} (hb : 0 < b) : divHalfEven (a * b) b = a := by
  have h := divHalfEven_mul_right a 1 hb
  rwa [Nat.one_mul, divHalfEven_one] at h

/-- The error is at most half a unit, on either side; stated without the fraction, times the
    divisor. -/
theorem divHalfEven_error (a : Nat) {b : Nat} (hb : 0 < b) :
    2 * (divHalfEven a b * b) ≤ 2 * a + b ∧ 2 * a ≤ 2 * (divHalfEven a b * b) + b := by
  have hmod := Nat.mod_lt a hb
  have hdiv : a / b * b + a % b = a := Nat.div_add_mod' a b
  have hsucc : (a / b + 1) * b = a / b * b + b := Nat.succ_mul _ _
  unfold divHalfEven
  dsimp only
  split
  · omega
  · split
    · rw [hsucc]
      omega
    · rcases Nat.mod_two_eq_zero_or_one (a / b) with heven | hodd
      · rw [heven, Nat.add_zero]
        omega
      · rw [hodd, hsucc]
        omega

namespace Binary64

/-! ## The nearest magnitude

  `nearest a b` scales the fraction down by the last place of its whole part, rounds to a
  natural, and scales back.  Two fractions with the same number of bits have the same last place,
  and the laws of `divHalfEven` carry over; otherwise a power of two lies between them. -/

/-- A last place is a power of two. -/
theorem lastPlace_eq (n : Nat) : lastPlace n = 2 ^ (n.log2 - 52) := by
  rw [lastPlace, Nat.one_shiftLeft]

/-- From 52 bits on a last place is at most one part in 2 ^ 52. -/
theorem lastPlace_mul_le {n : Nat} (h : 2 ^ 52 ≤ n) : lastPlace n * 2 ^ 52 ≤ n := by
  have hlog : 52 ≤ n.log2 := (Nat.le_log2 (by omega)).2 h
  rw [lastPlace_eq, ← Nat.pow_add, Nat.sub_add_cancel hlog]
  exact Nat.log2_self_le (by omega)

/-- Rounding does not lead past the next power of two.  Scaled down by the last place, the power
    of two is a natural above the quotient, and rounding does not pass a natural. -/
theorem nearest_le_two_pow {a b e : Nat} (h : a / b < 2 ^ e) : nearest a b ≤ 2 ^ e := by
  have hplace : (a / b).log2 - 52 ≤ e := by
    rcases Nat.eq_zero_or_pos (a / b) with hzero | hpos
    · rw [hzero]
      exact Nat.zero_le e
    · have := (Nat.log2_lt (by omega)).2 h
      omega
  have hfactor : 2 ^ (e - ((a / b).log2 - 52)) * lastPlace (a / b) = 2 ^ e := by
    rw [lastPlace_eq, ← Nat.pow_add, Nat.sub_add_cancel hplace]
  have hquotient : a / (b * lastPlace (a / b)) < 2 ^ (e - ((a / b).log2 - 52)) := by
    rw [← Nat.div_div_eq_div_mul, Nat.div_lt_iff_lt_mul (lastPlace_pos _), hfactor]
    exact h
  have hrounded : divHalfEven a (b * lastPlace (a / b)) ≤ 2 ^ (e - ((a / b).log2 - 52)) :=
    Nat.le_trans (divHalfEven_le _ _) hquotient
  calc nearest a b = divHalfEven a (b * lastPlace (a / b)) * lastPlace (a / b) := rfl
    _ ≤ 2 ^ (e - ((a / b).log2 - 52)) * lastPlace (a / b) := Nat.mul_le_mul_right _ hrounded
    _ = 2 ^ e := hfactor

/-- Rounding does not lead below the power of two before. -/
theorem two_pow_log2_le_nearest {a b : Nat} (h : a / b ≠ 0) : 2 ^ (a / b).log2 ≤ nearest a b := by
  have hfactor : 2 ^ ((a / b).log2 - ((a / b).log2 - 52)) * lastPlace (a / b) = 2 ^ (a / b).log2 := by
    rw [lastPlace_eq, ← Nat.pow_add, Nat.sub_add_cancel (Nat.sub_le _ _)]
  have hquotient : 2 ^ ((a / b).log2 - ((a / b).log2 - 52)) ≤ a / (b * lastPlace (a / b)) := by
    rw [← Nat.div_div_eq_div_mul, Nat.le_div_iff_mul_le (lastPlace_pos _), hfactor]
    exact Nat.log2_self_le h
  calc 2 ^ (a / b).log2 = 2 ^ ((a / b).log2 - ((a / b).log2 - 52)) * lastPlace (a / b) := hfactor.symm
    _ ≤ divHalfEven a (b * lastPlace (a / b)) * lastPlace (a / b) :=
      Nat.mul_le_mul_right _ (Nat.le_trans hquotient (le_divHalfEven _ _))
    _ = nearest a b := rfl

/-- **Rounding keeps the order.** -/
theorem nearest_mono {a a' : Nat} (b : Nat) (h : a ≤ a') : nearest a b ≤ nearest a' b := by
  have hquotient : a / b ≤ a' / b := Nat.div_le_div_right h
  rcases Nat.eq_zero_or_pos (a' / b) with hzero | hpos
  · -- below one both last places are that of zero
    have hzero' : a / b = 0 := Nat.le_zero.1 (Nat.le_trans hquotient (Nat.le_of_eq hzero))
    unfold nearest
    rw [hzero, hzero']
    exact Nat.mul_le_mul_right _ (divHalfEven_mono _ h)
  · by_cases hlog : (a / b).log2 = (a' / b).log2
    · -- with as many bits the last places agree
      have hplace : lastPlace (a / b) = lastPlace (a' / b) := by rw [lastPlace_eq, hlog, lastPlace_eq]
      unfold nearest
      rw [hplace]
      exact Nat.mul_le_mul_right _ (divHalfEven_mono _ h)
    · -- a power of two lies between the two
      have hbetween : a / b < 2 ^ (a' / b).log2 := by
        refine Nat.lt_of_not_le fun hpow => ?_
        have hne : a / b ≠ 0 := Nat.ne_of_gt (Nat.lt_of_lt_of_le (Nat.two_pow_pos _) hpow)
        have hlow := (Nat.le_log2 hne).2 hpow
        have hhigh : (a / b).log2 ≤ (a' / b).log2 :=
          (Nat.le_log2 (by omega)).2 (Nat.le_trans (Nat.log2_self_le hne) hquotient)
        omega
      exact Nat.le_trans (nearest_le_two_pow hbetween) (two_pow_log2_le_nearest (by omega))

/-- Zero is not rounded. -/
theorem nearest_zero (b : Nat) : nearest 0 b = 0 := by
  unfold nearest divHalfEven
  simp

/-- Rounding does not see a common factor of numerator and denominator. -/
theorem nearest_mul_right (a b : Nat) {c : Nat} (hc : 0 < c) :
    nearest (a * c) (b * c) = nearest a b := by
  unfold nearest
  dsimp only
  rw [Nat.mul_div_mul_right a b hc, Nat.mul_right_comm, divHalfEven_mul_right a _ hc]

/-- **What is on the grid stays**: the last place of a magnitude of 53 bits divides it. -/
theorem nearest_one_of_onGrid {n : Nat} (h : OnGrid n) : nearest n 1 = n := by
  obtain ⟨m, e, hm, rfl⟩ := h
  have hdvd : lastPlace (m <<< e) ∣ m <<< e := by
    rw [lastPlace_eq, Nat.shiftLeft_eq]
    rcases Nat.eq_zero_or_pos m with rfl | hpos
    · simp
    · -- 53 bits and `e` zeros: the last place is at most the place of the zeros
      have hlog : (m * 2 ^ e).log2 - 52 ≤ e := by
        have hlt : m * 2 ^ e < 2 ^ (53 + e) := by
          rw [Nat.pow_add]
          exact Nat.mul_lt_mul_of_pos_right hm (Nat.two_pow_pos e)
        have := (Nat.log2_lt (Nat.ne_of_gt (Nat.mul_pos hpos (Nat.two_pow_pos e)))).2 hlt
        omega
      exact Nat.dvd_mul_left_of_dvd (Nat.pow_dvd_pow 2 hlog) m
  obtain ⟨k, hk⟩ := hdvd
  unfold nearest
  rw [Nat.div_one]
  dsimp only
  generalize hp : lastPlace (m <<< e) = p at hk ⊢
  have hpos : 0 < p := hp ▸ lastPlace_pos _
  rw [hk, Nat.one_mul, Nat.mul_comm p k, divHalfEven_mul_self k hpos]

/-- Rounding does not lead past a number of the format. -/
theorem nearest_le_of_onGrid {a b g : Nat} (hb : 0 < b) (hg : OnGrid g) (h : a ≤ g * b) :
    nearest a b ≤ g := by
  have hscaled := nearest_mul_right g 1 hb
  rw [Nat.one_mul, nearest_one_of_onGrid hg] at hscaled
  exact Nat.le_trans (nearest_mono b h) (Nat.le_of_eq hscaled)

/-- **The error of rounding** is at most one part in 2 ^ 53: half a last place, which is at most
    one part in 2 ^ 52 once the whole part has 52 bits. -/
theorem nearest_error {a b : Nat} (hb : 0 < b) (h : 2 ^ 52 * b ≤ a) :
    2 ^ 53 * (nearest a b * b) ≤ 2 ^ 53 * a + a ∧ 2 ^ 53 * a ≤ 2 ^ 53 * (nearest a b * b) + a := by
  have hbits : 2 ^ 52 ≤ a / b := (Nat.le_div_iff_mul_le hb).2 h
  have hplace : b * lastPlace (a / b) * 2 ^ 52 ≤ a := by
    rw [Nat.mul_assoc]
    exact Nat.le_trans (Nat.mul_le_mul_left b (lastPlace_mul_le hbits)) (Nat.mul_div_le a b)
  obtain ⟨hhigh, hlow⟩ := divHalfEven_error a (Nat.mul_pos hb (lastPlace_pos (a / b)))
  have hvalue : nearest a b * b =
      divHalfEven a (b * lastPlace (a / b)) * (b * lastPlace (a / b)) := by
    unfold nearest
    rw [Nat.mul_assoc, Nat.mul_comm (lastPlace (a / b)) b]
  rw [hvalue]
  omega

/-! ## Operations

  The unit and the limit are numbers of a thousand bits and more.  Nothing below computes with
  them: a bound says that they are far apart, and products with the unit are cancelled. -/

/-- The unit and the limit are powers of two, far from one and from each other. -/
theorem exists_unit_eq : ∃ e f, 100 ≤ e ∧ e + 200 ≤ f ∧ unit = 2 ^ e ∧ limit = 2 ^ f := by
  have hshift : ∀ n : Nat, 1 <<< n = 2 ^ n := Nat.one_shiftLeft
  refine ⟨1074, 2098, by decide, by decide, ?_, ?_⟩
  · unfold unit
    exact hshift 1074
  · unfold limit
    exact hshift 2098

/-- The unit has a hundred bits and more. -/
theorem two_pow_le_unit : 2 ^ 100 ≤ unit := by
  obtain ⟨e, _, hle, _, he, _⟩ := exists_unit_eq
  rw [he]
  exact Nat.pow_le_pow_right (by decide) hle

/-- A natural of 53 bits is on the grid. -/
theorem onGrid_mul_unit {n : Nat} (h : n < 2 ^ 53) : OnGrid (n * unit) := by
  obtain ⟨e, _, _, _, he, _⟩ := exists_unit_eq
  exact ⟨n, e, h, by rw [he, Nat.shiftLeft_eq]⟩

/-- A power of two is on the grid. -/
theorem onGrid_two_pow_mul_unit (e : Nat) : OnGrid (2 ^ e * unit) := by
  obtain ⟨f, _, _, _, hf, _⟩ := exists_unit_eq
  exact ⟨1, e + f, by decide, by rw [hf, Nat.shiftLeft_eq, Nat.one_mul, Nat.pow_add]⟩

/-- The finite number with a sign and a magnitude. -/
def Is (x : Binary64) (negative : Bool) (quanta : Nat) : Prop := ∃ h, x = .finite negative quanta h

/-- Magnitudes up to 2 ^ 100 are far from the last one, so rounding them gives a finite number. -/
theorem is_rounded (negative : Bool) {a b : Nat} (hb : 0 < b) (h : a ≤ 2 ^ 100 * unit * b) :
    (rounded negative a b).Is negative (nearest a b) := by
  have hle : nearest a b ≤ 2 ^ 100 * unit := nearest_le_of_onGrid hb (onGrid_two_pow_mul_unit 100) h
  have hlimit : 2 ^ 100 * unit < limit := by
    obtain ⟨e, f, _, hle, he, hf⟩ := exists_unit_eq
    rw [he, hf, ← Nat.pow_add]
    exact Nat.pow_lt_pow_right (by decide) (by omega)
  have hlt : nearest a b < limit := Nat.lt_of_le_of_lt hle hlimit
  exact ⟨⟨nearest_onGrid a b, hlt⟩, dif_pos hlt⟩

/-- The number of an integer is finite, with the integer's sign. -/
theorem is_ofInt {n : Int} (h : n.natAbs ≤ 2 ^ 100) :
    (ofInt n).Is (decide (n < 0)) (nearest (n.natAbs * unit) 1) := by
  refine is_rounded _ Nat.one_pos ?_
  rw [Nat.mul_one]
  exact Nat.mul_le_mul_right unit h

/-- Naturals below 2 ^ 53 are numbers. -/
theorem is_ofNat {n : Nat} (h : n < 2 ^ 53) : (ofNat n).Is false (n * unit) := by
  have his : (ofNat n).Is false (nearest (n * unit) 1) := by
    refine is_rounded _ Nat.one_pos ?_
    rw [Nat.mul_one]
    exact Nat.mul_le_mul_right unit (by omega)
  rwa [nearest_one_of_onGrid (onGrid_mul_unit h)] at his

variable {x y : Binary64} {negative : Bool} {a : Nat}

/-- Such a number is finite. -/
theorem Is.isFinite (hx : x.Is negative a) : x.isFinite = true := by
  obtain ⟨_, rfl⟩ := hx
  rfl

/-- The quotient by a natural is the rounded fraction of the quanta; the natural's unit cancels. -/
theorem Is.div_natural (hx : x.Is negative a) {k : Nat} (hk : 0 < k) (hy : y.Is false (k * unit))
    (h : a ≤ 2 ^ 100 * unit) : (x / y).Is negative (nearest a k) := by
  obtain ⟨_, rfl⟩ := hx
  obtain ⟨_, rfl⟩ := hy
  have hne : k * unit ≠ 0 := Nat.ne_of_gt (Nat.mul_pos hk unit_pos)
  have hquotient : rounded (negative != false) (a * unit) (k * unit) = rounded negative a k := by
    unfold rounded
    simp only [nearest_mul_right a k unit_pos, Bool.bne_false]
  show (div (.finite negative a _) (.finite false (k * unit) _)).Is negative (nearest a k)
  rw [div, if_neg hne, hquotient]
  exact is_rounded negative hk (Nat.le_trans h (Nat.le_mul_of_pos_right _ hk))

/-- The product with a natural is the rounded product of the quanta. -/
theorem Is.mul_natural (hx : x.Is negative a) {i : Nat} (hy : y.Is false (i * unit))
    (h : a * i ≤ 2 ^ 100 * unit) : (x * y).Is negative (nearest (a * i) 1) := by
  obtain ⟨_, rfl⟩ := hx
  obtain ⟨_, rfl⟩ := hy
  have hproduct : rounded (negative != false) (a * (i * unit)) unit = rounded negative (a * i) 1 := by
    have hnearest := nearest_mul_right (a * i) 1 unit_pos
    rw [Nat.one_mul] at hnearest
    unfold rounded
    simp only [← Nat.mul_assoc, hnearest, Bool.bne_false]
  show (mul (.finite negative a _) (.finite false (i * unit) _)).Is negative (nearest (a * i) 1)
  rw [mul, hproduct]
  exact is_rounded negative Nat.one_pos (by rwa [Nat.mul_one])

/-- The nearest whole number of units, halves up. -/
def wholeUnits (quanta : Nat) : Nat := (2 * quanta + unit) / (2 * unit)

/-- Rounding to whole units keeps the order. -/
theorem wholeUnits_mono {a a' : Nat} (h : a ≤ a') : wholeUnits a ≤ wholeUnits a' :=
  Nat.div_le_div_right (by omega)

/-- Rounding to a whole number gives whole units, as long as they are few enough to be finite. -/
theorem Is.round (hx : x.Is negative a) (h : wholeUnits a ≤ 2 ^ 100) :
    (Binary64.round x).Is negative (nearest (wholeUnits a * unit) 1) := by
  obtain ⟨_, rfl⟩ := hx
  refine is_rounded negative Nat.one_pos ?_
  rw [Nat.mul_one]
  exact Nat.mul_le_mul_right unit h

/-- The integer part is that of the magnitude, with the sign, held between the bounds. -/
theorem Is.toIntWithin (hx : x.Is negative a) (low high : Int) :
    x.toIntWithin low high = max low (Min.min high (signed negative (a / unit))) := by
  obtain ⟨_, rfl⟩ := hx
  rfl

end Binary64

end GanttChart
