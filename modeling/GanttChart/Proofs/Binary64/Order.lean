/-
  The order of computed numbers.

  Connectors are routed with sums, bounds and comparisons of binary64 numbers, and their course is a
  matter of order only.  What is needed is monotone arithmetic that holds for every input, infinities
  and overflow included, so errors are not estimated here.

  1. **Ranks.**  The rank of a number is an integer, its quanta with the sign, and the limit for an
     infinity.  Numbers compare as their ranks do (`le_iff_rank_le`), and so finite numbers compare as
     their exact values do (`le_iff_toRat_le`).  A not-a-number is not comparable, not even to itself.

  2. **Sums.**  The rank of a sum of finite numbers is that of the exact sum, rounded (`rank_add`), and
     rounding keeps the order (`roundedRank_mono`).  So a sum grows with what is added
     (`add_le_add_left`), and adding what is not negative does not lead down (`le_add_of_nonneg`), also
     where the sum is rounded down or overflows.

  3. **Holding back.**  A step up that is held back to a bound does not lead down, if it starts below the
     bound (`le_min_add`).
-/
import GanttChart.Proofs.Binary64.Error

namespace GanttChart.Binary64

variable {a b c x y z : Binary64}

/-! ## Ranks

  The infinities are given the first integers that no finite magnitude reaches, so that one
  comparison of integers stands for the four cases of `lt`. -/

/-- A number, finite or not. -/
def IsNumber (x : Binary64) : Prop := x ≠ .nan

/-- Both are numbers, and the second is not less. -/
instance : LE Binary64 := ⟨fun a b => a.IsNumber ∧ b.IsNumber ∧ lt b a = false⟩

instance (x : Binary64) : Decidable x.IsNumber := inferInstanceAs (Decidable (x ≠ .nan))

instance (a b : Binary64) : Decidable (a ≤ b) :=
  inferInstanceAs (Decidable (a.IsNumber ∧ b.IsNumber ∧ lt b a = false))

/-- The place of a number in the order; an infinity stands at the limit, which no finite number is at. -/
def rank : Binary64 → Int
  | .nan => 0
  | .infinite s => signed s limit
  | .finite s m _ => signed s m

/-- The plus sign changes nothing. -/
theorem signed_false (n : Nat) : signed false n = n := rfl

/-- The minus sign is the negation of integers. -/
theorem signed_true (n : Nat) : signed true n = -n := rfl

/-- Both zeros count as the integer zero. -/
theorem signed_zero (s : Bool) : signed s 0 = 0 := by
  cases s <;> rfl

/-- Magnitudes of one sign add up. -/
theorem signed_add (s : Bool) (m n : Nat) : signed s (m + n) = signed s m + signed s n := by
  cases s with
  | false => exact Int.natCast_add m n
  | true =>
    rw [signed_true, signed_true, signed_true]
    omega

/-- Taking off a magnitude is adding it with the other sign. -/
theorem signed_sub (s : Bool) {m n : Nat} (h : n ≤ m) :
    signed s (m - n) = signed s m + signed (!s) n := by
  have hsum := signed_add s (m - n) n
  rw [Nat.sub_add_cancel h] at hsum
  rw [signed_not]
  omega

/-- A sign keeps a number within its magnitude. -/
theorem signed_bounds (s : Bool) (n : Nat) : -(n : Int) ≤ signed s n ∧ signed s n ≤ n := by
  rw [signed]
  split
  · exact ⟨Int.le_refl _, by omega⟩
  · exact ⟨by omega, Int.le_refl _⟩

/-- A finite number stays strictly between the infinities. -/
theorem rank_finite_bounds (s : Bool) {m : Nat} (h : IsMagnitude m) :
    -(limit : Int) < signed s m ∧ signed s m < limit := by
  have hbounds := signed_bounds s m
  have hlt := h.2
  omega

/-- The infinities are the ends of the order. -/
theorem rank_bounds (x : Binary64) : -(limit : Int) ≤ x.rank ∧ x.rank ≤ limit := by
  cases x with
  | nan =>
    show -(limit : Int) ≤ 0 ∧ (0 : Int) ≤ limit
    omega
  | infinite s => exact signed_bounds s limit
  | finite s m h =>
    have hbounds := rank_finite_bounds s h
    exact ⟨Int.le_of_lt hbounds.1, Int.le_of_lt hbounds.2⟩

/-- Numbers compare as their ranks do.  Two infinities are compared by their signs, and an
    infinity with a finite number by the infinity's sign, since the limit is beyond any
    magnitude. -/
theorem lt_eq_decide_rank_lt (ha : a.IsNumber) (hb : b.IsNumber) :
    lt a b = decide (a.rank < b.rank) := by
  have hlimit := limit_pos
  cases a with
  | nan => exact absurd rfl ha
  | infinite s =>
    cases b with
    | nan => exact absurd rfl hb
    | infinite t =>
      show (s && !t) = decide (signed s limit < signed t limit)
      cases s <;> cases t <;> simp [signed_false, signed_true]
      omega
    | finite t n h =>
      have hbounds := rank_finite_bounds t h
      -- an infinity and a finite number: the sign of the infinity decides
      show s = decide (signed s limit < signed t n)
      cases s with
      | false => exact (decide_eq_false (Int.not_lt.2 (Int.le_of_lt hbounds.2))).symm
      | true => exact (decide_eq_true hbounds.1).symm
  | finite s m h =>
    cases b with
    | nan => exact absurd rfl hb
    | infinite t =>
      have hbounds := rank_finite_bounds s h
      -- a finite number and an infinity
      show (!t) = decide (signed s m < signed t limit)
      cases t with
      | false => exact (decide_eq_true hbounds.2).symm
      | true => exact (decide_eq_false (Int.not_lt.2 (Int.le_of_lt hbounds.1))).symm
    | finite t n _ => rfl

/-- **The order is that of the ranks**, among numbers. -/
theorem le_iff_rank_le : a ≤ b ↔ a.IsNumber ∧ b.IsNumber ∧ a.rank ≤ b.rank := by
  show a.IsNumber ∧ b.IsNumber ∧ lt b a = false ↔ _
  refine and_congr_right fun ha => and_congr_right fun hb => ?_
  rw [lt_eq_decide_rank_lt hb ha, decide_eq_false_iff_not, Int.not_lt]

/-- The order is reflexive on numbers; a not-a-number is not at most itself. -/
protected theorem le_refl (hx : x.IsNumber) : x ≤ x := le_iff_rank_le.2 ⟨hx, hx, Int.le_refl _⟩

/-- The order is transitive. -/
protected theorem le_trans (hab : a ≤ b) (hbc : b ≤ c) : a ≤ c := by
  obtain ⟨ha, _, hrank⟩ := le_iff_rank_le.1 hab
  obtain ⟨_, hc, hrank'⟩ := le_iff_rank_le.1 hbc
  exact le_iff_rank_le.2 ⟨ha, hc, Int.le_trans hrank hrank'⟩

instance : @Trans Binary64 Binary64 Binary64 (· ≤ ·) (· ≤ ·) (· ≤ ·) := ⟨Binary64.le_trans⟩

/-- Finite numbers are numbers. -/
theorem isNumber_of_isFinite (hx : x.isFinite = true) : x.IsNumber := by
  rintro rfl
  cases hx

/-- **The order is that of the exact values**, of finite numbers: both are ranks over the same
    unit. -/
theorem le_iff_toRat_le (ha : a.isFinite = true) (hb : b.isFinite = true) :
    a ≤ b ↔ a.toRat ≤ b.toRat := by
  have hunit : (0 : ℚ) < unit := Nat.cast_pos.2 unit_pos
  rw [le_iff_rank_le, and_iff_right (isNumber_of_isFinite ha),
    and_iff_right (isNumber_of_isFinite hb)]
  cases a with
  | nan => cases ha
  | infinite s => cases ha
  | finite s m _ =>
    cases b with
    | nan => cases hb
    | infinite t => cases hb
    | finite t n _ =>
      show signed s m ≤ signed t n ↔ (signed s m : ℚ) / unit ≤ (signed t n : ℚ) / unit
      rw [div_le_div_iff_of_pos_right hunit, Int.cast_le]

/-! ## Sums

  A sum is taken apart once, in `rank_add`: two signs and the greater magnitude decide the
  branch, and every branch rounds the same integer.  All that follows is order of integers. -/

/-- The rank of a number of quanta, rounded. -/
def roundedRank (n : Int) : Int := signed (decide (n < 0)) (Min.min (nearest n.natAbs 1) limit)

/-- The rank of a rounded number; past the limit the number is infinite, and its rank the limit. -/
theorem rank_rounded (s : Bool) (m n : Nat) :
    (rounded s m n).rank = signed s (Min.min (nearest m n) limit) := by
  rw [rounded]
  split
  · rename_i hlt
    rw [Nat.min_eq_left (Nat.le_of_lt hlt)]
    rfl
  · rename_i hle
    rw [Nat.min_eq_right (Nat.not_lt.1 hle)]
    rfl

/-- Rounding a signed number rounds its magnitude. -/
theorem roundedRank_signed (s : Bool) (n : Nat) :
    roundedRank (signed s n) = signed s (Min.min (nearest n 1) limit) := by
  rw [roundedRank]
  cases s with
  | false =>
    rw [signed_false, Int.natAbs_natCast, decide_eq_false (by omega)]
  | true =>
    rcases Nat.eq_zero_or_pos n with rfl | hpos
    · -- there is no negative zero among the integers
      rw [signed_zero, Int.natAbs_zero, nearest_zero, Nat.zero_min, signed_zero, signed_zero]
    · rw [signed_true, Int.natAbs_neg, Int.natAbs_natCast, decide_eq_true (by omega)]

/-- **Rounding keeps the order**, of numbers with a sign.  Rounding of magnitudes is monotone
    (`nearest_mono`), so there are three cases: both negative, where the magnitudes are the other
    way round, of different signs, and neither negative. -/
theorem roundedRank_mono {m n : Int} (h : m ≤ n) : roundedRank m ≤ roundedRank n := by
  have hheld : ∀ {i j : Nat}, i ≤ j →
      Min.min (nearest i 1) limit ≤ Min.min (nearest j 1) limit := by
    intro i j hij
    have := nearest_mono 1 hij
    omega
  unfold roundedRank signed
  rcases Int.lt_or_le m 0 with hm | hm
  · rw [if_pos (decide_eq_true hm)]
    rcases Int.lt_or_le n 0 with hn | hn
    · -- of two negative numbers the lesser one has the greater magnitude
      have := hheld (by omega : n.natAbs ≤ m.natAbs)
      rw [if_pos (decide_eq_true hn)]
      omega
    · -- a negative rank is at most zero, and one that is not negative at least zero
      rw [if_neg (by simp [hn])]
      omega
  · have := hheld (by omega : m.natAbs ≤ n.natAbs)
    rw [if_neg (by simp [hm]), if_neg (by simp; omega)]
    omega

/-- A finite number is on the grid of the format, so it is not rounded again. -/
theorem roundedRank_rank (hx : x.isFinite = true) : roundedRank x.rank = x.rank := by
  cases x with
  | nan => cases hx
  | infinite s => cases hx
  | finite s m h =>
    show roundedRank (signed s m) = signed s m
    rw [roundedRank_signed, nearest_one_of_onGrid h.1, Nat.min_eq_left (Nat.le_of_lt h.2)]

/-- **The rank of a sum** is that of the exact one, rounded.  Equal signs add magnitudes; with
    opposite signs the greater magnitude gives the sign, and equal ones leave a positive zero. -/
theorem rank_add (hx : x.isFinite = true) (hy : y.isFinite = true) :
    (x + y).rank = roundedRank (x.rank + y.rank) := by
  cases x with
  | nan => cases hx
  | infinite s => cases hx
  | finite s m h =>
    cases y with
    | nan => cases hy
    | infinite t => cases hy
    | finite t n h' =>
      show (add (.finite s m h) (.finite t n h')).rank = roundedRank (signed s m + signed t n)
      rw [add]
      by_cases hsame : s = t
      · subst hsame
        rw [if_pos rfl, rank_rounded, ← roundedRank_signed, signed_add]
      · obtain rfl : t = !s := Bool.eq_not.2 (Ne.symm hsame)
        rw [if_neg hsame]
        rcases Nat.lt_trichotomy m n with hlt | rfl | hgt
        · -- the second magnitude is greater, so the sum has its sign
          rw [if_neg (Nat.lt_asymm hlt), if_pos hlt, rank_rounded, ← roundedRank_signed,
            signed_sub _ (Nat.le_of_lt hlt), Bool.not_not, Int.add_comm]
        · -- equal magnitudes cancel
          rw [if_neg (Nat.lt_irrefl m), if_neg (Nat.lt_irrefl m), ← signed_sub s (Nat.le_refl m),
            Nat.sub_self, roundedRank_signed, nearest_zero, Nat.zero_min, signed_zero]
          rfl
        · -- the first magnitude is greater
          rw [if_pos hgt, rank_rounded, ← roundedRank_signed, signed_sub _ (Nat.le_of_lt hgt)]

/-- An infinity stays. -/
theorem infinite_add (s : Bool) (hy : y.isFinite = true) : infinite s + y = infinite s := by
  cases y with
  | nan => cases hy
  | infinite t => cases hy
  | finite t n _ => rfl

/-- An infinity that is added is the sum, if that is a number. -/
theorem add_infinite {t : Bool} (h : (x + infinite t).IsNumber) : x + infinite t = infinite t := by
  cases x with
  | nan => exact absurd rfl h
  | infinite s =>
    by_cases hsame : s = t
    · exact (if_pos hsame).trans (congrArg infinite hsame)
    · exact absurd (if_neg hsame) h
  | finite s m _ => rfl

/-- A finite number is not the not-a-number. -/
theorem isNumber_finite (s : Bool) {m : Nat} (h : IsMagnitude m) : (finite s m h).IsNumber := by
  intro hnan
  cases hnan

/-- An infinity is a number. -/
theorem isNumber_infinite (s : Bool) : (infinite s).IsNumber := by
  intro hnan
  cases hnan

/-- Rounding gives a number, infinite if need be. -/
theorem isNumber_rounded (s : Bool) (m n : Nat) : (rounded s m n).IsNumber := by
  rw [rounded]
  split
  · exact isNumber_finite s _
  · exact isNumber_infinite s

/-- A sum with a finite number is a number; only two opposite infinities have none. -/
theorem isNumber_add (hx : x.IsNumber) (hy : y.isFinite = true) : (x + y).IsNumber := by
  cases y with
  | nan => cases hy
  | infinite t => cases hy
  | finite t n h' =>
    cases x with
    | nan => exact absurd rfl hx
    | infinite s => exact isNumber_infinite s
    | finite s m h =>
      show (add (.finite s m h) (.finite t n h')).IsNumber
      rw [add]
      split_ifs
      · exact isNumber_rounded _ _ _
      · exact isNumber_rounded _ _ _
      · exact isNumber_rounded _ _ _
      · exact isNumber_finite false isMagnitude_zero

/-- **A sum grows with what is added.**  An infinity stays what it is, and finite sums are
    rounded exact ones. -/
protected theorem add_le_add_left (hx : x.IsNumber) (hy : y.isFinite = true)
    (hz : z.isFinite = true) (h : y ≤ z) : x + y ≤ x + z := by
  refine le_iff_rank_le.2 ⟨isNumber_add hx hy, isNumber_add hx hz, ?_⟩
  cases x with
  | nan => exact absurd rfl hx
  | infinite s => rw [infinite_add s hy, infinite_add s hz]
  | finite s m _ =>
    rw [rank_add rfl hy, rank_add rfl hz]
    exact roundedRank_mono (Int.add_le_add_left (le_iff_rank_le.1 h).2.2 _)

/-- Zero is finite. -/
theorem isFinite_zero : (0 : Binary64).isFinite = true := (is_ofNat (by decide)).isFinite

/-- Zero has the rank zero. -/
theorem rank_zero : (0 : Binary64).rank = 0 := by
  show (rounded _ (0 * unit) 1).rank = 0
  rw [Nat.zero_mul, rank_rounded, nearest_zero, Nat.zero_min, signed_zero]

/-- Not negative means a rank that is not negative. -/
theorem zero_le_iff : 0 ≤ x ↔ x.IsNumber ∧ 0 ≤ x.rank := by
  rw [le_iff_rank_le, rank_zero, and_iff_right (isNumber_of_isFinite isFinite_zero)]

/-- Nothing added changes nothing but the sign of a zero. -/
theorem rank_add_zero (hx : x.IsNumber) : (x + 0).rank = x.rank := by
  cases x with
  | nan => exact absurd rfl hx
  | infinite s => rw [infinite_add s isFinite_zero]
  | finite s m _ => rw [rank_add rfl isFinite_zero, rank_zero, Int.add_zero, roundedRank_rank rfl]

/-- An infinity that is not negative is the positive one. -/
theorem sign_of_zero_le_infinite {s : Bool} (h : 0 ≤ infinite s) : s = false := by
  have hrank : 0 ≤ signed s limit := (zero_le_iff.1 h).2
  have hlimit := limit_pos
  cases s with
  | false => rfl
  | true =>
    rw [signed_true] at hrank
    omega

/-- **What is not negative does not lead down**, unless the sum is not a number.  A finite step
    compares with a step of zero; an infinite one leads to the end of the order. -/
protected theorem le_add_of_nonneg (hx : x.IsNumber) (hy : 0 ≤ y) (hsum : (x + y).IsNumber) :
    x ≤ x + y := by
  refine le_iff_rank_le.2 ⟨hx, hsum, ?_⟩
  cases y with
  | nan => exact absurd rfl (zero_le_iff.1 hy).1
  | infinite t =>
    obtain rfl := sign_of_zero_le_infinite hy
    rw [add_infinite hsum]
    exact (rank_bounds x).2
  | finite t n _ =>
    calc x.rank = (x + 0).rank := (rank_add_zero hx).symm
      _ ≤ (x + .finite t n _).rank :=
        (le_iff_rank_le.1 (Binary64.add_le_add_left hx isFinite_zero rfl hy)).2.2

/-- What is not positive does not lead up; it compares with a step of zero. -/
protected theorem add_le_of_nonpos (hx : x.IsNumber) (hfinite : y.isFinite = true) (hy : y ≤ 0) :
    x + y ≤ x := by
  refine le_iff_rank_le.2 ⟨isNumber_add hx hfinite, hx, ?_⟩
  calc (x + y).rank ≤ (x + 0).rank :=
        (le_iff_rank_le.1 (Binary64.add_le_add_left hx hfinite isFinite_zero hy)).2.2
    _ = x.rank := rank_add_zero hx

/-- A finite number that is at least zero has its quanta, and a minus only in front of a zero. -/
theorem exists_isNonneg_of_zero_le (hfinite : x.isFinite = true) (hx : 0 ≤ x) :
    ∃ m, x.IsNonneg m := by
  have hzero : (0 : Binary64).toRat = (0 : ℕ) := toRat_ofNat (by decide)
  have hvalue := (le_iff_toRat_le isFinite_zero hfinite).1 hx
  rw [hzero, Nat.cast_zero] at hvalue
  exact exists_isNonneg hfinite hvalue

/-- A quotient of numbers that are not negative is not negative, if the divisor is not zero. -/
protected theorem div_nonneg {n : Nat} (hx : 0 ≤ x) (hy : y.Is false n) (hn : n ≠ 0) :
    0 ≤ x / y := by
  obtain ⟨_, rfl⟩ := hy
  cases hfinite : x.isFinite with
  | true =>
    obtain ⟨m, s, ⟨h, rfl⟩, hsign⟩ := exists_isNonneg_of_zero_le hfinite hx
    show 0 ≤ div (.finite s m h) (.finite false n _)
    rw [div, if_neg hn, Bool.bne_false]
    refine zero_le_iff.2 ⟨isNumber_rounded _ _ _, ?_⟩
    rw [rank_rounded]
    cases s with
    | false => exact Int.natCast_nonneg _
    -- only a negative zero has the minus here, and its quotient is a zero
    | true => rw [hsign rfl, Nat.zero_mul, nearest_zero, Nat.zero_min, signed_zero]
  | false =>
    cases x with
    | nan => exact absurd rfl (zero_le_iff.1 hx).1
    | infinite s =>
      obtain rfl := sign_of_zero_le_infinite hx
      exact hx
    | finite s m _ => cases hfinite

/-! ## Holding back -/

/-- The smaller of two numbers is picked by one comparison. -/
theorem min_of_isNumber (ha : a.IsNumber) : min a b = if lt b a then b else a := by
  cases a with
  | nan => exact absurd rfl ha
  | infinite s => rfl
  | finite s m _ => rfl

/-- A number that is held back is at most its bound; a not-a-number gives way to the bound. -/
protected theorem min_le_right (hb : b.IsNumber) : min a b ≤ b := by
  by_cases ha : a.IsNumber
  · rw [min_of_isNumber ha]
    split
    · exact Binary64.le_refl hb
    · rename_i hle
      exact ⟨ha, hb, Bool.eq_false_of_not_eq_true hle⟩
  · obtain rfl := not_not.1 ha
    exact Binary64.le_refl hb

/-- What is below both is below the smaller one; a not-a-number does not count. -/
protected theorem le_min (ha : a.IsNumber → c ≤ a) (hb : c ≤ b) : c ≤ min a b := by
  by_cases hnumber : a.IsNumber
  · rw [min_of_isNumber hnumber]
    split
    · exact hb
    · exact ha hnumber
  · obtain rfl := not_not.1 hnumber
    exact hb

/-- **A step up that is held back** does not lead down, wherever the step itself leads: it may
    pass the bound, overflow, or be no number at all. -/
theorem le_min_add (h : x ≤ b) (hy : 0 ≤ y) : x ≤ (x + y).min b :=
  Binary64.le_min (Binary64.le_add_of_nonneg h.1 hy) h

end GanttChart.Binary64
