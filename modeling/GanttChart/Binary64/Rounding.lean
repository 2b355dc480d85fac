/-
  Rounding to the magnitudes of binary64.

  A magnitude is counted in QUANTA of 2 ^ -1074, the least positive binary64 number, so every
  finite magnitude is a natural number and every exact sum, product or quotient is a fraction of
  naturals.  One rule then serves all operations:

  1. `divHalfEven a b`  — the natural nearest to `a / b`, the even one of two that are as near;
  2. `lastPlace n`      — the distance of neighbouring magnitudes about `n`: one quantum up to
                          2 ^ 53 quanta, and 53 significant bits from there on;
  3. `nearest a b`      — `a / b` rounded to a whole number of last places.

  `nearest_onGrid` is why the rule is right: its result has 53 significant bits again, also when
  rounding carries into the next power of two.  Whether it is still finite is for the caller, who
  compares it with `limit`.
-/
namespace GanttChart

/-- The natural nearest to `a / b`, the even one if two are as near. -/
def divHalfEven (a b : Nat) : Nat :=
  let quotient := a / b
  let twice := 2 * (a % b)
  if twice < b then quotient
  else if b < twice then quotient + 1
  else quotient + quotient % 2

/-- Rounding goes up by one at most. -/
theorem divHalfEven_le (a b : Nat) : divHalfEven a b ≤ a / b + 1 := by
  unfold divHalfEven
  dsimp only
  split
  · omega
  · split <;> omega

/-- And never down past the whole part. -/
theorem le_divHalfEven (a b : Nat) : a / b ≤ divHalfEven a b := by
  unfold divHalfEven
  dsimp only
  split
  · omega
  · split <;> omega

/-- A natural is rounded to itself. -/
@[simp] theorem divHalfEven_one (a : Nat) : divHalfEven a 1 = a := by
  simp [divHalfEven, Nat.mod_one]

namespace Binary64

/-- One, in quanta of 2 ^ -1074. -/
@[irreducible] def unit : Nat := 1 <<< 1074

/-- The power of two past the last finite magnitude, 2 ^ 1024, in quanta. -/
@[irreducible] def limit : Nat := 1 <<< 2098

/-- The distance of neighbouring magnitudes about `n` quanta. -/
def lastPlace (n : Nat) : Nat := 1 <<< (n.log2 - 52)

/-- `n` has at most 53 significant bits. -/
def OnGrid (n : Nat) : Prop := ∃ m e, m < 1 <<< 53 ∧ n = m <<< e

/-- `n` quanta are the magnitude of a finite number. -/
def IsMagnitude (n : Nat) : Prop := OnGrid n ∧ n < limit

/-- The quotient `a / b` to the nearest multiple of its last place, an even one at a tie. -/
def nearest (a b : Nat) : Nat :=
  let place := lastPlace (a / b)
  divHalfEven a (b * place) * place

/-- Neighbouring magnitudes differ. -/
theorem lastPlace_pos (n : Nat) : 0 < lastPlace n := by
  rw [lastPlace, Nat.one_shiftLeft]
  exact Nat.two_pow_pos _

/-- A magnitude has at most 53 bits down to its last place. -/
theorem div_lastPlace_lt (n : Nat) : n / lastPlace n < 1 <<< 53 := by
  have hn : n < 1 <<< (n.log2 + 1) := by
    rw [Nat.one_shiftLeft]
    exact Nat.lt_log2_self
  rw [Nat.div_lt_iff_lt_mul (lastPlace_pos n)]
  refine Nat.lt_of_lt_of_le hn ?_
  rw [lastPlace, Nat.one_shiftLeft, Nat.one_shiftLeft, Nat.one_shiftLeft, ← Nat.pow_add]
  exact Nat.pow_le_pow_right (by decide) (by omega)

/-- Rounding keeps to the grid. -/
theorem nearest_onGrid (a b : Nat) : OnGrid (nearest a b) := by
  let e := (a / b).log2 - 52
  let k := divHalfEven a (b * lastPlace (a / b))
  have hk : k ≤ 1 <<< 53 := by
    have h₁ : k ≤ a / (b * lastPlace (a / b)) + 1 := divHalfEven_le _ _
    have h₂ : a / b / lastPlace (a / b) < 1 <<< 53 := div_lastPlace_lt _
    rw [Nat.div_div_eq_div_mul] at h₂
    omega
  have hval : nearest a b = k <<< e := by
    rw [Nat.shiftLeft_eq, ← Nat.one_shiftLeft]
    rfl
  -- 53 bits of the last place, or the carry into the next power of two
  rcases Nat.lt_or_eq_of_le hk with h | h
  · exact ⟨k, e, h, hval⟩
  · refine ⟨1, 53 + e, by decide, ?_⟩
    rw [hval, h, Nat.shiftLeft_add]

/-- Zero is on the grid. -/
theorem onGrid_zero : OnGrid 0 := ⟨0, 0, by decide, rfl⟩

/-- One is not zero. -/
theorem unit_pos : 0 < unit := by
  rw [unit, Nat.one_shiftLeft]
  exact Nat.two_pow_pos 1074

/-- There are finite magnitudes. -/
theorem limit_pos : 0 < limit := by
  rw [limit, Nat.one_shiftLeft]
  exact Nat.two_pow_pos 2098

/-- Zero is a magnitude. -/
theorem isMagnitude_zero : IsMagnitude 0 := ⟨onGrid_zero, limit_pos⟩

end Binary64

end GanttChart
