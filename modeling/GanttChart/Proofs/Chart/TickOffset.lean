/-
  Offsets of ticks.

  A tick's offset is the length of the chart over the number of steps, times the position of the
  tick, each rounded, and then rounded to a whole millisecond (`Scale.tickOffset_eq`).

  1. **Order.**  Every step of this keeps the order, so offsets grow with the position, from 0 on
     (`Scale.tickOffset_mono`).

  2. **The last tick.**  Up to 2 ^ 51 milliseconds all roundings together are off by less than half a
     millisecond, so the last offset is the length (`Scale.tickOffset_last`).  No chart is longer
     than 2 ^ 54 milliseconds, and up to there the last offset is off by 10 at most
     (`Scale.tickOffset_last_near`).
-/
import GanttChart.Proofs.Binary64.Nearest

namespace GanttChart

open Binary64

/-! ## Magnitudes

  The first half of the module is about natural numbers: lengths, steps and distances in quanta,
  as the operations of binary64 round them.  The bounds make sure that no conversion to an
  integer saturates. -/

/-- The distance of a tick from the start in quanta, before it is rounded to whole milliseconds: `l`
    milliseconds in `k` steps, `i` of them. -/
def tickQuanta (l k i : Nat) : Nat := nearest (nearest (nearest (l * unit) 1) k * i) 1

/-- The distance of a tick from the start in milliseconds. -/
def tickMilliseconds (l k i : Nat) : Nat := nearest (wholeUnits (tickQuanta l k i) * unit) 1 / unit

variable {l k i j : Nat}

/-- A length of up to 2 ^ 54 milliseconds is rounded to no more than that. -/
theorem nearest_length_le (hl : l ≤ 2 ^ 54) : nearest (l * unit) 1 ≤ 2 ^ 54 * unit := by
  refine nearest_le_of_onGrid Nat.one_pos (onGrid_two_pow_mul_unit 54) ?_
  rw [Nat.mul_one]
  exact Nat.mul_le_mul_right unit hl

/-- A step is no longer than the chart. -/
theorem nearest_step_le (hl : l ≤ 2 ^ 54) (hk : 0 < k) :
    nearest (nearest (l * unit) 1) k ≤ 2 ^ 54 * unit :=
  Nat.le_trans (nearest_le_of_onGrid hk (nearest_onGrid _ 1) (Nat.le_mul_of_pos_right _ hk))
    (nearest_length_le hl)

/-- With up to 100 steps no tick is further off than 2 ^ 61 milliseconds. -/
theorem distance_le (hl : l ≤ 2 ^ 54) (hk : 0 < k) (hi : i ≤ 100) :
    nearest (nearest (l * unit) 1) k * i ≤ 2 ^ 61 * unit := by
  have h : nearest (nearest (l * unit) 1) k * i ≤ 2 ^ 54 * unit * 100 :=
    Nat.mul_le_mul (nearest_step_le hl hk) hi
  omega

/-- So its distance in whole milliseconds is within the integers of a machine. -/
theorem wholeUnits_tickQuanta_le (hl : l ≤ 2 ^ 54) (hk : 0 < k) (hi : i ≤ 100) :
    wholeUnits (tickQuanta l k i) ≤ 2 ^ 62 := by
  have hquanta : tickQuanta l k i ≤ 2 ^ 61 * unit := by
    refine nearest_le_of_onGrid Nat.one_pos (onGrid_two_pow_mul_unit 61) ?_
    rw [Nat.mul_one]
    exact distance_le hl hk hi
  have hunit := unit_pos
  refine Nat.div_le_of_le_mul ?_
  omega

/-- Every rounding keeps the order, and so do products and quotients. -/
theorem tickMilliseconds_mono (h : i ≤ j) : tickMilliseconds l k i ≤ tickMilliseconds l k j :=
  have hquanta : tickQuanta l k i ≤ tickQuanta l k j := nearest_mono 1 (Nat.mul_le_mul_left _ h)
  Nat.div_le_div_right (nearest_mono 1 (Nat.mul_le_mul_right unit (wholeUnits_mono hquanta)))

/-- The first tick is at the start, exactly. -/
theorem tickMilliseconds_zero (l k : Nat) : tickMilliseconds l k 0 = 0 := by
  have hunit := unit_pos
  have hwhole : wholeUnits 0 = 0 := by
    rw [wholeUnits, Nat.div_eq_of_lt (by omega)]
  rw [tickMilliseconds, tickQuanta, Nat.mul_zero, nearest_zero, hwhole, Nat.zero_mul, nearest_zero,
    Nat.zero_div]

/-- All steps of the last tick lead back to the length, up to two roundings. -/
theorem tickQuanta_last_error (hl : 0 < l) (hk : 0 < k) (hk' : k ≤ 100) :
    ∃ x, 2 ^ 53 * x ≤ 2 ^ 53 * nearest (l * unit) 1 + nearest (l * unit) 1 ∧
      2 ^ 53 * nearest (l * unit) 1 ≤ 2 ^ 53 * x + nearest (l * unit) 1 ∧
      2 ^ 53 * tickQuanta l k k ≤ 2 ^ 53 * x + x ∧ 2 ^ 53 * x ≤ 2 ^ 53 * tickQuanta l k k + x := by
  have hunit := two_pow_le_unit
  have hlength : unit ≤ nearest (l * unit) 1 := by
    have hone := nearest_mono 1 (Nat.mul_le_mul_right unit hl)
    rwa [Nat.succ_eq_add_one, Nat.zero_add, nearest_one_of_onGrid (onGrid_mul_unit (by decide)),
      Nat.one_mul] at hone
  obtain ⟨hhigh, hlow⟩ := nearest_error hk (by omega : 2 ^ 52 * k ≤ nearest (l * unit) 1)
  -- `x` is the distance before its last rounding, so each half is the error of one rounding
  refine ⟨nearest (nearest (l * unit) 1) k * k, hhigh, hlow, ?_⟩
  have herror := nearest_error Nat.one_pos
    (by omega : 2 ^ 52 * 1 ≤ nearest (nearest (l * unit) 1) k * k)
  rwa [Nat.mul_one] at herror

/-- Below 2 ^ 51 milliseconds the last tick is at the end, exactly. -/
theorem tickMilliseconds_last (hl : 0 < l) (hl' : l < 2 ^ 51) (hk : 0 < k) (hk' : k ≤ 100) :
    tickMilliseconds l k k = l := by
  have hunit := unit_pos
  obtain ⟨x, hhigh, hlow, hhigh', hlow'⟩ := tickQuanta_last_error hl hk hk'
  have hgrid : ∀ {n : Nat}, n < 2 ^ 51 → nearest (n * unit) 1 = n * unit :=
    fun h => nearest_one_of_onGrid (onGrid_mul_unit (by omega))
  have hlength : l * unit ≤ (2 ^ 51 - 1) * unit := Nat.mul_le_mul_right unit (by omega)
  rw [hgrid hl'] at hhigh hlow
  -- the two roundings together are off by less than half a unit
  have hwhole : wholeUnits (tickQuanta l k k) = l := by
    have hlow'' : l * (2 * unit) = 2 * (l * unit) := Nat.mul_left_comm l 2 unit
    have hsucc : (l + 1) * (2 * unit) = l * (2 * unit) + 2 * unit := Nat.add_one_mul l (2 * unit)
    exact Nat.div_eq_of_lt_le (by omega) (by omega)
  rw [tickMilliseconds, hwhole, hgrid hl', Nat.mul_div_cancel l hunit]

/-- Up to 2 ^ 54 milliseconds the last tick is at most ten milliseconds off the end. -/
theorem tickMilliseconds_last_near (hl : 0 < l) (hl' : l ≤ 2 ^ 54) (hk : 0 < k) (hk' : k ≤ 100) :
    tickMilliseconds l k k ≤ l + 10 ∧ l ≤ tickMilliseconds l k k + 10 := by
  have hunit := two_pow_le_unit
  have hunit' := unit_pos
  obtain ⟨x, hhigh, hlow, hhigh', hlow'⟩ := tickQuanta_last_error hl hk hk'
  have hlength : l * unit ≤ 2 ^ 54 * unit := Nat.mul_le_mul_right unit hl'
  have hpos : unit ≤ l * unit := Nat.le_mul_of_pos_left unit hl
  obtain ⟨hlength', hlength''⟩ := nearest_error Nat.one_pos (by omega : 2 ^ 52 * 1 ≤ l * unit)
  rw [Nat.mul_one] at hlength' hlength''
  -- rounding to whole milliseconds is off by half of one, and then once more by rounding the result
  have hwhole : 2 * (wholeUnits (tickQuanta l k k) * unit) ≤ 2 * tickQuanta l k k + unit ∧
      2 * tickQuanta l k k + unit < 2 * (wholeUnits (tickQuanta l k k) * unit) + 2 * unit := by
    have hdiv := Nat.div_add_mod' (2 * tickQuanta l k k + unit) (2 * unit)
    have hmod := Nat.mod_lt (2 * tickQuanta l k k + unit) (by omega : 0 < 2 * unit)
    rw [Nat.mul_left_comm] at hdiv
    unfold wholeUnits
    omega
  -- the last rounding, and then the part of a millisecond that the division drops
  have hresult := nearest_error Nat.one_pos
    (by omega : 2 ^ 52 * 1 ≤ wholeUnits (tickQuanta l k k) * unit)
  rw [Nat.mul_one] at hresult
  have hdiv := Nat.div_add_mod' (nearest (wholeUnits (tickQuanta l k k) * unit) 1) unit
  have hmod := Nat.mod_lt (nearest (wholeUnits (tickQuanta l k k) * unit) 1) hunit'
  have hleft : tickMilliseconds l k k * unit ≤ (l + 10) * unit := by
    unfold tickMilliseconds
    rw [Nat.add_mul]
    omega
  have hright : l * unit ≤ (tickMilliseconds l k k + 10) * unit := by
    unfold tickMilliseconds
    rw [Nat.add_mul]
    omega
  exact ⟨Nat.le_of_mul_le_mul_right hleft hunit', Nat.le_of_mul_le_mul_right hright hunit'⟩

/-! ## Offsets

  A chart may have a negative length, so an offset is the number of milliseconds with the sign of
  the length. -/

namespace Scale

variable {scale : Scale} {count : Nat}

/-- The offset of a tick in natural numbers.  The operations are followed one by one: the length,
    the step, the distance and its rounding to whole milliseconds. -/
theorem tickOffset_eq (hlength : scale.length.natAbs ≤ 2 ^ 54) (hcount : 2 ≤ count)
    (hcount' : count ≤ 100) (hi : i < count) :
    scale.tickOffset count i =
      max (-0x8000000000000000) (min 0x7FFFFFFFFFFFFFFF (signed (decide (scale.length < 0))
        (tickMilliseconds scale.length.natAbs (count - 1) i))) := by
  have hk : 0 < count - 1 := by omega
  have hlength' : (Binary64.ofInt scale.length).Is (decide (scale.length < 0))
      (nearest (scale.length.natAbs * unit) 1) := is_ofInt (by omega)
  have hbound := nearest_length_le hlength
  have hstep := hlength'.div_natural hk (is_ofNat (by omega)) (by omega)
  have hbound' := distance_le hlength hk (by omega : i ≤ 100)
  have hdistance := hstep.mul_natural (is_ofNat (by omega : i < 2 ^ 53)) (by omega)
  have hwhole := hdistance.round (by
    have := wholeUnits_tickQuanta_le hlength hk (by omega : i ≤ 100)
    unfold tickQuanta at this
    omega)
  exact hwhole.toIntWithin _ _

/-- The first tick has no offset. -/
theorem tickOffset_zero (hlength : scale.length.natAbs ≤ 2 ^ 54) (hcount : 2 ≤ count)
    (hcount' : count ≤ 100) : scale.tickOffset count 0 = 0 := by
  rw [tickOffset_eq hlength hcount hcount' (by omega), tickMilliseconds_zero, signed]
  split <;> rfl

/-- **Ticks stand in order.** -/
theorem tickOffset_mono (hlength : scale.length.natAbs ≤ 2 ^ 54) (hpos : 0 ≤ scale.length)
    (hcount : 2 ≤ count) (hcount' : count ≤ 100) (h : i ≤ j) (hj : j < count) :
    scale.tickOffset count i ≤ scale.tickOffset count j := by
  have hmono : tickMilliseconds scale.length.natAbs (count - 1) i ≤
      tickMilliseconds scale.length.natAbs (count - 1) j := tickMilliseconds_mono h
  rw [tickOffset_eq hlength hcount hcount' (by omega), tickOffset_eq hlength hcount hcount' hj,
    decide_eq_false (by omega), signed, signed]
  simp only [Bool.false_eq_true, if_false]
  generalize tickMilliseconds scale.length.natAbs (count - 1) i = m at hmono
  generalize tickMilliseconds scale.length.natAbs (count - 1) j = n at hmono
  omega

/-- **The last tick stands at the end** of a chart below 2 ^ 51 milliseconds, about 71000 years. -/
theorem tickOffset_last (hne : scale.length ≠ 0) (hlength : scale.length.natAbs < 2 ^ 51)
    (hcount : 2 ≤ count) (hcount' : count ≤ 100) :
    scale.tickOffset count (count - 1) = scale.length := by
  have hlast : tickMilliseconds scale.length.natAbs (count - 1) (count - 1) = scale.length.natAbs :=
    tickMilliseconds_last (Int.natAbs_pos.2 hne) hlength (by omega) (by omega)
  rw [tickOffset_eq (by omega) hcount hcount' (by omega), hlast, signed]
  -- the sign of the length is put back
  by_cases hneg : scale.length < 0
  · rw [if_pos (decide_eq_true hneg)]
    omega
  · rw [if_neg (by simpa using hneg)]
    omega

/-- Rounding moves the last tick of no chart by more than ten milliseconds. -/
theorem tickOffset_last_near (hne : scale.length ≠ 0) (hlength : scale.length.natAbs ≤ 2 ^ 54)
    (hcount : 2 ≤ count) (hcount' : count ≤ 100) :
    scale.tickOffset count (count - 1) ≤ scale.length + 10 ∧
      scale.length ≤ scale.tickOffset count (count - 1) + 10 := by
  have hlast := tickMilliseconds_last_near (Int.natAbs_pos.2 hne) hlength
    (by omega : 0 < count - 1) (by omega)
  rw [tickOffset_eq hlength hcount hcount' (by omega), signed]
  by_cases hneg : scale.length < 0
  · rw [if_pos (decide_eq_true hneg)]
    omega
  · rw [if_neg (by simpa using hneg)]
    omega

end Scale

end GanttChart
