/-
  Bars and the slots of their rows.

  A bar is as high as its row is configured to be, less the padding above and below it, while the
  slot of a row is an equal part of the canvas.  The two are independent, so whether a bar stays in
  its slot is a condition on the configuration.

  1. **Slots.**  Over the rationals the slots follow each other without a gap from the top of the
     canvas to its bottom (`Metrics.rowTop_succ`, `Metrics.rowTop_rows_add_pitch`), and each bar begins
     in its slot and reaches as far below its top as the row is high, less one padding
     (`Metrics.barBottom_eq`).

  2. **Conditions.**  So each of the properties one wants of the bars comes down to one inequality
     between that length and the height of a slot: a bar ends in its slot, ends before the next bar
     begins, ends on the canvas, and ends above the slot of the axis.  With at least twice the height
     of a row as padding of the canvas all of them hold (`Config.bars_fit`).

  3. **Rounding.**  The coordinates that are computed are the exact ones up to a few parts in 2 ^ 52
     (`Config.isNearExact`), so the conditions are those of the drawn bars too (`Config.bars_fit_iff`),
     and a bar that ends in its slot is drawn so up to rounding (`Config.barBottom_le_of_inSlot`).
-/
import GanttChart.Chart.Plan
import GanttChart.Proofs.Binary64.Error
import GanttChart.Proofs.Binary64.Whole
import Mathlib.Tactic.Positivity
import Mathlib.Tactic.Ring

namespace GanttChart

namespace Metrics

/-! ## Formulas

  The metrics are defined for numbers of any kind, once for all.  Each formula is stated as it is
  written, so that it can be opened at the rationals, where it is exact, and in binary64, where
  every operation rounds. -/

/-- The canvas has the height of all rows, and its padding. -/
theorem height_ofRows {α : Type} [Add α] [Mul α] [NatCast α] (rows : ℕ)
    (rowHeight heightPadding taskPadding : α) :
    (ofRows rows rowHeight heightPadding taskPadding).height =
      (rows : α) * rowHeight + heightPadding := rfl

/-- A slot is the canvas over two more parts than there are rows. -/
theorem pitch_ofRows {α : Type} [Add α] [Mul α] [Div α] [NatCast α] (rows : ℕ)
    (rowHeight heightPadding taskPadding : α) :
    (ofRows rows rowHeight heightPadding taskPadding).pitch =
      (ofRows rows rowHeight heightPadding taskPadding).height /
        ((rows : α) + ((2 : ℕ) : α)) := rfl

/-- A bar begins below the top of its slot by one padding. -/
theorem barTop_ofRows {α : Type} [Add α] [Mul α] [Div α] [NatCast α] (rows r : ℕ)
    (rowHeight heightPadding taskPadding : α) :
    (ofRows rows rowHeight heightPadding taskPadding).barTop r =
      (ofRows rows rowHeight heightPadding taskPadding).rowTop r + taskPadding := rfl

/-- A bar is as high as a row, less two paddings. -/
theorem barHeight_ofRows {α : Type} [Add α] [Sub α] [Mul α] [NatCast α] (rows : ℕ)
    (rowHeight heightPadding taskPadding : α) :
    (ofRows rows rowHeight heightPadding taskPadding).barHeight =
      rowHeight - ((2 : ℕ) : α) * taskPadding := rfl

/-! ## Slots -/

variable {m : Metrics ℚ} {r s : ℕ}

/-- The bottom of a row's bar. -/
def barBottom (m : Metrics ℚ) (row : ℕ) : ℚ := m.barTop row + m.barHeight

/-- How far below the top of its slot a bar reaches. -/
def reach (m : Metrics ℚ) : ℚ := m.rowHeight - m.taskPadding

/-- Where a bar ends, counted from the top of its slot. -/
theorem barBottom_eq (m : Metrics ℚ) (r : ℕ) : m.barBottom r = m.rowTop r + m.reach := by
  unfold barBottom barTop barHeight reach
  push_cast
  ring

/-- Slots follow each other. -/
theorem rowTop_succ (m : Metrics ℚ) (r : ℕ) : m.rowTop (r + 1) = m.rowTop r + m.pitch := by
  unfold rowTop
  push_cast
  ring

/-- Slots are equal parts of the canvas, two more than there are rows. -/
theorem pitch_mul (m : Metrics ℚ) : m.pitch * (m.rows + 2) = m.height := by
  have hpos : (0 : ℚ) < m.rows + 2 := by positivity
  unfold pitch
  push_cast
  exact div_mul_cancel₀ _ (ne_of_gt hpos)

/-- The slot of the axis ends where the canvas does. -/
theorem rowTop_rows_add_pitch (m : Metrics ℚ) : m.rowTop m.rows + m.pitch = m.height := by
  rw [← m.pitch_mul]
  unfold rowTop
  push_cast
  ring

/-- The slot of the axis begins where the last row's ends. -/
theorem rowTop_rows (h : m.rows ≠ 0) : m.rowTop m.rows = m.rowTop (m.rows - 1) + m.pitch := by
  rw [← rowTop_succ, Nat.sub_add_cancel (Nat.pos_of_ne_zero h)]

/-- Lower rows have lower slots. -/
theorem rowTop_mono (hpitch : 0 ≤ m.pitch) (h : r ≤ s) : m.rowTop r ≤ m.rowTop s := by
  have hcast : (r : ℚ) ≤ s := Nat.cast_le.2 h
  unfold rowTop
  exact mul_le_mul_of_nonneg_right (by push_cast; linarith) hpitch

/-! ## What bars should do -/

/-- The bar of a row lies in the slot of the row. -/
def InSlot (m : Metrics ℚ) (r : ℕ) : Prop :=
  m.rowTop r ≤ m.barTop r ∧ m.barBottom r ≤ m.rowTop r + m.pitch

/-- The bar of a row ends before that of any row below begins. -/
def Apart (m : Metrics ℚ) : Prop := ∀ r s, r < s → s < m.rows → m.barBottom r ≤ m.barTop s

/-- The bars lie on the canvas. -/
def OnCanvas (m : Metrics ℚ) : Prop := ∀ r < m.rows, 0 ≤ m.barTop r ∧ m.barBottom r ≤ m.height

/-- The bars end above the slot of the axis, which is the one behind the last row's. -/
def AboveAxis (m : Metrics ℚ) : Prop := ∀ r < m.rows, m.barBottom r ≤ m.rowTop m.rows

/-- A bar begins in its slot. -/
theorem rowTop_le_barTop (hpadding : 0 ≤ m.taskPadding) (r : ℕ) : m.rowTop r ≤ m.barTop r :=
  le_add_of_nonneg_right hpadding

/-- A bar lies in its slot if it reaches no further than the slot is high. -/
theorem inSlot_iff (hpadding : 0 ≤ m.taskPadding) : m.InSlot r ↔ m.reach ≤ m.pitch := by
  unfold InSlot
  rw [barBottom_eq, add_le_add_iff_left]
  exact and_iff_right (rowTop_le_barTop hpadding r)

/-- The next bar is the nearest one below. -/
theorem apart_iff (hpitch : 0 ≤ m.pitch) :
    m.Apart ↔ m.rows ≤ 1 ∨ m.reach ≤ m.pitch + m.taskPadding := by
  have hnext : ∀ r, m.barBottom r ≤ m.barTop (r + 1) ↔ m.reach ≤ m.pitch + m.taskPadding := by
    intro r
    rw [barBottom_eq, barTop, rowTop_succ, add_assoc, add_le_add_iff_left]
  constructor
  · intro h
    rcases Nat.lt_or_ge 1 m.rows with hrows | hrows
    · exact .inr ((hnext 0).1 (h 0 1 Nat.one_pos hrows))
    · exact .inl hrows
  · rintro (hrows | hreach) r s hrs hs
    · omega
    · calc m.barBottom r ≤ m.barTop (r + 1) := (hnext r).2 hreach
        _ = m.rowTop (r + 1) + m.taskPadding := rfl
        _ ≤ m.rowTop s + m.taskPadding := add_le_add_left (rowTop_mono hpitch hrs) _

/-- Bars end above a line exactly if the last one does. -/
theorem forall_barBottom_le_iff (hpitch : 0 ≤ m.pitch) {line : ℚ} :
    (∀ r < m.rows, m.barBottom r ≤ line) ↔ m.rows = 0 ∨ m.barBottom (m.rows - 1) ≤ line := by
  constructor
  · intro h
    rcases Nat.eq_zero_or_pos m.rows with hzero | hpos
    · exact .inl hzero
    · exact .inr (h _ (by omega))
  · rintro (hzero | hlast) r hr
    · omega
    · refine le_trans ?_ hlast
      rw [barBottom_eq, barBottom_eq]
      exact add_le_add_left (rowTop_mono hpitch (by omega)) _

/-- Bars end above the slot of the axis if the last one does, and so if it lies in its own slot. -/
theorem aboveAxis_iff (hpitch : 0 ≤ m.pitch) : m.AboveAxis ↔ m.rows = 0 ∨ m.reach ≤ m.pitch := by
  unfold AboveAxis
  rw [forall_barBottom_le_iff hpitch]
  refine or_congr_right' fun hne => ?_
  rw [barBottom_eq, rowTop_rows hne, add_le_add_iff_left]

/-- Bars end on the canvas if the last one does, which has the slot of the axis as further room. -/
theorem onCanvas_iff (hpitch : 0 ≤ m.pitch) (hpadding : 0 ≤ m.taskPadding) :
    m.OnCanvas ↔ m.rows = 0 ∨ m.reach ≤ 2 * m.pitch := by
  have htop : ∀ r, 0 ≤ m.barTop r := by
    intro r
    have hrow : 0 ≤ m.rowTop r := by
      unfold rowTop
      positivity
    exact le_trans hrow (rowTop_le_barTop hpadding r)
  unfold OnCanvas
  simp only [htop, true_and]
  rw [forall_barBottom_le_iff hpitch]
  refine or_congr_right' fun hne => ?_
  rw [barBottom_eq, ← rowTop_rows_add_pitch, rowTop_rows hne, add_assoc, ← two_mul,
    add_le_add_iff_left]

end Metrics

/-! ## Conditions on the configuration -/

namespace Config

variable {config : Config}

/-- The metrics of a number of rows, exactly. -/
def exactMetrics (config : Config) (rows : ℕ) : Metrics ℚ :=
  .ofRows rows config.rowHeight.toRat config.heightPadding.toRat config.taskPadding.toRat

/-- Rows have a height and bars have one in them, and nothing is padded by less than nothing. -/
structure IsProper (config : Config) : Prop where
  finite_rowHeight : config.rowHeight.isFinite = true
  finite_heightPadding : config.heightPadding.isFinite = true
  finite_taskPadding : config.taskPadding.isFinite = true
  rowHeight_pos : 0 < config.rowHeight.toRat
  heightPadding_nonneg : 0 ≤ config.heightPadding.toRat
  taskPadding_nonneg : 0 ≤ config.taskPadding.toRat
  two_mul_taskPadding_le : 2 * config.taskPadding.toRat ≤ config.rowHeight.toRat

/-- All slots together are the canvas. -/
theorem pitch_exactMetrics (config : Config) (rows : ℕ) :
    (config.exactMetrics rows).pitch * (rows + 2) =
      rows * config.rowHeight.toRat + config.heightPadding.toRat :=
  (config.exactMetrics rows).pitch_mul

/-- Slots have a height of at least zero. -/
theorem IsProper.pitch_nonneg (h : config.IsProper) (rows : ℕ) :
    0 ≤ (config.exactMetrics rows).pitch := by
  have hrow := h.rowHeight_pos
  have hpadding := h.heightPadding_nonneg
  refine nonneg_of_mul_nonneg_left (b := (rows + 2 : ℚ)) ?_ (by positivity)
  rw [pitch_exactMetrics]
  positivity

/-- A length against slots is a length against the canvas. -/
theorem le_mul_pitch_iff (config : Config) (rows : ℕ) (x k : ℚ) :
    x ≤ k * (config.exactMetrics rows).pitch ↔
      x * (rows + 2) ≤ k * (rows * config.rowHeight.toRat + config.heightPadding.toRat) := by
  have hpos : (0 : ℚ) < rows + 2 := by positivity
  rw [← pitch_exactMetrics, ← mul_assoc, mul_le_mul_iff_left₀ hpos]

/-- How far below the top of its slot a bar reaches, by the configuration. -/
theorem reach_exactMetrics (config : Config) (rows : ℕ) :
    (config.exactMetrics rows).reach = config.rowHeight.toRat - config.taskPadding.toRat := rfl

/-- A bar reaches no further than its slot. -/
theorem reach_le_pitch_iff (config : Config) (rows : ℕ) :
    (config.exactMetrics rows).reach ≤ (config.exactMetrics rows).pitch ↔
      2 * config.rowHeight.toRat ≤
        config.heightPadding.toRat + (rows + 2) * config.taskPadding.toRat := by
  have hscaled := le_mul_pitch_iff config rows (config.exactMetrics rows).reach 1
  rw [one_mul, one_mul, reach_exactMetrics] at hscaled
  rw [reach_exactMetrics, hscaled]
  constructor <;> intro h <;> linarith

/-- A bar reaches no further than the next one's top. -/
theorem reach_le_pitch_add_iff (config : Config) (rows : ℕ) :
    (config.exactMetrics rows).reach ≤
        (config.exactMetrics rows).pitch + (config.exactMetrics rows).taskPadding ↔
      2 * config.rowHeight.toRat ≤
        config.heightPadding.toRat + 2 * (rows + 2) * config.taskPadding.toRat := by
  have hscaled := le_mul_pitch_iff config rows
    ((config.exactMetrics rows).reach - config.taskPadding.toRat) 1
  rw [one_mul, one_mul, reach_exactMetrics, sub_le_iff_le_add] at hscaled
  refine hscaled.trans ?_
  constructor <;> intro h <;> linarith

/-- A bar reaches no further than two slots, which matters for a single row only. -/
theorem reach_le_two_mul_pitch_iff (h : config.IsProper) {rows : ℕ} (hrows : rows ≠ 0) :
    (config.exactMetrics rows).reach ≤ 2 * (config.exactMetrics rows).pitch ↔
      rows ≠ 1 ∨ config.rowHeight.toRat ≤
        2 * config.heightPadding.toRat + 3 * config.taskPadding.toRat := by
  have hrow := h.rowHeight_pos
  have hpadding := h.heightPadding_nonneg
  have htask := h.taskPadding_nonneg
  rw [le_mul_pitch_iff, reach_exactMetrics]
  by_cases hone : rows = 1
  · subst hone
    rw [or_iff_right (by simp)]
    push_cast
    constructor <;> intro h <;> linarith
  · refine iff_of_true ?_ (.inl hone)
    have htwo : (2 : ℚ) ≤ rows := by
      have : 2 ≤ rows := by omega
      exact_mod_cast this
    have hrows' := mul_le_mul_of_nonneg_right htwo (le_of_lt hrow)
    have htasks : 0 ≤ (rows : ℚ) * config.taskPadding.toRat := by positivity
    linarith

/-! ## Rounding

  Here the lengths are naturals, in quanta, and each coordinate is followed through its
  operations.  `Near n` allows for a number of roundings, and every step of a formula adds one. -/

open Binary64

variable {rows r : ℕ} {rowHeight heightPadding taskPadding height pitch top : ℕ}

/-- The lengths of a configuration in quanta. -/
structure HasQuanta (config : Config) (rowHeight heightPadding taskPadding : ℕ) : Prop where
  is_rowHeight : config.rowHeight.Is false rowHeight
  is_heightPadding : config.heightPadding.IsNonneg heightPadding
  is_taskPadding : config.taskPadding.IsNonneg taskPadding
  two_mul_le : 2 * taskPadding ≤ rowHeight

/-- The height of the canvas in quanta. -/
theorem HasQuanta.height_exactMetrics
    (hq : config.HasQuanta rowHeight heightPadding taskPadding) (rows : ℕ) :
    (config.exactMetrics rows).height = (rows * rowHeight + heightPadding : ℕ) / unit := by
  rw [exactMetrics, Metrics.height_ofRows, hq.is_rowHeight.toRat, hq.is_heightPadding.toRat]
  push_cast
  ring

/-- The canvas and a row are far from the ends of the format. -/
structure QuantaWithin (rows rowHeight heightPadding : ℕ) : Prop where
  rows_lt : rows + 2 < 2 ^ 53
  height_le : rows * rowHeight + heightPadding ≤ 2 ^ 90 * unit
  le_rowHeight : 2 ^ 60 ≤ rowHeight

/-- The canvas takes two operations, a product and a sum. -/
theorem exists_height (hq : config.HasQuanta rowHeight heightPadding taskPadding)
    (hm : QuantaWithin rows rowHeight heightPadding) :
    ∃ height : ℕ, (Plan.metricsOf config rows).height.Is false height ∧
      Near 2 height (rows * rowHeight + heightPadding : ℕ) := by
  have hrows := hm.rows_lt
  have hheight := hm.height_le
  have hproduct := (is_natCast (i := rows) (by omega)).natural_mul hq.is_rowHeight
    (by rw [Nat.mul_comm]; omega)
  rw [Nat.mul_comm rowHeight] at hproduct
  have hle := nearest_one_le (rows * rowHeight)
  rw [Plan.metricsOf, Metrics.height_ofRows]
  refine ⟨_, hproduct.add hq.is_heightPadding (by omega), ?_⟩
  have hpadding := (Near.refl (heightPadding : ℚ)).mono (by positivity) (Nat.zero_le 1)
  have hsum := (near_nearest_one (rows * rowHeight)).add hpadding
  rw [← Nat.cast_add, ← Nat.cast_add] at hsum
  exact (near_nearest_one _).trans hsum

/-- The slot takes one more, a quotient. -/
theorem exists_pitch (hm : QuantaWithin rows rowHeight heightPadding) (hrows : 0 < rows)
    (hheight : (Plan.metricsOf config rows).height.Is false height)
    (hnear : Near 2 height (rows * rowHeight + heightPadding : ℕ)) :
    ∃ pitch : ℕ, (Plan.metricsOf config rows).pitch.Is false pitch ∧
      Near 3 pitch ((rows * rowHeight + heightPadding : ℕ) / (rows + 2 : ℕ)) := by
  have hlt := hm.rows_lt
  have hle := hm.height_le
  have hhigh := hnear.le_two_mul (by decide) (Nat.cast_nonneg _)
  have hlow := hnear.exact_le_two_mul (by decide) (Nat.cast_nonneg _)
  have hhigh : height ≤ 2 * (rows * rowHeight + heightPadding) := by exact_mod_cast hhigh
  have hlow : rows * rowHeight + heightPadding ≤ 2 * height := by exact_mod_cast hlow
  have hrow : rows * 2 ^ 60 ≤ rows * rowHeight := Nat.mul_le_mul_left rows hm.le_rowHeight
  have hslots := is_natCast_add (i := rows) (j := 2) hlt
  rw [Plan.metricsOf, Metrics.pitch_ofRows]
  refine ⟨_, hheight.div_natural (Nat.succ_pos _) hslots (by omega), ?_⟩
  have hdivided := hnear.div_right (t := (rows + 2 : ℕ)) (by positivity)
  exact (near_nearest (Nat.succ_pos _) (.inr (by omega))).trans hdivided

/-- The top of a slot takes one more, a product. -/
theorem exists_rowTop (hm : QuantaWithin rows rowHeight heightPadding) (hr : r < rows)
    (hpitch : (Plan.metricsOf config rows).pitch.Is false pitch)
    (hnear : Near 3 pitch ((rows * rowHeight + heightPadding : ℕ) / (rows + 2 : ℕ))) :
    ∃ top : ℕ, ((Plan.metricsOf config rows).rowTop r).Is false top ∧ top ≤ 2 ^ 92 * unit ∧
      Near 4 top ((rows * rowHeight + heightPadding : ℕ) / (rows + 2 : ℕ) * (r + 1 : ℕ)) := by
  have hlt := hm.rows_lt
  have hle := hm.height_le
  have hpos : (0 : ℚ) < (rows + 2 : ℕ) := by positivity
  have hslots : pitch * (rows + 2) ≤ 2 * (rows * rowHeight + heightPadding) := by
    have htwice := hnear.le_two_mul (by decide) (by positivity)
    rw [← mul_div_assoc, le_div_iff₀ hpos] at htwice
    exact_mod_cast htwice
  have hbelow : pitch * (r + 1) ≤ pitch * (rows + 2) := Nat.mul_le_mul_left _ (by omega)
  have hslot := is_natCast_add (i := r) (j := 1) (by omega)
  have hsmall := nearest_one_le (pitch * (r + 1))
  rw [Metrics.rowTop]
  refine ⟨_, hslot.natural_mul hpitch (by omega), by omega, ?_⟩
  have hproduct := hnear.mul_right (t := (r + 1 : ℕ)) (by positivity)
  rw [← Nat.cast_mul] at hproduct
  exact (near_nearest_one _).trans hproduct

/-- The top of a bar takes one more, a sum. -/
theorem near_barTop (hq : config.HasQuanta rowHeight heightPadding taskPadding)
    (hm : QuantaWithin rows rowHeight heightPadding) (hr : r < rows)
    (htop : ((Plan.metricsOf config rows).rowTop r).Is false top) (hle : top ≤ 2 ^ 92 * unit)
    (hnear : Near 4 (top / unit : ℚ) ((config.exactMetrics rows).rowTop r)) :
    Near 5 ((Plan.metricsOf config rows).barTop r).toRat ((config.exactMetrics rows).barTop r) := by
  have hheight := hm.height_le
  have htask := hq.two_mul_le
  have hrow : rowHeight ≤ rows * rowHeight := Nat.le_mul_of_pos_left rowHeight (by omega)
  have hexact : (config.exactMetrics rows).barTop r =
      (config.exactMetrics rows).rowTop r + taskPadding / unit := by
    rw [← hq.is_taskPadding.toRat]
    rfl
  have hpadding := (Near.refl (taskPadding / unit : ℚ)).mono (by positivity)
    (Nat.zero_le 4)
  have hsum := hnear.add hpadding
  rw [← add_div, ← Nat.cast_add] at hsum
  have his := htop.add hq.is_taskPadding (by omega)
  rw [Plan.metricsOf, Metrics.barTop_ofRows, hexact]
  rw [Plan.metricsOf] at his
  rw [his.toRat]
  exact ((near_nearest_one _).div_right (Nat.cast_nonneg unit)).trans hsum

/-- The height of a bar takes one operation, since doubling the padding is exact. -/
theorem near_barHeight (hq : config.HasQuanta rowHeight heightPadding taskPadding)
    (hm : QuantaWithin rows rowHeight heightPadding) (hr : r < rows) :
    Near 1 (Plan.metricsOf config rows).barHeight.toRat (config.exactMetrics rows).barHeight := by
  have hheight := hm.height_le
  have htask := hq.two_mul_le
  have hrow : rowHeight ≤ rows * rowHeight := Nat.le_mul_of_pos_left rowHeight (by omega)
  have hexact : (config.exactMetrics rows).barHeight = (rowHeight - taskPadding * 2 : ℕ) / unit := by
    rw [exactMetrics, Metrics.barHeight_ofRows, hq.is_rowHeight.toRat, hq.is_taskPadding.toRat,
      Nat.cast_sub (by omega)]
    push_cast
    ring
  have his := hq.is_rowHeight.sub (hq.is_taskPadding.double (by omega)) (by omega) (by omega)
  rw [Plan.metricsOf, Metrics.barHeight_ofRows, his.toRat, hexact]
  exact (near_nearest_one _).div_right (Nat.cast_nonneg unit)

/-- The coordinates of a row are the exact ones up to a few parts in 2 ^ 52. -/
structure IsNearExact (config : Config) (rows r : ℕ) : Prop where
  height : Near 2 (Plan.metricsOf config rows).height.toRat (config.exactMetrics rows).height
  pitch : Near 3 (Plan.metricsOf config rows).pitch.toRat (config.exactMetrics rows).pitch
  rowTop : Near 4 ((Plan.metricsOf config rows).rowTop r).toRat ((config.exactMetrics rows).rowTop r)
  barTop : Near 5 ((Plan.metricsOf config rows).barTop r).toRat ((config.exactMetrics rows).barTop r)
  barHeight :
    Near 1 (Plan.metricsOf config rows).barHeight.toRat (config.exactMetrics rows).barHeight

/-- All coordinates of a row together, each one from those before it. -/
theorem isNearExact_of_hasQuanta (hq : config.HasQuanta rowHeight heightPadding taskPadding)
    (hm : QuantaWithin rows rowHeight heightPadding) (hr : r < rows) :
    config.IsNearExact rows r := by
  have hunit : (0 : ℚ) ≤ unit := Nat.cast_nonneg unit
  -- the three steps of the program, each with its own rounding
  obtain ⟨height, hheight, hheightNear⟩ := exists_height hq hm
  obtain ⟨pitch, hpitch, hpitchNear⟩ := exists_pitch hm (by omega) hheight hheightNear
  obtain ⟨top, htop, htopLe, htopNear⟩ := exists_rowTop hm hr hpitch hpitchNear
  -- and the same steps without rounding
  have hexactHeight := hq.height_exactMetrics rows
  have hexactPitch : (config.exactMetrics rows).pitch =
      (rows * rowHeight + heightPadding : ℕ) / (rows + 2 : ℕ) / unit := by
    have hpitch : (config.exactMetrics rows).pitch =
        (config.exactMetrics rows).height / (rows + 2 : ℕ) := by
      push_cast
      rfl
    rw [hpitch, hexactHeight, div_right_comm]
  have hexactTop : (config.exactMetrics rows).rowTop r =
      (rows * rowHeight + heightPadding : ℕ) / (rows + 2 : ℕ) * (r + 1 : ℕ) / unit := by
    rw [Metrics.rowTop, hexactPitch]
    push_cast
    ring
  have hrowTop : Near 4 (top / unit : ℚ) ((config.exactMetrics rows).rowTop r) := by
    rw [hexactTop]
    exact htopNear.div_right hunit
  constructor
  case height =>
    rw [hheight.toRat, hexactHeight]
    exact hheightNear.div_right hunit
  case pitch =>
    rw [hpitch.toRat, hexactPitch]
    exact hpitchNear.div_right hunit
  case rowTop =>
    rw [htop.toRat]
    exact hrowTop
  case barTop => exact near_barTop hq hm hr htop htopLe hrowTop
  case barHeight => exact near_barHeight hq hm hr

/-- The canvas is far from too high for a number, and a row far from too low. -/
structure IsModerate (config : Config) (rows : ℕ) : Prop where
  rows_lt : rows + 2 < 2 ^ 53
  height_le : (config.exactMetrics rows).height ≤ 2 ^ 90
  le_rowHeight : 1 / 2 ^ 40 ≤ config.rowHeight.toRat

/-- **Rounding moves the coordinates by a few parts in 2 ^ 52 at most.** -/
theorem isNearExact (h : config.IsProper) (hm : config.IsModerate rows) (hr : r < rows) :
    config.IsNearExact rows r := by
  have hunit : (0 : ℚ) < unit := Nat.cast_pos.2 unit_pos
  obtain ⟨rowHeight, hrow⟩ := exists_isNonneg h.finite_rowHeight (le_of_lt h.rowHeight_pos)
  obtain ⟨heightPadding, hpadding⟩ := exists_isNonneg h.finite_heightPadding h.heightPadding_nonneg
  obtain ⟨taskPadding, htask⟩ := exists_isNonneg h.finite_taskPadding h.taskPadding_nonneg
  have hpos : 0 < rowHeight := by
    have hrat := h.rowHeight_pos
    rw [hrow.toRat, lt_div_iff₀ hunit, zero_mul] at hrat
    exact_mod_cast hrat
  have hle : 2 * taskPadding ≤ rowHeight := by
    have hrat := h.two_mul_taskPadding_le
    rw [hrow.toRat, htask.toRat, ← mul_div_assoc, div_le_div_iff_of_pos_right hunit] at hrat
    exact_mod_cast hrat
  have hq : config.HasQuanta rowHeight heightPadding taskPadding :=
    ⟨hrow.is_of_pos hpos, hpadding, htask, hle⟩
  -- what is moderate is stated in lengths, and carried over to quanta
  refine isNearExact_of_hasQuanta hq ⟨hm.rows_lt, ?_, ?_⟩ hr
  · have hheight := hm.height_le
    rw [hq.height_exactMetrics, div_le_iff₀ hunit] at hheight
    exact_mod_cast hheight
  · have hlow := hm.le_rowHeight
    rw [hrow.toRat, le_div_iff₀ hunit, one_div_mul_eq_div, div_le_iff₀ (by positivity)] at hlow
    have hlow : unit ≤ rowHeight * 2 ^ 40 := by exact_mod_cast hlow
    have hbits := two_pow_le_unit
    omega

/-- A bar that ends in its slot exactly does so up to rounding. -/
theorem barBottom_le_of_inSlot (h : config.IsProper) (hm : config.IsModerate rows) (hr : r < rows)
    (hslot : (config.exactMetrics rows).InSlot r) :
    ((Plan.metricsOf config rows).barTop r).toRat + (Plan.metricsOf config rows).barHeight.toRat ≤
      (((Plan.metricsOf config rows).rowTop r).toRat +
        (Plan.metricsOf config rows).pitch.toRat) * slack ^ 9 := by
  have hnear := isNearExact h hm hr
  have hheight : 0 ≤ (config.exactMetrics rows).barHeight := by
    show 0 ≤ config.rowHeight.toRat - ((2 : ℕ) : ℚ) * config.taskPadding.toRat
    exact sub_nonneg.2 h.two_mul_taskPadding_le
  have hbar := (hnear.barHeight.mono hheight (show 1 ≤ 5 by decide)).le_exact
  have hslots := (hnear.pitch.mono (h.pitch_nonneg rows) (show 3 ≤ 4 by decide)).exact_le
  calc ((Plan.metricsOf config rows).barTop r).toRat + (Plan.metricsOf config rows).barHeight.toRat
      ≤ (config.exactMetrics rows).barTop r * slack ^ 5 +
        (config.exactMetrics rows).barHeight * slack ^ 5 :=
        add_le_add hnear.barTop.le_exact hbar
    _ = (config.exactMetrics rows).barBottom r * slack ^ 5 := (add_mul _ _ _).symm
    _ ≤ ((config.exactMetrics rows).rowTop r + (config.exactMetrics rows).pitch) * slack ^ 5 :=
        mul_le_mul_of_nonneg_right hslot.2 (le_of_lt (slack_pow_pos 5))
    _ ≤ (((Plan.metricsOf config rows).rowTop r).toRat * slack ^ 4 +
          (Plan.metricsOf config rows).pitch.toRat * slack ^ 4) * slack ^ 5 :=
        mul_le_mul_of_nonneg_right (add_le_add hnear.rowTop.exact_le hslots)
          (le_of_lt (slack_pow_pos 5))
    _ = _ := by rw [← add_mul, mul_assoc, ← pow_add]

/-! ## Where bars lie -/

/-- With twice the height of a row as padding of the canvas, all is well for any number of rows. -/
theorem bars_fit (h : config.IsProper)
    (hroom : 2 * config.rowHeight.toRat ≤ config.heightPadding.toRat) (rows : ℕ) :
    (∀ r, (config.exactMetrics rows).InSlot r) ∧ (config.exactMetrics rows).Apart ∧
      (config.exactMetrics rows).OnCanvas ∧ (config.exactMetrics rows).AboveAxis := by
  have hpitch := h.pitch_nonneg rows
  have htask := h.taskPadding_nonneg
  have hreach : (config.exactMetrics rows).reach ≤ (config.exactMetrics rows).pitch := by
    have hslots : 0 ≤ ((rows : ℚ) + 2) * config.taskPadding.toRat := by positivity
    exact (reach_le_pitch_iff config rows).2 (by linarith)
  exact ⟨fun _ => (Metrics.inSlot_iff htask).2 hreach,
    (Metrics.apart_iff hpitch).2 (.inr (le_add_of_le_of_nonneg hreach htask)),
    (Metrics.onCanvas_iff hpitch htask).2 (.inr (by linarith)),
    (Metrics.aboveAxis_iff hpitch).2 (.inr hreach)⟩

/-- **Where bars lie.**  They begin in their slots; each other property of them holds exactly under a
    condition on the height of a row, the paddings and the number of rows.  The coordinates that are
    computed are those, up to rounding. -/
theorem bars_fit_iff (h : config.IsProper) (rows : ℕ) :
    (∀ r, (config.exactMetrics rows).rowTop r ≤ (config.exactMetrics rows).barTop r) ∧
      ((∀ r < rows, (config.exactMetrics rows).InSlot r) ↔
        rows = 0 ∨ 2 * config.rowHeight.toRat ≤
          config.heightPadding.toRat + (rows + 2) * config.taskPadding.toRat) ∧
      ((config.exactMetrics rows).Apart ↔
        rows ≤ 1 ∨ 2 * config.rowHeight.toRat ≤
          config.heightPadding.toRat + 2 * (rows + 2) * config.taskPadding.toRat) ∧
      ((config.exactMetrics rows).OnCanvas ↔
        rows ≠ 1 ∨ config.rowHeight.toRat ≤
          2 * config.heightPadding.toRat + 3 * config.taskPadding.toRat) ∧
      ((config.exactMetrics rows).AboveAxis ↔
        rows = 0 ∨ 2 * config.rowHeight.toRat ≤
          config.heightPadding.toRat + (rows + 2) * config.taskPadding.toRat) ∧
      (config.IsModerate rows → ∀ r < rows, config.IsNearExact rows r) := by
  have hpitch := h.pitch_nonneg rows
  -- each condition is an inequality between the reach of a bar and its room, put in terms of the
  -- configuration
  refine ⟨Metrics.rowTop_le_barTop h.taskPadding_nonneg, ?_, ?_, ?_, ?_,
    fun hm r hr => isNearExact h hm hr⟩
  · rw [← reach_le_pitch_iff]
    constructor
    · intro hall
      rcases Nat.eq_zero_or_pos rows with hzero | hpos
      · exact .inl hzero
      · exact .inr ((Metrics.inSlot_iff h.taskPadding_nonneg).1 (hall 0 hpos))
    · rintro (hzero | hreach) r hr
      · omega
      · exact (Metrics.inSlot_iff h.taskPadding_nonneg).2 hreach
  · rw [← reach_le_pitch_add_iff]
    exact Metrics.apart_iff hpitch
  · rw [Metrics.onCanvas_iff hpitch h.taskPadding_nonneg]
    by_cases hzero : rows = 0
    · exact iff_of_true (.inl hzero) (.inl (by omega))
    · rw [← reach_le_two_mul_pitch_iff h hzero]
      exact or_iff_right hzero
  · rw [← reach_le_pitch_iff]
    exact Metrics.aboveAxis_iff hpitch

/-- Lengths that are naturals. -/
theorem isProper_of_ofNat {a b c : ℕ} (hrow : config.rowHeight = ofNat a)
    (hpadding : config.heightPadding = ofNat b) (htask : config.taskPadding = ofNat c) (ha : 0 < a)
    (hc : 2 * c ≤ a) (ha' : a < 2 ^ 53) (hb' : b < 2 ^ 53) : config.IsProper where
  finite_rowHeight := hrow ▸ (is_ofNat ha').isFinite
  finite_heightPadding := hpadding ▸ (is_ofNat hb').isFinite
  finite_taskPadding := htask ▸ (is_ofNat (by omega)).isFinite
  rowHeight_pos := by
    rw [hrow, toRat_ofNat ha']
    exact_mod_cast ha
  heightPadding_nonneg := by
    rw [hpadding, toRat_ofNat hb']
    positivity
  taskPadding_nonneg := by
    rw [htask, toRat_ofNat (by omega)]
    positivity
  two_mul_taskPadding_le := by
    rw [hrow, htask, toRat_ofNat ha', toRat_ofNat (by omega)]
    exact_mod_cast hc

/-- The usual lengths: the bars of two rows fit, and so do the coordinates that are computed. -/
theorem bars_fit_iff_default :
    ({ now := ⟨.epoch, .midnight⟩ } : Config).IsProper ∧
      (∀ r < 2, (({ now := ⟨.epoch, .midnight⟩ } : Config).exactMetrics 2).InSlot r) ∧
      ∀ r < 2, ({ now := ⟨.epoch, .midnight⟩ } : Config).IsNearExact 2 r := by
  have hproper : ({ now := ⟨.epoch, .midnight⟩ } : Config).IsProper :=
    isProper_of_ofNat (a := 50) (b := 100) (c := 5) rfl rfl rfl (by decide) (by decide) (by decide)
      (by decide)
  have hrow : ({ now := ⟨.epoch, .midnight⟩ } : Config).rowHeight.toRat = (50 : ℕ) :=
    toRat_ofNat (by decide)
  have hpadding : ({ now := ⟨.epoch, .midnight⟩ } : Config).heightPadding.toRat = (100 : ℕ) :=
    toRat_ofNat (by decide)
  have htask : ({ now := ⟨.epoch, .midnight⟩ } : Config).taskPadding.toRat = (5 : ℕ) :=
    toRat_ofNat (by decide)
  obtain ⟨-, hslots, -, -, -, hnear⟩ := bars_fit_iff hproper 2
  refine ⟨hproper, hslots.2 (.inr ?_), hnear ⟨by decide, ?_, ?_⟩⟩
  · rw [hrow, hpadding, htask]
    norm_num
  · rw [exactMetrics, Metrics.height_ofRows, hrow, hpadding]
    norm_num
  · rw [hrow]
    norm_num

/-- The usual lengths but for the padding of the canvas, of which there is none. -/
def unpadded : Config := { heightPadding := 0, now := ⟨.epoch, .midnight⟩ }

/-- Without padding of the canvas a single bar reaches beyond its slot, into that of the axis and off
    the canvas, and is drawn so; and two bars overlap. -/
theorem bars_leave_slots :
    unpadded.IsProper ∧ ¬(unpadded.exactMetrics 1).InSlot 0 ∧
      ¬(unpadded.exactMetrics 1).AboveAxis ∧ ¬(unpadded.exactMetrics 1).OnCanvas ∧
      Binary64.lt (Plan.metricsOf unpadded 1).height
        ((Plan.metricsOf unpadded 1).barTop 0 + (Plan.metricsOf unpadded 1).barHeight) = true ∧
      ¬(unpadded.exactMetrics 2).Apart := by
  have hproper : unpadded.IsProper :=
    isProper_of_ofNat (a := 50) (b := 0) (c := 5) rfl rfl rfl (by decide) (by decide) (by decide)
      (by decide)
  have hrow : unpadded.rowHeight.toRat = (50 : ℕ) := toRat_ofNat (by decide)
  have hpadding : unpadded.heightPadding.toRat = (0 : ℕ) := toRat_ofNat (by decide)
  have htask : unpadded.taskPadding.toRat = (5 : ℕ) := toRat_ofNat (by decide)
  have hreach : ¬(unpadded.exactMetrics 1).reach ≤ (unpadded.exactMetrics 1).pitch := by
    rw [reach_le_pitch_iff, hrow, hpadding, htask]
    norm_num
  refine ⟨hproper, fun hslot => hreach ((Metrics.inSlot_iff hproper.taskPadding_nonneg).1 hslot),
    fun haxis => ?_, fun hcanvas => ?_, by decide +kernel, fun hapart => ?_⟩
  · exact hreach (((Metrics.aboveAxis_iff (hproper.pitch_nonneg 1)).1 haxis).resolve_left (by decide))
  · have htwo := ((Metrics.onCanvas_iff (hproper.pitch_nonneg 1)
      hproper.taskPadding_nonneg).1 hcanvas).resolve_left (by decide)
    rw [reach_le_two_mul_pitch_iff hproper (by decide), hrow, hpadding, htask] at htwo
    norm_num at htwo
  · have hnext := ((Metrics.apart_iff (hproper.pitch_nonneg 2)).1 hapart).resolve_left (by decide)
    rw [reach_le_pitch_add_iff, hrow, hpadding, htask] at hnext
    norm_num at hnext

end Config

end GanttChart
