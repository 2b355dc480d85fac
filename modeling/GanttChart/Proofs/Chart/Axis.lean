/-
  What keeps a time axis from being drawn.

  1. **Settings.**  The number of ticks has to be written as a machine word, and the pattern of the
     labels has to read as items of which one shows something of an instant.  Both have a default
     that passes.

  2. **Ticks.**  Each tick is worked out on its own (`Scale.tick?`), so the ticks are missing exactly
     if one of them is (`Scale.ticks?_eq_none_iff`).

  3. **The grid.**  All ticks are there before the first label is written, so a tick outside the
     calendar comes before a label that fails, whichever stands further left
     (`Plan.grid_eq_error_iff`).
-/
import GanttChart.Chart.Axis
import GanttChart.Proofs.Outcome

namespace GanttChart

open GanttChart.Text

/-! ## Settings

  Both options are read before anything of the grid is worked out.  Each lemma says when an
  option is refused and with which fault, and what it is otherwise. -/

/-- The text is a number below 2 ^ 64 in digits, possibly after a plus sign. -/
def Text.Digits.IsWord (text : List Char) : Prop :=
  ∃ digits, (text = digits ∨ text = '+' :: digits) ∧ digits ≠ [] ∧
    (∀ c ∈ digits, c.isDigit = true) ∧ Digits.value digits < 0x10000000000000000

namespace Text.Digits

/-- What is read as a machine word is one. -/
theorem ofWord?_eq_some {text : List Char} {n : Nat} (h : ofWord? text = some n) :
    IsWord text := by
  unfold ofWord? at h
  extract_lets digits at h
  split at h
  · cases h
  · rename_i hdigits
    split at h
    · rename_i hvalue
      simp only [Bool.or_eq_true, List.isEmpty_iff, Bool.not_eq_true', List.all_eq_false,
        not_or, not_exists, not_and, Decidable.not_not] at hdigits
      refine ⟨digits, ?_, hdigits.1, hdigits.2, hvalue⟩
      -- the digits are what is left when a plus sign in front is taken off
      by_cases hplus : text.head? = some '+'
      · obtain ⟨rest, rfl⟩ := List.head?_eq_some_iff.1 hplus
        exact .inr rfl
      · exact .inl (if_neg hplus).symm
    · cases h

/-- Digits of a machine word are read, whether or not a plus sign was stripped from them. -/
theorem ofWord?_of_digits {text digits : List Char}
    (htext : (if text.head? = some '+' then text.tail else text) = digits) (hne : digits ≠ [])
    (hdigits : ∀ c ∈ digits, c.isDigit = true) (hvalue : value digits < 0x10000000000000000) :
    ofWord? text = some (value digits) := by
  have hempty : digits.isEmpty = false := List.isEmpty_eq_false_iff.2 hne
  have hall : digits.all Char.isDigit = true := List.all_eq_true.2 hdigits
  unfold ofWord?
  simp only [htext, hempty, hall]
  exact if_pos hvalue

/-- A text is read as a machine word exactly if it is one. -/
theorem ofWord?_isSome_iff {text : List Char} : (ofWord? text).isSome = true ↔ IsWord text := by
  constructor
  · intro h
    obtain ⟨n, hn⟩ := Option.isSome_iff_exists.1 h
    exact ofWord?_eq_some hn
  · rintro ⟨digits, htext, hne, hdigits, hvalue⟩
    have hstrip : (if text.head? = some '+' then text.tail else text) = digits := by
      rcases htext with rfl | rfl
      · -- a sign is no digit, so digits alone are not stripped
        refine if_neg fun hplus => ?_
        obtain ⟨rest, rfl⟩ := List.head?_eq_some_iff.1 hplus
        have hdigit := hdigits '+' List.mem_cons_self
        cases hdigit
      · rfl
    rw [ofWord?_of_digits hstrip hne hdigits hvalue]
    rfl

end Text.Digits

/-- The pattern is well formed and shows something of an instant. -/
def Pattern.Usable (text : List Char) : Prop :=
  ∃ items, Pattern.ofText? (Pattern.directives text) = some items ∧
    ∃ item ∈ items, item.isField = true

/-- A pattern is accepted exactly if it is usable. -/
theorem Pattern.fieldsOfText?_isSome_iff {text : List Char} :
    (Pattern.fieldsOfText? (Pattern.directives text)).isSome = true ↔ Pattern.Usable text := by
  simp only [Pattern.fieldsOfText?, Pattern.Usable, Option.isSome_iff_exists,
    Option.filter_eq_some_iff, List.any_eq_true]

/-- The number of ticks is refused if it is set to something that is no machine word. -/
theorem Options.requestedTicks_eq_error_iff {options : Options} {value : String} :
    options.requestedTicks = .error value ↔
      options.axisTicks = some value ∧ ¬ Digits.IsWord (trim value.toList) := by
  unfold requestedTicks
  rw [← Digits.ofWord?_isSome_iff]
  cases options.axisTicks with
  | none => simp
  | some set =>
    dsimp only
    rw [Option.some.injEq]
    cases hword : Digits.ofWord? (trim set.toList) with
    | none =>
      constructor
      · intro h
        cases h
        exact ⟨rfl, by simp [hword]⟩
      · rintro ⟨rfl, _⟩
        rfl
    | some n =>
      constructor
      · intro h
        cases h
      · rintro ⟨rfl, hnot⟩
        exact absurd (by rw [hword]; rfl) hnot

/-- The number of ticks that are drawn, if the number asked for is one. -/
def Options.ticksDrawn (options : Options) : Nat :=
  match options.requestedTicks with
  | .ok (some n) => min n Plan.maximalTicks
  | _ => Plan.defaultTicks

/-- The pattern that labels are written by. -/
def Options.labelPattern (options : Options) : String :=
  options.outputDateFormat.getD Plan.defaultPattern

/-- The default pattern shows three fields, none of which an instant lacks. -/
theorem Plan.fieldsOfText?_defaultPattern :
    Pattern.fieldsOfText? (Pattern.directives Plan.defaultPattern.toList) =
      some [.quantity .year .zero, .literal '-', .quantity .month .zero, .literal '-',
        .quantity .day .zero] := by
  decide

namespace Plan

variable {plan : Plan} {fault : LayoutFault}

/-- The number of ticks fails as the option does. -/
theorem tickCount_eq_error_iff :
    plan.tickCount = .error fault ↔
      ∃ value, plan.options.axisTicks = some value ∧ ¬ Digits.IsWord (trim value.toList) ∧
        fault = .invalidOption .axisTicks value := by
  unfold tickCount
  cases hrequested : plan.options.requestedTicks with
  | ok requested =>
    have hnot : ∀ value, ¬(plan.options.axisTicks = some value ∧
        ¬ Digits.IsWord (trim value.toList)) := by
      intro value hvalue
      rw [Options.requestedTicks_eq_error_iff.2 hvalue] at hrequested
      cases hrequested
    simp only [← and_assoc, hnot, false_and, exists_false, iff_false]
    cases requested <;> exact fun h => nomatch h
  | error value =>
    obtain ⟨hset, hword⟩ := Options.requestedTicks_eq_error_iff.1 hrequested
    constructor
    · intro h
      exact ⟨value, hset, hword, (Except.error.inj h).symm⟩
    · rintro ⟨other, hother, _, rfl⟩
      cases hset.symm.trans hother
      rfl

/-- Otherwise it is the number of ticks that are drawn. -/
theorem tickCount_eq_ok {count : Nat} (h : plan.tickCount = .ok count) :
    count = plan.options.ticksDrawn := by
  unfold tickCount at h
  unfold Options.ticksDrawn
  split at h
  · rename_i hrequested
    rw [hrequested]
    exact (Except.ok.inj h).symm
  · rename_i hrequested
    rw [hrequested]
    exact (Except.ok.inj h).symm
  · cases h

/-- The pattern of a plan is that of its options. -/
theorem patternText_eq (plan : Plan) : plan.patternText = plan.options.labelPattern := rfl

/-- The fault of a pattern quotes it. -/
theorem patternFault_eq (plan : Plan) :
    plan.patternFault = .invalidOption .outputDateFormat plan.options.labelPattern := rfl

/-- The pattern fails if it is not usable. -/
theorem pattern_eq_error_iff :
    plan.pattern = .error fault ↔
      ¬ Pattern.Usable plan.options.labelPattern.toList ∧
        fault = .invalidOption .outputDateFormat plan.options.labelPattern := by
  rw [← Pattern.fieldsOfText?_isSome_iff, ← patternFault_eq, ← patternText_eq]
  unfold pattern
  cases Pattern.fieldsOfText? (Pattern.directives plan.patternText.toList) with
  | none =>
    constructor
    · intro h
      exact ⟨Bool.false_ne_true, (Except.error.inj h).symm⟩
    · rintro ⟨_, rfl⟩
      rfl
  | some items => simp

/-- Otherwise its items are what it reads as. -/
theorem pattern_eq_ok_iff {items : List Pattern.Item} :
    plan.pattern = .ok items ↔
      Pattern.fieldsOfText? (Pattern.directives plan.options.labelPattern.toList) = some items := by
  rw [← patternText_eq]
  unfold pattern
  cases Pattern.fieldsOfText? (Pattern.directives plan.patternText.toList) with
  | none => simp
  | some items => simp

end Plan

/-! ## Ticks -/

namespace Scale

/-- The tick at a position, counted from 0. -/
def tick? (scale : Scale) (count i : Nat) : Option Instant :=
  if count = 1 then some scale.start
  else scale.start.addMilliseconds? (scale.tickOffset count i)

/-- Every tick is worked out on its own. -/
theorem ticks?_eq_mapM (scale : Scale) (count : Nat) :
    scale.ticks? count = (List.range count).mapM (scale.tick? count) := by
  unfold ticks? tick?
  split
  · rename_i h
    rw [h]
    rfl
  · split
    · rename_i h
      rw [h]
      rfl
    · rfl

variable {scale : Scale} {count : Nat}

/-- **The ticks are missing** exactly if one of them is. -/
theorem ticks?_eq_none_iff : scale.ticks? count = none ↔ ∃ i < count, scale.tick? count i = none := by
  simp only [ticks?_eq_mapM, Outcome.mapM_eq_none_iff, List.mem_range]

/-- The ticks are those at the positions below their number. -/
theorem mem_ticks_iff {ticks : List Instant} (h : scale.ticks? count = some ticks) {t : Instant} :
    t ∈ ticks ↔ ∃ i < count, scale.tick? count i = some t := by
  rw [ticks?_eq_mapM] at h
  simp only [Outcome.mem_mapM_iff h, List.mem_range]

end Scale

/-! ## The grid -/

namespace Plan

variable {plan : Plan} {fault : LayoutFault}

/-- The ticks are written in order, and only the pattern can be at fault. -/
theorem mapM_tick_eq_error_iff {items : List Pattern.Item} {ticks : List Instant} :
    ticks.mapM (plan.tick items) = .error fault ↔
      (∃ t ∈ ticks, Pattern.label? t items = none) ∧ fault = plan.patternFault := by
  -- a tick is checked by its label, and drawn if that can be written
  have hstep : ∀ t ∈ ticks, plan.tick items t =
      if (Pattern.label? t items).isNone then .error plan.patternFault
      else .ok [plan.tickLine t, plan.tickLabel t ((Pattern.label? t items).getD [])] := by
    intro t _
    unfold tick
    cases Pattern.label? t items with
    | none => rfl
    | some label => rfl
  have hnone : ticks.find? (fun t => (Pattern.label? t items).isNone) = none ↔
      ¬ ∃ t ∈ ticks, Pattern.label? t items = none := by
    simp
  rw [Outcome.mapM_checked hstep]
  cases hfind : ticks.find? (fun t => (Pattern.label? t items).isNone) with
  | none => simp [hnone.1 hfind]
  | some t =>
    have hfails : ∃ t ∈ ticks, Pattern.label? t items = none :=
      ⟨t, List.mem_of_find?_eq_some hfind, by simpa using List.find?_some hfind⟩
    constructor
    · intro h
      exact ⟨hfails, (Except.error.inj h).symm⟩
    · rintro ⟨_, rfl⟩
      rfl

/-- **What keeps the grid from being drawn**: the number of ticks, then the pattern, then a tick that
    is missing, and last a label. -/
theorem grid_eq_error_iff :
    plan.grid = .error fault ↔
      plan.tickCount = .error fault ∨ ∃ count, plan.tickCount = .ok count ∧
        (plan.pattern = .error fault ∨ ∃ items, plan.pattern = .ok items ∧
          ((plan.scale.ticks? count = none ∧ fault = .dateOutOfRange) ∨
            ∃ ticks, plan.scale.ticks? count = some ticks ∧
              (∃ t ∈ ticks, Pattern.label? t items = none) ∧ fault = plan.patternFault)) := by
  unfold grid
  simp only [Outcome.bind_eq_error_iff]
  refine or_congr Iff.rfl (exists_congr fun count => and_congr_right fun _ =>
    or_congr Iff.rfl (exists_congr fun items => and_congr_right fun _ => ?_))
  -- number and pattern are in order; what is left are the ticks and their labels
  cases plan.scale.ticks? count with
  | none =>
    constructor
    · intro h
      exact .inl ⟨rfl, (Except.error.inj h).symm⟩
    · rintro (⟨_, rfl⟩ | ⟨_, hticks, _⟩)
      · rfl
      · cases hticks
  | some ticks =>
    rw [Outcome.bind_eq_error_iff, mapM_tick_eq_error_iff]
    constructor
    · rintro (h | ⟨_, _, h⟩)
      · exact .inr ⟨ticks, rfl, h⟩
      · cases h
    · rintro (⟨hticks, _⟩ | ⟨_, hticks, h⟩)
      · cases hticks
      · cases hticks
        exact .inl h

/-- A tick is drawn as its line and its label. -/
theorem mem_tick {items : List Pattern.Item} {t : Instant} {drawn : List Instruction}
    (h : plan.tick items t = .ok drawn) {instruction : Instruction} (hi : instruction ∈ drawn) :
    ∃ t, instruction = plan.tickLine t ∨ ∃ label, instruction = plan.tickLabel t label := by
  unfold tick at h
  split at h
  · cases h
    simp only [List.mem_cons, List.not_mem_nil, or_false] at hi
    rcases hi with rfl | rfl
    · exact ⟨t, .inl rfl⟩
    · exact ⟨t, .inr ⟨_, rfl⟩⟩
  · cases h

/-- The grid is the axis with the lines and labels of ticks. -/
theorem mem_grid {grid : List Instruction} (h : plan.grid = .ok grid) {instruction : Instruction}
    (hi : instruction ∈ grid) :
    instruction = plan.axisLine ∨
      ∃ t, instruction = plan.tickLine t ∨ ∃ label, instruction = plan.tickLabel t label := by
  unfold Plan.grid at h
  obtain ⟨count, _, h⟩ := Outcome.bind_eq_ok_iff.1 h
  obtain ⟨items, _, h⟩ := Outcome.bind_eq_ok_iff.1 h
  split at h
  · cases h
  · obtain ⟨drawn, hdrawn, h⟩ := Outcome.bind_eq_ok_iff.1 h
    cases h
    rcases List.mem_cons.1 hi with rfl | hi
    · exact .inl rfl
    · obtain ⟨parts, hparts, hi⟩ := List.mem_flatten.1 hi
      have hall := Outcome.mapM_eq_ok_iff.1 hdrawn
      obtain ⟨n, hn, rfl⟩ := List.getElem_of_mem hparts
      exact .inr (mem_tick (hall.get (by rw [hall.length_eq]; exact hn) hn) hi)

end Plan

end GanttChart
