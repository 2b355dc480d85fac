/-
  Durations of whole units.

  Weeks, days, hours, minutes and seconds have a fixed length in milliseconds.  A whole number of them
  is exact, although it is multiplied and rounded in floating point:

  1. **Amounts.**  The amount counts the units and every step keeps to the count, so what is rounded
     counts the milliseconds (`TimeUnit.exists_counts_milliseconds`).

  2. **The bound.**  Up to 9 * 10 ^ 15 milliseconds, a little less than 2 ^ 53, a count is exact; from
     there on it is refused, also where it is no longer exact (`TimeUnit.addRounded?_of_counts`).

  3. **Durations.**  So a duration of whole units moves an instant by the product of the two numbers, or
     else is a fault of its text, and only this product matters (`Duration.after_whole`).
-/
import GanttChart.Proofs.Binary64.Whole
import GanttChart.Proofs.Chart.Moving
import GanttChart.Proofs.Text.Trim

namespace GanttChart

open GanttChart.Text GanttChart.Binary64

/-- A fault of the syntax, by the words that its message begins with. -/
def LineFault.IsSyntax (fault : LineFault) : Prop :=
  "syntax error: ".toList <+: fault.message.toList

/-- An amount that is no number is a fault of the syntax. -/
theorem LineFault.isSyntax_amount (number duration : String) :
    (LineFault.amount number duration).IsSyntax := by
  unfold IsSyntax message
  simp only [String.toList_append, List.append_assoc]
  exact List.IsPrefix.trans ⟨['\''], rfl⟩ (List.prefix_append _ _)

/-- A duration that leads too far is one as well. -/
theorem LineFault.isSyntax_outOfRange (duration : String) :
    (LineFault.outOfRange duration).IsSyntax := by
  unfold IsSyntax message
  simp only [String.toList_append, List.append_assoc]
  exact List.IsPrefix.trans ⟨['\''], rfl⟩ (List.prefix_append _ _)

variable {t u : Instant} {n : Int} {length : Nat}

/-! ## Units of a fixed length

  Months and years are left out: they are counted on the calendar and not in milliseconds. -/

/-- The instant a whole number of milliseconds later, as far as such a number is not refused. -/
def Instant.addWhole? (t : Instant) (milliseconds : Int) : Option Instant :=
  if milliseconds.natAbs ≤ 9000000000000000 then t.addMilliseconds? milliseconds else none

/-- A whole number of milliseconds is added within the bound. -/
theorem Instant.addWhole?_eq_some_iff {milliseconds : Int} :
    t.addWhole? milliseconds = some u ↔
      milliseconds.natAbs ≤ 9000000000000000 ∧ t.addMilliseconds? milliseconds = some u := by
  unfold addWhole?
  split
  · rename_i hle
    exact (and_iff_right hle).symm
  · rename_i hlt
    exact iff_of_false (Option.some_ne_none u).symm fun h => hlt h.1

namespace TimeUnit

/-- The milliseconds of a unit, if it has a fixed length. -/
def milliseconds? : TimeUnit → Option Nat
  | .week => some 604800000
  | .day => some 86400000
  | .hour => some 3600000
  | .minute => some 60000
  | .second => some 1000
  | .month => none
  | .year => none

/-- No unit is of no length. -/
theorem milliseconds?_pos {unit : TimeUnit} (h : unit.milliseconds? = some length) : 0 < length := by
  cases unit with
  | month => cases h
  | year => cases h
  | _ =>
    cases h
    decide

variable {unit : TimeUnit} {x y : Binary64} {negative : Bool} {count : Nat}

/-- A count is how large the number is, of either sign. -/
theorem natAbs_signed (negative : Bool) (count : Nat) : (signed negative count).natAbs = count := by
  cases negative with
  | true => exact Int.natAbs_neg count
  | false => rfl

/-- The bound is the number that it is written as. -/
theorem is_bound : (9e15 : Binary64).Is false (9000000000000000 * Binary64.unit) := by
  have hvalue : (9e15 : Binary64) = Binary64.ofNat 9000000000000000 := by decide +kernel
  rw [hvalue]
  exact is_ofNat (by decide)

/-- **A count of milliseconds is added as it is**, or refused past the bound. -/
theorem addRounded?_of_counts (hy : y.Counts negative count) (t : Instant) :
    addRounded? t y = t.addWhole? (signed negative count) := by
  have hround := hy.round
  have hlt := hround.lt_abs_iff is_bound (by decide)
  unfold addRounded? Instant.addWhole?
  rw [natAbs_signed]
  by_cases hle : count ≤ 9000000000000000
  · have hexact := hround.exact (Nat.lt_of_le_of_lt hle (by decide))
    have hbound : Binary64.lt 9e15 y.round.abs = false := by
      rw [Bool.eq_false_iff, ne_eq, hlt]
      exact Nat.not_lt.2 hle
    simp only [hexact.isFinite, hexact.toInt, hbound, if_pos hle]
    rfl
  · have hbound : Binary64.lt 9e15 y.round.abs = true := hlt.2 (Nat.lt_of_not_le hle)
    simp only [hbound, Bool.or_true, if_neg hle, if_true]

/-- An amount that counts units of a fixed length counts their milliseconds when it is multiplied. -/
theorem exists_counts_milliseconds (hunit : unit.milliseconds? = some length)
    (hx : x.Counts negative count) (t : Instant) :
    ∃ y : Binary64, unit.add? t x = addRounded? t y ∧ y.Counts negative (count * length) := by
  cases unit with
  | week =>
    cases hunit
    have hweek := (hx.mul (k := 7) (by decide) (by decide)).mul (k := 86400000) (by decide) (by decide)
    rw [Nat.mul_assoc] at hweek
    exact ⟨_, rfl, hweek⟩
  | day =>
    cases hunit
    exact ⟨_, rfl, hx.mul (by decide) (by decide)⟩
  | hour =>
    cases hunit
    exact ⟨_, rfl, hx.mul (by decide) (by decide)⟩
  | minute =>
    cases hunit
    exact ⟨_, rfl, hx.mul (by decide) (by decide)⟩
  | second =>
    cases hunit
    exact ⟨_, rfl, hx.mul (by decide) (by decide)⟩
  | month => cases hunit
  | year => cases hunit

/-- A count of units is added as their milliseconds. -/
theorem add?_of_counts (hunit : unit.milliseconds? = some length) (hx : x.Counts negative count)
    (t : Instant) : unit.add? t x = t.addWhole? (signed negative count * length) := by
  obtain ⟨y, hadd, hy⟩ := exists_counts_milliseconds hunit hx t
  have hproduct : signed negative (count * length) = signed negative count * length := by
    cases negative with
    | true =>
      show -((count * length : Nat) : Int) = -(count : Int) * length
      rw [Int.natCast_mul, Int.neg_mul]
    | false => exact Int.natCast_mul count length
  rw [hadd, addRounded?_of_counts hy, hproduct]

end TimeUnit

/-! ## Durations -/

namespace Duration

/-- The milliseconds of the unit of a letter, if it has a fixed length. -/
def unitLength? (letter : Char) : Option Nat :=
  (TimeUnit.ofLetter? letter).bind TimeUnit.milliseconds?

/-- Units of a fixed length, with a finer one and how many of it they are. -/
def subdivisions : List (Char × Char × Nat) :=
  [('W', 'D', 7), ('D', 'H', 24), ('H', 'm', 60), ('m', 'S', 60)]

/-- A unit is as long as its parts together. -/
theorem unitLength?_of_mem_subdivisions {letter finer : Char} {parts : Nat}
    (h : (letter, finer, parts) ∈ subdivisions) :
    ∃ length, unitLength? finer = some length ∧ unitLength? letter = some (parts * length) := by
  have hall : ∀ entry ∈ subdivisions, ∃ length ∈ [86400000, 3600000, 60000, 1000],
      unitLength? entry.2.1 = some length ∧ unitLength? entry.1 = some (entry.2.2 * length) := by
    decide
  obtain ⟨length, _, hlength⟩ := hall _ h
  exact ⟨length, hlength⟩

variable {letter : Char} {numeral : List Char}

/-- The amount in front of a unit, when it is an integer. -/
theorem amount?_of_isInteger (hn : IsInteger numeral n) :
    amount? numeral = (ofNumeral? numeral).filter Binary64.isFinite := by
  obtain ⟨negative, digits, hne, hdigits, rfl, -⟩ := hn
  have hplain : ∀ c ∈ (if negative then ['-'] else []) ++ digits, isBlank c = false := by
    intro c hc
    rcases List.mem_append.1 hc with hsign | hdigit
    · cases negative with
      | true =>
        cases List.mem_singleton.1 hsign
        rfl
      | false => cases hsign
    · exact isBlank_of_isDigit (hdigits c hdigit)
  have htrim : trim ((if negative then ['-'] else []) ++ digits) =
      (if negative then ['-'] else []) ++ digits :=
    trim_eq_self (fun c hc => hplain c (List.mem_of_head? hc))
      fun c hc => hplain c (List.mem_of_getLast? hc)
  have hempty : ((if negative then ['-'] else []) ++ digits).isEmpty = false := by
    rw [List.isEmpty_eq_false_iff]
    exact List.append_ne_nil_of_right_ne_nil _ hne
  unfold amount?
  simp only [htrim, hempty, Bool.false_eq_true, if_false]

/-- A duration of whole units leads to an instant or is a fault of the syntax. -/
theorem after_of_isInteger (hletter : unitLength? letter = some length)
    (hn : IsInteger numeral n) (t : Instant) :
    (∃ u, t.addWhole? (n * length) = some u ∧ after t (numeral ++ [letter]) = .ok u) ∨
      t.addWhole? (n * length) = none ∧
        ∃ fault, after t (numeral ++ [letter]) = .error fault ∧ fault.IsSyntax := by
  obtain ⟨unit, hunit, hlength⟩ := Option.bind_eq_some_iff.1 hletter
  obtain ⟨x, negative, count, hx, hcounts, hcount⟩ := exists_counts_of_isInteger hn
  have hlast : (numeral ++ [letter]).getLast?.bind TimeUnit.ofLetter? = some unit := by
    rw [List.getLast?_concat]
    exact hunit
  have hadd : unit.add? t x = t.addWhole? (n * length) := by
    rw [hcount]
    exact TimeUnit.add?_of_counts hlength hcounts t
  unfold after
  rw [hlast, List.dropLast_concat, amount?_of_isInteger hn, hx, Option.filter_some]
  cases hfinite : x.isFinite with
  | true =>
    rw [if_pos rfl]
    dsimp only
    rw [hadd]
    cases t.addWhole? (n * length) with
    | some u => exact .inl ⟨u, rfl, rfl⟩
    | none => exact .inr ⟨rfl, _, rfl, LineFault.isSyntax_outOfRange _⟩
  | false =>
    -- an infinite amount counts more units than any instant is away
    have hlarge : 2 ^ 53 ≤ count := by
      refine Nat.le_of_not_lt fun hsmall => ?_
      rw [(hcounts.exact hsmall).isFinite] at hfinite
      cases hfinite
    have hpast : ¬(n * length).natAbs ≤ 9000000000000000 := by
      rw [hcount, Int.natAbs_mul, TimeUnit.natAbs_signed, Int.natAbs_natCast]
      have hproduct := Nat.le_mul_of_pos_right count (TimeUnit.milliseconds?_pos hlength)
      omega
    rw [if_neg Bool.false_ne_true]
    exact .inr ⟨if_neg hpast, _, rfl, LineFault.isSyntax_amount _ _⟩

/-- A duration of whole units leads where their milliseconds lead. -/
theorem after_eq_ok_iff_addWhole? (hletter : unitLength? letter = some length)
    (hn : IsInteger numeral n) (t u : Instant) :
    after t (numeral ++ [letter]) = .ok u ↔ t.addWhole? (n * length) = some u := by
  rcases after_of_isInteger hletter hn t with ⟨later, hadd, hafter⟩ | ⟨hadd, fault, hafter, -⟩
  · rw [hadd, hafter, Except.ok.injEq, Option.some.injEq]
  · rw [hadd, hafter]
    exact iff_of_false nofun nofun

/-- **Durations of whole units are exact.**  A whole number of units of a fixed length leads from an
    instant to the one as many milliseconds later, if there is one and they are not more than
    9 * 10 ^ 15 in either direction; outside leap seconds the clock goes on by them.  Any other
    is a fault of the syntax.  The same time in a finer unit leads to the same instant, or nowhere. -/
theorem after_whole (hletter : unitLength? letter = some length) (hn : IsInteger numeral n)
    (t : Instant) :
    (∀ u, after t (numeral ++ [letter]) = .ok u ↔
      (n * length).natAbs ≤ 9000000000000000 ∧ t.addMilliseconds? (n * length) = some u) ∧
    (¬t.InLeapSecond → ∀ u, after t (numeral ++ [letter]) = .ok u ↔
      (n * length).natAbs ≤ 9000000000000000 ∧
        ¬u.InLeapSecond ∧ u.clock = t.clock + n * length * 1000000) ∧
    (∀ fault, after t (numeral ++ [letter]) = .error fault → fault.IsSyntax) ∧
    (∀ finer parts numeral', (letter, finer, parts) ∈ subdivisions →
      IsInteger numeral' (parts * n) →
        ∀ u, after t (numeral ++ [letter]) = .ok u ↔ after t (numeral' ++ [finer]) = .ok u) := by
  have hok : ∀ u, after t (numeral ++ [letter]) = .ok u ↔
      (n * length).natAbs ≤ 9000000000000000 ∧ t.addMilliseconds? (n * length) = some u := by
    intro u
    rw [after_eq_ok_iff_addWhole? hletter hn, Instant.addWhole?_eq_some_iff]
  -- the clock, the faults and the finer units
  refine ⟨hok, ?_, ?_, ?_⟩
  · intro ht u
    rw [hok u, Instant.addMilliseconds?, Instant.addNanoseconds?_of_plain ht]
  · intro fault hfault
    rcases after_of_isInteger hletter hn t with ⟨u, _, hafter⟩ | ⟨_, found, hafter, hsyntax⟩
    · cases hafter.symm.trans hfault
    · cases hafter.symm.trans hfault
      exact hsyntax
  · intro finer parts numeral' hmem hn' u
    obtain ⟨length', hfiner, hwhole⟩ := unitLength?_of_mem_subdivisions hmem
    have hlength : length = parts * length' := Option.some.inj (hletter.symm.trans hwhole)
    have hsame : n * (length : Int) = parts * n * length' := by
      rw [hlength, Int.natCast_mul, Int.mul_left_comm, Int.mul_assoc]
    rw [after_eq_ok_iff_addWhole? hletter hn, after_eq_ok_iff_addWhole? hfiner hn', hsame]

/-- Seven weeks back, with superfluous zeros. -/
theorem after_whole_weeks :
    unitLength? 'W' = some 604800000 ∧ IsInteger "-007".toList (-7) ∧
      after (.atMidnight .epoch) "-007W".toList =
        .ok (.atMidnight ⟨-49, by decide, by decide⟩) := by
  have hunit : unitLength? 'W' = some 604800000 := rfl
  have hnumeral : IsInteger "-007".toList (-7) :=
    ⟨true, "007".toList, by decide, List.all_eq_true.1 (by decide), rfl, by decide⟩
  refine ⟨hunit, hnumeral, ((after_whole hunit hnumeral (.atMidnight .epoch)).1 _).2 ?_⟩
  exact ⟨by decide, by decide⟩

end Duration

end GanttChart
