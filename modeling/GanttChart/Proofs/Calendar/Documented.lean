/-
  Documented literals.

  Literals are documented as `YYYY-MM-DD`, possibly with `HH:MM` and seconds behind a `T` or a space, and
  as Internet timestamps; anything else is refused.

  1. **Documents.**  A documented literal has at least four digits of a year and exactly two of every
     other number, and no blank but the one that may separate its time (`IsDocumented`).

  2. **Slips.**  Parts of a literal fall short of that in four ways (`Parts.not_isDocumented_iff`): a
     short year, a loose field, loose blanks before the time, or a small letter there.

  3. **Acceptance.**  The local forms accept the first three slips and nothing else that is not
     documented; timestamps accept the last, which the rule for timestamps allows itself
     (`ofLiteral_undocumented_iff`).

  A text determines its parts (`Parts.text_injective`), so being documented may be said of the parts,
  and what is accepted without being documented is found by comparing two predicates on parts.
-/
import GanttChart.Proofs.Calendar.Form
import GanttChart.Proofs.Schedule.EndField

namespace GanttChart

open GanttChart.Text

namespace Literal

namespace Parts

variable {p : Parts}

/-! ## Documents -/

/-- A literal as it is documented. -/
structure IsDocumented (p : Parts) : Prop where
  year : 4 ≤ p.date.year.digits.length
  fields : ∀ f ∈ p.fields, f.IsFull
  separator : ∀ c ∈ p.clock, c.separator = ['T'] ∨ c.separator = [' ']

/-! ## Slips -/

/-- A year of three digits or less. -/
def HasShortYear (p : Parts) : Prop := p.date.year.digits.length < 4

/-- A number behind the year that has one digit or blanks in front of it. -/
def HasLooseField (p : Parts) : Prop := ∃ f ∈ p.fields, f.digits.length = 1 ∨ f.margin ≠ []

/-- No blanks between date and time, or others than one space. -/
def HasLooseSeparator (p : Parts) : Prop :=
  ∃ c ∈ p.clock, (∀ x ∈ c.separator, isBlank x = true) ∧ c.separator ≠ [' ']

/-- A small letter between date and time. -/
def HasSmallSeparator (p : Parts) : Prop := ∃ c ∈ p.clock, c.separator = ['t']

/-- A field that is not full has one digit, or blanks in front. -/
theorem not_isFull_iff {f : Field} : ¬f.IsFull ↔ f.digits.length = 1 ∨ f.margin ≠ [] := by
  have hpos := f.length_pos
  have hle := f.length_le
  have hone : ¬f.digits.length = 2 ↔ f.digits.length = 1 := by omega
  show ¬(f.margin = [] ∧ f.digits.length = 2) ↔ _
  rw [not_and_or, or_comm, hone]

/-- **The four slips** are all that can keep parts from being documented.  The separator is a
    `T`, a small `t`, or blanks, of which only one space is documented. -/
theorem not_isDocumented_iff :
    ¬p.IsDocumented ↔
      p.HasShortYear ∨ p.HasLooseField ∨ p.HasLooseSeparator ∨ p.HasSmallSeparator := by
  constructor
  · intro h
    by_contra hnone
    rw [not_or, not_or, not_or] at hnone
    obtain ⟨hyear, hfield, hloose, hsmall⟩ := hnone
    refine h ⟨Nat.le_of_not_lt hyear, fun f hf => ?_, fun c hc => ?_⟩
    · by_contra hfull
      exact hfield ⟨f, hf, not_isFull_iff.1 hfull⟩
    · -- what a separator can be, by the parts themselves
      rcases p.follows c hc with hT | ht | ⟨hblank, -⟩
      · exact .inl hT
      · exact absurd ⟨c, hc, ht⟩ hsmall
      · refine .inr ?_
        by_contra hspace
        exact hloose ⟨c, hc, hblank, hspace⟩
  · rintro hslip ⟨hyear, hfields, hseparator⟩
    rcases hslip with hshort | ⟨f, hf, hfield⟩ | ⟨c, hc, hblank, hspace⟩ | ⟨c, hc, hsmall⟩
    · exact Nat.not_lt_of_le hyear hshort
    · exact not_isFull_iff.2 hfield (hfields f hf)
    · exact (hseparator c hc).elim (ne_of_forall_isBlank hblank rfl) hspace
    · rcases hseparator c hc with h | h
      all_goals
        rw [hsmall] at h
        cases h

/-- No local form accepts a small letter. -/
theorem IsLocal.not_hasSmallSeparator (h : p.IsLocal) : ¬p.HasSmallSeparator := by
  rintro ⟨c, hc, hsmall⟩
  exact (h.2 c hc).2 hsmall

/-- All that a timestamp can have is a small letter: its numbers have their exact widths, and its
    separator is one character. -/
theorem IsTimestamp.not_isDocumented_iff (h : p.IsTimestamp) :
    ¬p.IsDocumented ↔ p.HasSmallSeparator := by
  obtain ⟨-, hfour, hfull, c, hclock, -, -, hseparator⟩ := h
  rw [Parts.not_isDocumented_iff]
  constructor
  · rintro (hshort | ⟨f, hf, hfield⟩ | ⟨d, hd, hblank, hspace⟩ | hsmall)
    · exact absurd hshort hfour.not_lt
    · exact absurd (hfull f hf) (not_isFull_iff.2 hfield)
    · -- a separator of blanks has one character here, and it is the space
      cases Option.mem_unique hclock hd
      rcases hseparator with hT | ht | hone
      · exact absurd hT (ne_of_forall_isBlank hblank rfl)
      · exact absurd ht (ne_of_forall_isBlank hblank rfl)
      · exact absurd hone hspace
    · exact hsmall
  · exact fun hsmall => .inr (.inr (.inr hsmall))

end Parts

/-- A text that is a documented literal. -/
def IsDocumented (text : List Char) : Prop := ∃ p : Parts, p.text = text ∧ p.IsDocumented

/-- Whether a text is documented is told by its parts, since it has only these. -/
theorem isDocumented_text_iff {p : Parts} : IsDocumented p.text ↔ p.IsDocumented := by
  constructor
  · rintro ⟨q, htext, hq⟩
    exact Parts.text_injective htext ▸ hq
  · exact fun hp => ⟨p, rfl, hp⟩

/-- A documented literal is as long as a date: four digits, twice two, and two hyphens. -/
theorem IsDocumented.length_le {text : List Char} (h : IsDocumented text) : 10 ≤ text.length := by
  obtain ⟨p, rfl, hyear, hfields, -⟩ := h
  have hmonth := (hfields p.date.month List.mem_cons_self).2
  have hday := (hfields p.date.day (List.mem_cons_of_mem _ List.mem_cons_self)).2
  simp only [Parts.text, DateParts.text, YearField.text, Field.text, List.length_append,
    List.length_cons]
  omega

end Literal

namespace Instant

open Literal

/-! ## Acceptance -/

/-- **What is accepted although it is not documented**: in the local forms exactly the texts with a short
    year, a loose field or loose blanks before the time, and timestamps with a small letter there.  What
    is not accepted is an invalid date. -/
theorem ofLiteral_undocumented_iff (text : List Char) :
    (∀ t, ofLiteral text = .ok t ∧ ¬IsDocumented (trim text) ↔
      ∃ p : Parts, p.text = trim text ∧ p.instant? = some t ∧
        (p.IsLocal ∧ (p.HasShortYear ∨ p.HasLooseField ∨ p.HasLooseSeparator) ∨
          p.IsTimestamp ∧ p.HasSmallSeparator)) ∧
    ∀ fault, ofLiteral text = .error fault →
      fault = .invalidDate (String.ofList (trim text)) := by
  refine ⟨fun t => ?_, fun fault h => (ofLiteral_eq_error_iff.1 h).2⟩
  rw [ofLiteral_eq_ok_iff, ofLiteral?_eq_some_iff]
  constructor
  · -- a text without a slip would be documented
    rintro ⟨⟨p, htext, hform, hinstant⟩, hnot⟩
    rw [← htext, isDocumented_text_iff] at hnot
    refine ⟨p, htext, hinstant, hform.imp (fun hlocal => ⟨hlocal, ?_⟩) fun htimestamp => ?_⟩
    · rcases Parts.not_isDocumented_iff.1 hnot with hshort | hfield | hloose | hsmall
      · exact .inl hshort
      · exact .inr (.inl hfield)
      · exact .inr (.inr hloose)
      · exact absurd hsmall hlocal.not_hasSmallSeparator
    · exact ⟨htimestamp, htimestamp.not_isDocumented_iff.1 hnot⟩
  · -- and each slip keeps it from being so
    rintro ⟨p, htext, hinstant, hslip⟩
    refine ⟨⟨p, htext, hslip.imp And.left And.left, hinstant⟩, ?_⟩
    rw [← htext, isDocumented_text_iff, Parts.not_isDocumented_iff]
    rcases hslip with ⟨-, hshort | hfield | hloose⟩ | ⟨-, hsmall⟩
    · exact .inl hshort
    · exact .inr (.inl hfield)
    · exact .inr (.inr (.inl hloose))
    · exact .inr (.inr (.inr hsmall))

/-- A date of the year 24, with none of its numbers as documented. -/
theorem ofLiteral_undocumented_iff_short :
    ofLiteral "24-1-5".toList = .ok ⟨⟨-710758, by decide, by decide⟩, .midnight⟩ ∧
      ¬IsDocumented (trim "24-1-5".toList) := by
  let year : YearField := ⟨[], ['2', '4'], .inl rfl, List.all_eq_true.1 rfl, by decide⟩
  let month : Field := ⟨[], ['1'], nofun, List.all_eq_true.1 rfl, by decide, by decide⟩
  let day : Field := ⟨[], ['5'], nofun, List.all_eq_true.1 rfl, by decide, by decide⟩
  refine ((ofLiteral_undocumented_iff "24-1-5".toList).1 _).2
    ⟨.dateOnly ⟨year, month, day⟩, ?_, ?_, .inl ⟨Parts.isLocal_dateOnly ?_, .inl ?_⟩⟩
  · decide
  · decide
  · decide
  · show 2 < 4
    decide

/-- Acceptance is not what is documented. -/
theorem exists_ofLiteral_undocumented :
    ¬∀ (text : List Char) (t : Instant), ofLiteral text = .ok t → IsDocumented (trim text) := by
  intro h
  have hread : ofLiteral "24-1-5".toList = .ok ⟨⟨-710758, by decide, by decide⟩, .midnight⟩ := by
    decide
  -- ten characters would be needed, and there are six
  have hlength := (h _ _ hread).length_le
  have hsix : (trim "24-1-5".toList).length = 6 := by decide
  omega

end Instant

end GanttChart
