/-
  End fields.

  The end of a task is a duration after its start or a literal, and the field does not say which.  It
  need not: a duration ends with the letter of a unit, and no literal has such a letter
  (`TimeUnit.not_isLiteralChar`).  So at most one of the two readings succeeds, whichever is tried
  first (`Instant.endField_unambiguous`).
-/
import GanttChart.Proofs.Calendar.Literal
import GanttChart.Schedule.DateField

namespace GanttChart

open GanttChart.Text

/-- Letters of units are in no literal. -/
theorem TimeUnit.not_isLiteralChar {letter : Char} {unit : TimeUnit}
    (h : ofLetter? letter = some unit) : Literal.isLiteralChar letter = false := by
  unfold ofLetter? at h
  split at h
  case h_8 => cases h
  all_goals decide

namespace Instant

variable {t u v : Instant} {text : List Char}

/-- A text that is a literal is no duration, for its last character is no unit. -/
theorem after_of_ofLiteral? (h : ofLiteral? text = some v) (t : Instant) :
    Duration.after t text = .error (.unknownUnit (String.ofList text)) := by
  have hunit : text.getLast?.bind TimeUnit.ofLetter? = none := by
    rw [Option.bind_eq_none_iff]
    intro letter hletter
    cases hunit : TimeUnit.ofLetter? letter with
    | none => rfl
    | some unit =>
      have hchar := isLiteralChar_of_ofLiteral? h (List.mem_of_getLast? hletter)
      rw [TimeUnit.not_isLiteralChar hunit] at hchar
      cases hchar
  unfold Duration.after
  rw [hunit]

/-- The end of an item in the other order: a literal, or else a duration.  If the text is neither, the
    literal is what it lacks. -/
def ofLiteralOrDuration (t : Instant) (text : List Char) : Except LineFault Instant :=
  match ofLiteral text with
  | .ok u => .ok u
  | .error fault =>
    match Duration.after t text with
    | .ok u => .ok u
    | .error _ => .error fault

/-- A literal that has a meaning is read as it. -/
theorem ofLiteral_eq_ok_iff : ofLiteral text = .ok u ↔ ofLiteral? text = some u := by
  unfold ofLiteral
  cases ofLiteral? text with
  | some v => rw [Except.ok.injEq, Option.some.injEq]
  | none => exact iff_of_false nofun nofun

/-- A text that has none is reported as it stands, without the blanks around it. -/
theorem ofLiteral_eq_error_iff {fault : LineFault} :
    ofLiteral text = .error fault ↔
      ofLiteral? text = none ∧ fault = .invalidDate (String.ofList (trim text)) := by
  unfold ofLiteral
  cases ofLiteral? text with
  | some v => exact iff_of_false nofun nofun
  | none =>
    rw [Except.error.injEq]
    exact ⟨fun h => ⟨rfl, h.symm⟩, fun h => h.2.symm⟩

/-- **An end field is unambiguous.**  No text is both a duration and a literal.  The field is read
    exactly if the text is one of them, as that one and in either order of the two readings; if it is
    neither, what is reported is that it is no date. -/
theorem endField_unambiguous (t : Instant) (text : List Char) :
    (∀ u v, ¬(Duration.after t text = .ok u ∧ ofLiteral text = .ok v)) ∧
    (∀ u, ofEndField t text = .ok u ↔ Duration.after t text = .ok u ∨ ofLiteral text = .ok u) ∧
    ofEndField t text = ofLiteralOrDuration t text ∧
    (∀ fault, ofEndField t text = .error fault ↔
      fault = .invalidDate (String.ofList (trim text)) ∧
        (∀ u, Duration.after t text ≠ .ok u) ∧ ∀ u, ofLiteral text ≠ .ok u) := by
  have hdisjoint : ∀ u v, ¬(Duration.after t text = .ok u ∧ ofLiteral text = .ok v) := by
    rintro u v ⟨hafter, hliteral⟩
    rw [after_of_ofLiteral? (ofLiteral_eq_ok_iff.1 hliteral)] at hafter
    cases hafter
  refine ⟨hdisjoint, ?_⟩
  unfold ofEndField ofLiteralOrDuration
  -- the four combinations of the two readings; both at once is what cannot be
  cases hafter : Duration.after t text with
  | ok later =>
    cases hliteral : ofLiteral text with
    | ok v => exact absurd ⟨hafter, hliteral⟩ (hdisjoint later v)
    | error fault => simp
  | error reason =>
    -- without a duration both orders come to the literal, or to the fault of the literal
    cases hliteral : ofLiteral text with
    | ok v => simp
    | error fault =>
      have hfault := (ofLiteral_eq_error_iff.1 hliteral).2
      simp [hfault, eq_comm]

end Instant

end GanttChart
