/-
  Reading a schedule line by line.

  1. **The run.**  Lines count one after the other, so an accepted list of lines is a chain of
     changes (`addLines_concat_eq_ok_iff`), and what every change preserves holds after all lines
     (`addLines_induction`).

  2. **The first fault.**  A refused list of lines splits at the line of its fault: the lines before
     it are accepted and the lines after it play no part (`addLines_eq_error_iff`).

  3. **Fronts.**  `front j text` is the text of the first `j` lines.  Reading a text relates the
     outcomes of all its fronts: up to the first fault every front is accepted, each one line's
     change after the one before, and from the fault on every front is refused with that fault.
-/
import GanttChart.Proofs.Schedule.Change
import GanttChart.Proofs.Text.Prefix
import Mathlib.Data.List.Induction

namespace GanttChart.Schedule

open GanttChart.Outcome GanttChart.Text

/-! ## The run

  A run is taken apart at its last line, not at its first: what an accepted text says of a line
  refers to the lines before it, so these have to be the ones that the induction knows about. -/

/-- Lines behind others are read among what those describe, with the numbers that follow theirs. -/
theorem addLines_append_eq_ok_iff {s after : Schedule} {line : Nat} {front rest : List (List Char)} :
    s.addLines line (front ++ rest) = .ok after ↔
      ∃ middle, s.addLines line front = .ok middle ∧
        middle.addLines (line + front.length) rest = .ok after := by
  rw [addLines_append]
  exact bind_eq_ok_iff

/-- A single line is accepted with its change, whatever its number. -/
theorem addLines_singleton_eq_ok_iff {s after : Schedule} {line : Nat} {text : List Char} :
    s.addLines line [text] = .ok after ↔ Change (Line.ofText text) s after := by
  rw [← addLine_eq_ok_iff, addLines]
  cases s.addLine text with
  | ok next => simp [addLines]
  | error fault => simp

/-- The last line changes the schedule of the lines before it. -/
theorem addLines_concat_eq_ok_iff {s after : Schedule} {line : Nat} {front : List (List Char)}
    {text : List Char} :
    s.addLines line (front ++ [text]) = .ok after ↔
      ∃ before, s.addLines line front = .ok before ∧ Change (Line.ofText text) before after := by
  simp only [addLines_append_eq_ok_iff, addLines_singleton_eq_ok_iff]

/-- **What every change preserves holds after all lines.**  The invariant may speak about the
    lines read so far, as it must if it relates the schedule to its source. -/
theorem addLines_induction {s : Schedule} {line : Nat} (motive : List (List Char) → Schedule → Prop)
    (nil : motive [] s)
    (concat : ∀ front text before after, motive front before →
      Change (Line.ofText text) before after → motive (front ++ [text]) after)
    {texts : List (List Char)} {after : Schedule} (h : s.addLines line texts = .ok after) :
    motive texts after := by
  induction texts using List.reverseRecOn generalizing after with
  | nil =>
    cases h
    exact nil
  | append_singleton front text ih =>
    obtain ⟨before, hbefore, hchange⟩ := addLines_concat_eq_ok_iff.1 h
    exact concat front text before after (ih hbefore) hchange

/-! ## The first fault -/

/-- A fault is that of a line after accepted ones, and the lines after it do not matter.  Its
    number is how many lines there are up to it, counted on from the number of the first. -/
theorem addLines_eq_error_iff {s : Schedule} {line : Nat} {texts : List (List Char)}
    {located : LocatedFault} :
    s.addLines line texts = .error located ↔
      ∃ front text rest middle, texts = front ++ text :: rest ∧
        s.addLines line front = .ok middle ∧ middle.addLine text = .error located.fault ∧
        located.line = line + front.length := by
  constructor
  · intro h
    -- by induction from the front, for the fault is found from there
    induction texts generalizing s line with
    | nil => cases h
    | cons text rest ih =>
      rw [addLines] at h
      cases hline : s.addLine text with
      | error fault =>
        rw [hline] at h
        cases h
        exact ⟨[], text, rest, s, rfl, rfl, hline, rfl⟩
      | ok next =>
        rw [hline] at h
        obtain ⟨front, bad, later, middle, rfl, hfront, hbad, hnumber⟩ := ih h
        refine ⟨text :: front, bad, later, middle, rfl, ?_, hbad, ?_⟩
        · rw [addLines, hline]
          exact hfront
        · rw [hnumber, List.length_cons]
          omega
  · rintro ⟨front, text, rest, middle, rfl, hfront, htext, hnumber⟩
    rw [addLines_append, hfront]
    show middle.addLines (line + front.length) (text :: rest) = .error located
    rw [addLines, htext, ← hnumber]

/-- The lines before a fault are accepted, and with the line of the fault the same fault is found
    whatever follows. -/
theorem addLines_take_of_error {s : Schedule} {line : Nat} {texts : List (List Char)}
    {located : LocatedFault} (h : s.addLines line texts = .error located) :
    line ≤ located.line ∧ located.line < line + texts.length ∧
      (∀ j, line + j ≤ located.line → ∃ middle, s.addLines line (texts.take j) = .ok middle) ∧
      ∀ j, located.line < line + j → s.addLines line (texts.take j) = .error located := by
  obtain ⟨front, text, rest, middle, rfl, hfront, htext, hnumber⟩ := addLines_eq_error_iff.1 h
  refine ⟨by omega, by rw [List.length_append, List.length_cons]; omega, ?_, ?_⟩
  · intro j hj
    rw [List.take_append_of_le_length (by omega)]
    rw [← List.take_append_drop j front] at hfront
    obtain ⟨early, hearly, _⟩ := addLines_append_eq_ok_iff.1 hfront
    exact ⟨early, hearly⟩
  · intro j hj
    -- These lines are the accepted ones, the one with the fault, and `k` more that are not read.
    obtain ⟨k, rfl⟩ : ∃ k, j = front.length + (k + 1) := ⟨j - front.length - 1, by omega⟩
    rw [List.take_length_add_append, List.take_succ_cons]
    exact addLines_eq_error_iff.2 ⟨front, text, rest.take k, middle, rfl, hfront, htext, hnumber⟩

/-- The first lines of accepted lines are accepted, each with the change of its last line. -/
theorem addLines_take_of_ok {s after : Schedule} {line : Nat} {texts : List (List Char)}
    (h : s.addLines line texts = .ok after) :
    (∀ j, ∃ middle, s.addLines line (texts.take j) = .ok middle) ∧
      ∀ j text, texts[j]? = some text → ∃ before later,
        s.addLines line (texts.take j) = .ok before ∧
        s.addLines line (texts.take (j + 1)) = .ok later ∧
        Change (Line.ofText text) before later := by
  have hfront : ∀ j, ∃ middle, s.addLines line (texts.take j) = .ok middle := by
    intro j
    rw [← List.take_append_drop j texts] at h
    obtain ⟨middle, hmiddle, _⟩ := addLines_append_eq_ok_iff.1 h
    exact ⟨middle, hmiddle⟩
  refine ⟨hfront, ?_⟩
  intro j text htext
  obtain ⟨later, hlater⟩ := hfront (j + 1)
  have hlast : texts.take (j + 1) = texts.take j ++ [text] := by
    rw [List.take_add_one, htext]
    rfl
  rw [hlast] at hlater ⊢
  obtain ⟨before, hbefore, hchange⟩ := addLines_concat_eq_ok_iff.1 hlater
  exact ⟨before, later, hbefore, hlater, hchange⟩

/-! ## Fronts

  To speak of the lines of a text one by one, the text is compared with its fronts.  A front is a
  text again, so what is said of it is what the program would do with it. -/

/-- The text of the first `j` lines of a text. -/
def front (j : Nat) (text : String) : String := String.ofList (firstLines j text.toList)

/-- The lines of a front are the first lines of the text. -/
theorem lines_front (j : Nat) (text : String) :
    lines (front j text).toList = (lines text.toList).take j := by
  rw [front, String.toList_ofList, lines_firstLines]

/-- Reading a front is reading the first lines. -/
theorem ofText_front (j : Nat) (text : String) :
    ofText (front j text) = addLines {} 1 ((lines text.toList).take j) := by
  rw [ofText, lines_front]

/-- **Texts are read line by line up to the first fault.**  The fronts of a text are its beginnings
    and have its first lines.  If the text is refused, the fault names one of its lines; the fronts
    before that line are accepted and all others are refused with the same fault.  If the text is
    accepted, so is every front, from the empty schedule on, and each line makes its one change. -/
theorem ofText_front_by_front (text : String) :
    (∀ j, (front j text).toList <+: text.toList ∧
      lines (front j text).toList = (lines text.toList).take j) ∧
    (∀ located, ofText text = .error located →
      1 ≤ located.line ∧ located.line ≤ (lines text.toList).length ∧
      (∀ j < located.line, ∃ s, ofText (front j text) = .ok s) ∧
      ∀ j ≥ located.line, ofText (front j text) = .error located) ∧
    ∀ s, ofText text = .ok s →
      ofText (front 0 text) = .ok {} ∧
      (∀ j, ∃ middle, ofText (front j text) = .ok middle) ∧
      ∀ j line, (lines text.toList)[j]? = some line → ∃ before after,
        ofText (front j text) = .ok before ∧ ofText (front (j + 1) text) = .ok after ∧
        Change (Line.ofText line) before after := by
  -- what fronts are, refused texts, accepted texts
  refine ⟨fun j => ⟨?_, lines_front j text⟩, ?_, ?_⟩
  · rw [front, String.toList_ofList]
    exact firstLines_isPrefix j text.toList
  · intro located h
    obtain ⟨hlow, hhigh, hbefore, hfrom⟩ := addLines_take_of_error h
    refine ⟨hlow, by omega, ?_, ?_⟩
    · intro j hj
      obtain ⟨s, hs⟩ := hbefore j (by omega)
      exact ⟨s, by rw [ofText_front, hs]⟩
    · intro j hj
      rw [ofText_front]
      exact hfrom j (by omega)
  · intro s h
    obtain ⟨hfront, hstep⟩ := addLines_take_of_ok h
    simp only [ofText_front]
    exact ⟨by rw [List.take_zero, addLines], hfront, hstep⟩

/-- A text whose third line takes an id again, and one that is accepted. -/
theorem ofText_front_by_front_duplicate :
    ofText "task T,a,,2024-01-01,1D\n\nmilestone M,a,,2024-01-02\nend" =
        .error ⟨3, .duplicateId "a"⟩ ∧
      (∃ s, ofText (front 2 "task T,a,,2024-01-01,1D\n\nmilestone M,a,,2024-01-02\nend") = .ok s) ∧
      ofText (front 3 "task T,a,,2024-01-01,1D\n\nmilestone M,a,,2024-01-02\nend") =
        .error ⟨3, .duplicateId "a"⟩ ∧
      ofText "group A\n%% B\ngroup C" = .ok { groups := [⟨"A"⟩, ⟨"C"⟩] } ∧
      ∃ before after, ofText (front 2 "group A\n%% B\ngroup C") = .ok before ∧
        ofText (front 3 "group A\n%% B\ngroup C") = .ok after ∧
        Change (Line.ofText "group C".toList) before after := by
  have hrefused : ofText "task T,a,,2024-01-01,1D\n\nmilestone M,a,,2024-01-02\nend" =
      .error ⟨3, .duplicateId "a"⟩ := by decide +kernel
  have haccepted : ofText "group A\n%% B\ngroup C" = .ok { groups := [⟨"A"⟩, ⟨"C"⟩] } := by
    decide +kernel
  obtain ⟨_, _, hbefore, hfrom⟩ := (ofText_front_by_front _).2.1 _ hrefused
  obtain ⟨_, _, hstep⟩ := (ofText_front_by_front _).2.2 _ haccepted
  exact ⟨hrefused, hbefore 2 (by decide), hfrom 3 (by decide), haccepted,
    hstep 2 "group C".toList (by decide +kernel)⟩

end GanttChart.Schedule
