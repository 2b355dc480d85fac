/-
  Reading a text depends only on what its lines are.

  1. **Lines.**  A line is what it is whatever blanks stand before its keyword, in whatever case the
     keyword is written (`Line.ofText_of_alike`), and with or without a carriage return at its end
     (`Line.ofText_concat_return`).

  2. **Texts.**  Two texts whose lines are the same statements describe the same schedule or have
     the same fault (`ofText_congr`).  What the lines are shows on the segments as well
     (`sourceOf_eq_map_segments`), so an edit of single segments is judged line by line.

  3. **One more line** is read among the items of the text before it (`ofText_withLine`).
-/
import GanttChart.Proofs.Schedule.WellFormed
import GanttChart.Proofs.Text.Segments

namespace GanttChart

open GanttChart.Outcome GanttChart.Text

/-! ## Keywords

  The keywords are tried one after the other, so it could matter which is tried first.  It does
  not, as no two of them begin alike. -/

namespace Keyword

/-- No two keywords have the same first letter. -/
theorem eq_of_head?_opening {keyword other : Keyword}
    (h : keyword.opening.head? = other.opening.head?) : keyword = other := by
  revert keyword other
  intro keyword other
  cases keyword <;> cases other <;> decide

/-- A text that begins like a keyword begins with its first letter, in some case. -/
theorem head?_opening_of_body? {keyword : Keyword} {c : Char} {text rest : List Char}
    (h : keyword.body? (c :: text) = some rest) : keyword.opening.head? = some c.toLower := by
  obtain ⟨first, later, hopening, hsmall⟩ :
      ∃ first later, keyword.opening = first :: later ∧ first.toLower = first := by
    cases keyword <;> exact ⟨_, _, rfl, by decide⟩
  rw [body?, hopening, dropFront?] at h
  split at h
  · rename_i hc
    rw [hopening, List.head?_cons, ← hc, hsmall]
  · cases h

end Keyword

/-! ## Lines -/

namespace Line

/-- The keyword that a text begins with is found wherever it stands among the keywords. -/
theorem statement?_of_body? {keyword : Keyword} {text rest : List Char}
    (hbody : keyword.body? text = some rest) {keywords : List Keyword} (h : keyword ∈ keywords) :
    statement? text keywords = some (.statement keyword (trim rest)) := by
  induction keywords with
  | nil => cases h
  | cons first keywords ih =>
    rw [statement?]
    cases hfirst : first.body? text with
    | none =>
      rcases List.mem_cons.1 h with rfl | h
      · rw [hbody] at hfirst
        cases hfirst
      · exact ih h
    | some other =>
      have hsame : first = keyword := by
        cases text with
        | nil => cases keyword <;> cases hbody
        | cons c text =>
          apply Keyword.eq_of_head?_opening
          rw [Keyword.head?_opening_of_body? hfirst, Keyword.head?_opening_of_body? hbody]
      subst hsame
      rw [hbody] at hfirst
      cases hfirst
      rfl

/-- Blanks are no letters, so case plays no part in them. -/
theorem toLower_of_isBlank {c : Char} (h : isBlank c = true) : c.toLower = c := by
  unfold Char.toLower
  split
  · rename_i hletter
    exfalso
    have hlow : 65 ≤ c.toNat := hletter.1
    have hhigh : c.toNat ≤ 90 := hletter.2
    simp only [isBlank, Bool.or_eq_true, Bool.and_eq_true, decide_eq_true_eq, beq_iff_eq] at h
    omega
  · rfl

/-- **A line that begins like a keyword** is the statement of that keyword.  No keyword begins
    with a blank, so nothing is cut off in front of it. -/
theorem ofText_of_alike {keyword : Keyword} {spelling : List Char}
    (h : alike keyword.opening spelling = true) (rest : List Char) :
    ofText (spelling ++ rest) = .statement keyword (trim rest) := by
  have hbody : keyword.body? (spelling ++ rest) = some rest :=
    dropFront?_eq_some_iff.2 ⟨spelling, h, rfl⟩
  have hstart : trimStart (spelling ++ rest) = spelling ++ rest := by
    apply trimStart_eq_self
    intro c hc
    by_contra hblank
    obtain ⟨tail, htail⟩ := List.head?_eq_some_iff.1 hc
    rw [htail] at hbody
    have hhead := Keyword.head?_opening_of_body? hbody
    rw [toLower_of_isBlank (by simpa using hblank)] at hhead
    cases keyword <;> cases hhead <;> exact hblank (by decide)
  have hmem : keyword ∈ Keyword.all := by cases keyword <;> decide
  rw [ofText, hstart]
  show (statement? (spelling ++ rest) Keyword.all).getD _ = _
  rw [statement?_of_body? hbody hmem]
  rfl

/-- A line that begins with a keyword as it is spelled in the language. -/
theorem ofText_opening (keyword : Keyword) (rest : List Char) :
    ofText (keyword.opening ++ rest) = .statement keyword (trim rest) :=
  ofText_of_alike (by simp [alike]) rest

/-! ## Carriage returns

  A line of a text that is broken by line feeds alone may end with a carriage return.  It is a
  blank, and blanks are cut off from the body of a statement; so a line is the same with it or
  without it. -/

/-- A character that is in no spelling of `front` stays behind what follows it. -/
theorem dropFront?_concat {c : Char} {front : List Char} (h : ∀ f ∈ front, f.toLower ≠ c.toLower)
    (text : List Char) :
    dropFront? front (text ++ [c]) = (dropFront? front text).map (· ++ [c]) := by
  induction front generalizing text with
  | nil => rfl
  | cons f front ih =>
    have hf : f.toLower ≠ c.toLower := h f List.mem_cons_self
    have hrest := ih fun g hg => h g (List.mem_cons_of_mem f hg)
    cases text with
    | nil => simp [dropFront?, hf]
    | cons d text =>
      rw [List.cons_append, dropFront?, dropFront?]
      by_cases hd : f.toLower = d.toLower
      · rw [if_pos hd, if_pos hd, hrest]
      · rw [if_neg hd, if_neg hd, Option.map_none]

/-- The same keyword is found, with the same body. -/
theorem statement?_concat_return (text : List Char) (keywords : List Keyword) :
    statement? (text ++ ['\r']) keywords = statement? text keywords := by
  induction keywords with
  | nil => rfl
  | cons keyword keywords ih =>
    have hletters : ∀ f ∈ keyword.opening, f.toLower ≠ '\r'.toLower := by
      have hall : keyword.opening.all (·.toLower != '\r'.toLower) = true := by
        cases keyword <;> decide
      simpa using hall
    rw [statement?, statement?, Keyword.body?, Keyword.body?, dropFront?_concat hletters, ih]
    cases dropFront? keyword.opening text with
    | none => rfl
    | some rest =>
      show some (statement keyword (trim (rest ++ ['\r']))) = some (statement keyword (trim rest))
      rw [trim_concat_of_blank (by decide)]

/-- A comment stays one, and what is none becomes none. -/
theorem withoutKeyword_concat_return {text : List Char} (hne : text ≠ []) :
    withoutKeyword (text ++ ['\r']) = withoutKeyword text := by
  unfold withoutKeyword
  -- nothing, one character, or two that decide whether it is a comment
  rcases text with _ | ⟨a, _ | ⟨b, text⟩⟩
  · exact absurd rfl hne
  · simp
  · simp

/-- **A carriage return at the end of a line plays no part.** -/
theorem ofText_concat_return (text : List Char) : ofText (text ++ ['\r']) = ofText text := by
  have hblank : trimStart ['\r'] = [] := by decide
  unfold ofText
  rw [trimStart_append, hblank]
  by_cases hnil : trimStart text = []
  · rw [if_pos hnil, hnil]
  · rw [if_neg hnil]
    show (statement? (trimStart text ++ ['\r']) Keyword.all).getD _ = _
    rw [statement?_concat_return, withoutKeyword_concat_return hnil]

end Line

/-! ## Texts -/

/-- The lines of a text are what its segments are. -/
theorem sourceOf_eq_map_segments (text : String) :
    sourceOf text = (segments text.toList).map Line.ofText := by
  have hsame : List.Forall₂ (fun line segment => Line.ofText line = Line.ofText segment)
      (lines text.toList) (segments text.toList) := by
    refine (endsLike_lines_segments text.toList).imp ?_
    rintro line segment (rfl | rfl)
    · rfl
    · rw [Line.ofText_concat_return]
  rw [sourceOf, ← List.forall₂_eq_eq_eq, List.forall₂_map_left_iff, List.forall₂_map_right_iff]
  exact hsame

namespace Schedule

/-- What a line adds depends only on what the line is. -/
theorem addLine_congr {text other : List Char} (h : Line.ofText text = Line.ofText other)
    (s : Schedule) : s.addLine text = s.addLine other := by
  unfold addLine
  rw [h]

/-- And so does what lines add, and where they fail. -/
theorem addLines_congr {texts others : List (List Char)}
    (h : texts.map Line.ofText = others.map Line.ofText) (s : Schedule) (line : Nat) :
    s.addLines line texts = s.addLines line others := by
  -- by induction on the lines, for every schedule and every number of the first line
  induction texts generalizing others s line with
  | nil =>
    rw [List.map_nil, eq_comm, List.map_eq_nil_iff] at h
    rw [h]
  | cons text texts ih =>
    rw [List.map_cons, eq_comm, List.map_eq_cons_iff] at h
    obtain ⟨other, rest, rfl, hother, hrest⟩ := h
    rw [addLines, addLines, addLine_congr hother.symm]
    cases s.addLine other with
    | ok next => exact ih hrest.symm next (line + 1)
    | error fault => rfl

/-- **Texts of the same lines mean the same**, faults and their line numbers included. -/
theorem ofText_congr {text other : String} (h : sourceOf text = sourceOf other) :
    ofText text = ofText other :=
  addLines_congr h {} 1

/-- A text is read by its segments. -/
theorem ofText_eq_addLines_segments (text : String) :
    ofText text = addLines {} 1 (segments text.toList) :=
  addLines_congr (sourceOf_eq_map_segments text) {} 1

/-- **One more line** is read among what the text before it describes. -/
theorem ofText_withLine {text line : String} {s : Schedule} (h : ofText text = .ok s)
    (hne : line ≠ "") (hn : '\n' ∉ line.toList) :
    ofText (withLine text line) = s.addLines ((lines text.toList).length + 1) [line.toList] := by
  have hlength : (segments text.toList).length = (lines text.toList).length :=
    (endsLike_lines_segments text.toList).length_eq.symm
  rw [ofText_eq_addLines_segments] at h
  rw [ofText_eq_addLines_segments, segments_withLine text hne hn, addLines_append, h, hlength,
    Nat.add_comm 1]
  rfl

end Schedule

end GanttChart
