/-
  Spellings of a text that mean the same.

  Four edits leave the meaning of a text alone:

  * carriage returns before the line feeds (`withReturns`);
  * blanks in front of lines (`Indented`);
  * another case of the keywords that statements begin with (`Respelled`);
  * blank lines and comments, put in anywhere (`IsRemark`, `withRemarks`).

  After the first three every line is the line it was, so the outcome is the same, fault and number
  of the line included.  Remarks are counted as lines: a fault is found where its line stands now,
  which is as much further down as remarks stand before it.  The induction for this carries two line
  numbers, one for each text (`addLines_withRemarks`).
-/
import GanttChart.Proofs.Schedule.Source

namespace GanttChart

open GanttChart.Text

/-! ## Edits of one line

  The edits of single lines are relations between two lines.  Each comes with the one fact that
  matters: the second line is what the first one is. -/

/-- The second line is the first after some blanks. -/
def Indented (first second : List Char) : Prop :=
  ∃ margin, (∀ c ∈ margin, isBlank c = true) ∧ second = margin ++ first

/-- The lines are the same, or statements of one keyword that differ in the case of its letters. -/
def Respelled (first second : List Char) : Prop :=
  first = second ∨ ∃ (margin : List Char) (keyword : Keyword) (spelling other rest : List Char),
    (∀ c ∈ margin, isBlank c = true) ∧
      alike keyword.opening spelling = true ∧ alike keyword.opening other = true ∧
      first = margin ++ (spelling ++ rest) ∧ second = margin ++ (other ++ rest)

/-- A blank line, or one that begins with the mark of comments. -/
def IsRemark (text : List Char) : Prop := trimStart text = [] ∨ "%%".toList <+: trimStart text

instance (text : List Char) : Decidable (IsRemark text) :=
  inferInstanceAs (Decidable (_ ∨ _))

/-- Blanks in front of a line change nothing. -/
theorem Indented.ofText_eq {first second : List Char} (h : Indented first second) :
    Line.ofText second = Line.ofText first := by
  obtain ⟨margin, hmargin, rfl⟩ := h
  exact Line.ofText_append_of_blank hmargin first

/-- Nor does the case of its keyword. -/
theorem Respelled.ofText_eq {first second : List Char} (h : Respelled first second) :
    Line.ofText second = Line.ofText first := by
  rcases h with rfl | ⟨margin, keyword, spelling, other, rest, hmargin, hfirst, hother, rfl, rfl⟩
  · rfl
  · rw [Line.ofText_append_of_blank hmargin, Line.ofText_append_of_blank hmargin,
      Line.ofText_of_alike hfirst, Line.ofText_of_alike hother]

/-- A remark is read over. -/
theorem IsRemark.ofText_eq {text : List Char} (h : IsRemark text) :
    Line.ofText text = .ignored := by
  unfold Line.ofText
  rcases h with hblank | ⟨rest, hcomment⟩
  · rw [hblank]
    rfl
  · rw [← hcomment]
    rfl

/-! ## Edits of all lines

  The first three edits keep the number of lines, so they are judged line by line.  Remarks are
  put in between; `gap i` are those before the line at the position `i`. -/

/-- Texts whose lines are the same one by one have the same source. -/
theorem sourceOf_eq_of_forall₂ {R : List Char → List Char → Prop}
    (hR : ∀ first second, R first second → Line.ofText second = Line.ofText first)
    {text other : String} (h : List.Forall₂ R (segments text.toList) (segments other.toList)) :
    sourceOf other = sourceOf text := by
  rw [sourceOf_eq_map_segments, sourceOf_eq_map_segments, eq_comm, ← List.forall₂_eq_eq_eq,
    List.forall₂_map_left_iff, List.forall₂_map_right_iff]
  exact h.imp fun first second hsame => (hR first second hsame).symm

/-- The lines with the remarks `gap i` before the line at the position `i`; what stands after the
    last line comes from the gap there. -/
def withRemarks (gap : Nat → List (List Char)) : List (List Char) → List (List Char)
  | [] => gap 0
  | line :: rest => gap 0 ++ line :: withRemarks (fun i => gap (i + 1)) rest

/-- How many remarks stand before the line with the number `n`, counted from 1. -/
def remarksBefore (gap : Nat → List (List Char)) (n : Nat) : Nat :=
  ((List.range n).flatMap gap).length

/-- The remarks before a later line are those before the first line and those after it. -/
theorem remarksBefore_succ (gap : Nat → List (List Char)) (n : Nat) :
    remarksBefore gap (n + 1) = (gap 0).length + remarksBefore (fun i => gap (i + 1)) n := by
  rw [remarksBefore, List.range_succ_eq_map, List.flatMap_cons, List.flatMap_map, List.length_append]
  rfl

namespace Schedule

/-- Remarks are read over. -/
theorem addLines_remarks {remarks : List (List Char)} (h : ∀ text ∈ remarks, IsRemark text)
    (s : Schedule) (line : Nat) (rest : List (List Char)) :
    s.addLines line (remarks ++ rest) = s.addLines (line + remarks.length) rest := by
  induction remarks generalizing line with
  | nil => rfl
  | cons text remarks ih =>
    have hread : s.addLine text = .ok s := by
      rw [addLine, (h text List.mem_cons_self).ofText_eq]
    have hrest := ih (fun other hother => h other (List.mem_cons_of_mem text hother)) (line + 1)
    rw [List.cons_append, addLines, hread, List.length_cons, Nat.add_comm remarks.length 1,
      ← Nat.add_assoc]
    exact hrest

/-- Between remarks the same lines are read, each with a later number.  Faults are compared by
    the position `k` of their line: it has the number `line + k` in one text, and in the other it
    is further down by as many remarks as there are up to its own gap. -/
theorem addLines_withRemarks {gap : Nat → List (List Char)}
    (hgap : ∀ i, ∀ text ∈ gap i, IsRemark text) (s : Schedule) (line later : Nat)
    (texts : List (List Char)) :
    (∀ after, s.addLines line texts = .ok after →
      s.addLines later (withRemarks gap texts) = .ok after) ∧
    ∀ located, s.addLines line texts = .error located → ∃ k, located.line = line + k ∧
      s.addLines later (withRemarks gap texts) =
        .error { located with line := later + k + remarksBefore gap (k + 1) } := by
  -- by induction on the lines; the gaps are shifted by one, and the numbers of both texts go on
  induction texts generalizing gap s line later with
  | nil =>
    have hend : s.addLines later (withRemarks gap []) = .ok s := by
      have hread := addLines_remarks (hgap 0) s later []
      rw [List.append_nil] at hread
      exact hread
    constructor
    · intro after h
      cases h
      exact hend
    · intro located h
      cases h
  | cons text texts ih =>
    have hgaps : ∀ i, ∀ other ∈ gap (i + 1), IsRemark other := fun i => hgap (i + 1)
    rw [withRemarks, addLines_remarks (hgap 0), addLines, addLines]
    cases hline : s.addLine text with
    | error fault =>
      -- the fault of the first line, after the remarks of the first gap
      refine ⟨fun after h => (by cases h), ?_⟩
      intro located h
      cases h
      refine ⟨0, rfl, ?_⟩
      rw [remarksBefore_succ, show remarksBefore (fun i => gap (i + 1)) 0 = 0 from rfl]
      rfl
    | ok next =>
      obtain ⟨hok, herror⟩ := ih hgaps next (line + 1) (later + (gap 0).length + 1)
      refine ⟨hok, ?_⟩
      intro located h
      obtain ⟨k, hk, hlater⟩ := herror located h
      refine ⟨k + 1, by omega, ?_⟩
      have hnumber : later + (gap 0).length + 1 + k +
          remarksBefore (fun i => gap (i + 1)) (k + 1) =
            later + (k + 1) + remarksBefore gap (k + 1 + 1) := by
        rw [remarksBefore_succ gap]
        omega
      rw [← hnumber]
      exact hlater

/-- **Cosmetic edits do not change what a text means.**  Carriage returns before the line feeds,
    blanks in front of lines and the case of keywords leave the outcome as it is, with its fault and
    the number of its line.  Remarks leave an accepted text's schedule as it is, and a fault too, but
    for the number of its line, which grows by the number of remarks before the line. -/
theorem ofText_of_cosmetic_edit (text : String) :
    ofText (String.ofList (withReturns text.toList)) = ofText text ∧
    (∀ other : String, List.Forall₂ Indented (segments text.toList) (segments other.toList) →
      ofText other = ofText text) ∧
    (∀ other : String, List.Forall₂ Respelled (segments text.toList) (segments other.toList) →
      ofText other = ofText text) ∧
    ∀ (other : String) (gap : Nat → List (List Char)),
      (∀ i, ∀ remark ∈ gap i, IsRemark remark) →
      segments other.toList = withRemarks gap (segments text.toList) →
      (∀ s, ofText text = .ok s → ofText other = .ok s) ∧
      ∀ located, ofText text = .error located →
        ofText other =
          .error { located with line := located.line + remarksBefore gap located.line } := by
  -- carriage returns, margins, keywords and remarks
  refine ⟨?_, ?_, ?_, ?_⟩
  · have hreturns : List.Forall₂ EndsLike (segments text.toList)
        (segments (String.ofList (withReturns text.toList)).toList) := by
      rw [String.toList_ofList]
      exact endsLike_segments_withReturns text.toList
    apply ofText_congr
    refine sourceOf_eq_of_forall₂ (fun first second h => ?_) hreturns
    rcases h with rfl | rfl
    · rfl
    · exact Line.ofText_concat_return first
  · intro other h
    exact ofText_congr (sourceOf_eq_of_forall₂ (fun _ _ hline => hline.ofText_eq) h)
  · intro other h
    exact ofText_congr (sourceOf_eq_of_forall₂ (fun _ _ hline => hline.ofText_eq) h)
  · intro other gap hgap hother
    rw [ofText_eq_addLines_segments text, ofText_eq_addLines_segments other, hother]
    obtain ⟨hok, herror⟩ := addLines_withRemarks hgap {} 1 1 (segments text.toList)
    refine ⟨hok, ?_⟩
    intro located h
    obtain ⟨k, hk, hlater⟩ := herror located h
    rw [hlater, hk, Nat.add_comm k 1]

/-- A text with a fault on its second line, edited in each of the four ways. -/
theorem ofText_of_cosmetic_edit_fault :
    ofText "task T,a,,2024-01-01,1D\nend" = .error ⟨2, .noKeyword⟩ ∧
      ofText "task T,a,,2024-01-01,1D\r\nend" = .error ⟨2, .noKeyword⟩ ∧
      ofText "\ttask T,a,,2024-01-01,1D\n  end" = .error ⟨2, .noKeyword⟩ ∧
      ofText "tAsK T,a,,2024-01-01,1D\nend" = .error ⟨2, .noKeyword⟩ ∧
      ofText "%% plan\ntask T,a,,2024-01-01,1D\n \n\nend" = .error ⟨5, .noKeyword⟩ := by
  have hfault : ofText "task T,a,,2024-01-01,1D\nend" = .error ⟨2, .noKeyword⟩ := by
    decide +kernel
  obtain ⟨hreturns, hindented, hrespelled, hremarks⟩ :=
    ofText_of_cosmetic_edit "task T,a,,2024-01-01,1D\nend"
  have hsegments : segments "task T,a,,2024-01-01,1D\nend".toList =
      ["task T,a,,2024-01-01,1D".toList, "end".toList] := by decide +kernel
  rw [hsegments] at hindented hrespelled hremarks
  rw [hfault] at hreturns hindented hrespelled hremarks
  refine ⟨hfault, hreturns, hindented _ ?_, hrespelled _ ?_, ?_⟩
  · rw [show segments "\ttask T,a,,2024-01-01,1D\n  end".toList =
      ["\ttask T,a,,2024-01-01,1D".toList, "  end".toList] by decide +kernel]
    have htab : ∀ c ∈ ['\t'], isBlank c = true := List.forall_mem_singleton.2 (by decide)
    have hspaces : ∀ c ∈ [' ', ' '], isBlank c = true :=
      List.forall_mem_cons.2 ⟨by decide, List.forall_mem_singleton.2 (by decide)⟩
    exact .cons ⟨['\t'], htab, rfl⟩ (.cons ⟨[' ', ' '], hspaces, rfl⟩ .nil)
  · rw [show segments "tAsK T,a,,2024-01-01,1D\nend".toList =
      ["tAsK T,a,,2024-01-01,1D".toList, "end".toList] by decide +kernel]
    refine .cons (.inr ⟨[], .task, "task ".toList, "tAsK ".toList, "T,a,,2024-01-01,1D".toList,
      by simp, by decide, by decide, rfl, rfl⟩) (.cons (.inl rfl) .nil)
  · refine (hremarks _ (fun i => ([["%% plan".toList], [" ".toList, []]][i]?).getD []) ?_ ?_).2
      ⟨2, .noKeyword⟩ rfl
    · intro i
      match i with
      | 0 => decide
      | 1 => decide
      | _ + 2 => simp
    · decide +kernel

end Schedule

end GanttChart
