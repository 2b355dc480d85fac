/-
  Segments of a text: what stands between its line feeds.

  A segment is a line as it is written, with the carriage return that may stand before its line
  feed.  Text after the last line feed is a segment too, if there is any.  So the segments of a
  text are its lines up to carriage returns at their ends (`endsLike_lines_segments`), and writing
  every line feed with a carriage return before it changes them no further than that
  (`endsLike_segments_withReturns`).  Edits of single lines are stated on segments.
-/
import GanttChart.Text.Words
import Mathlib.Data.List.Forall2

namespace GanttChart.Text

/-- What stands between the line feeds of a text. -/
def segments : List Char → List (List Char)
  | [] => []
  | c :: text =>
    if c = '\n' then [] :: segments text
    else
      match segments text with
      | [] => [[c]]
      | segment :: rest => (c :: segment) :: rest

/-- The empty text has no segments. -/
@[simp] theorem segments_nil : segments [] = [] := rfl

/-- A line feed in front ends an empty segment. -/
@[simp] theorem segments_newline (text : List Char) :
    segments ('\n' :: text) = [] :: segments text := by
  simp [segments]

/-- A character that is no line feed joins the segment after it. -/
theorem segments_cons {c : Char} (hc : c ≠ '\n') (text : List Char) :
    segments (c :: text) =
      match segments text with
      | [] => [[c]]
      | segment :: rest => (c :: segment) :: rest := by
  simp [segments, hc]

/-- A text without line feeds is one segment. -/
theorem segments_eq_singleton {text : List Char} (hne : text ≠ []) (hn : '\n' ∉ text) :
    segments text = [text] := by
  induction text with
  | nil => exact absurd rfl hne
  | cons c text ih =>
    rw [List.mem_cons, not_or] at hn
    rw [segments_cons (Ne.symm hn.1)]
    by_cases htext : text = []
    · rw [htext]
      rfl
    · rw [ih htext hn.2]

/-- No segment holds a line feed. -/
theorem newline_notMem_of_mem_segments {text segment : List Char} (h : segment ∈ segments text) :
    '\n' ∉ segment := by
  induction text generalizing segment with
  | nil => cases h
  | cons c text ih =>
    by_cases hc : c = '\n'
    · rw [hc, segments_newline] at h
      rcases List.mem_cons.1 h with rfl | h
      · exact List.not_mem_nil
      · exact ih h
    · rw [segments_cons hc] at h
      cases hs : segments text with
      | nil =>
        rw [hs] at h
        rw [List.mem_singleton.1 h, List.mem_singleton]
        exact Ne.symm hc
      | cons first rest =>
        rw [hs] at h ih
        rcases List.mem_cons.1 h with rfl | h
        · rw [List.mem_cons, not_or]
          exact ⟨Ne.symm hc, ih List.mem_cons_self⟩
        · exact ih (List.mem_cons_of_mem first h)

/-- A piece without line feeds and the line feed after it are a segment. -/
theorem segments_append_newline_of_notMem {piece : List Char} (h : '\n' ∉ piece)
    (rest : List Char) : segments (piece ++ '\n' :: rest) = piece :: segments rest := by
  induction piece with
  | nil => exact segments_newline rest
  | cons c piece ih =>
    rw [List.mem_cons, not_or] at h
    rw [List.cons_append, segments_cons (Ne.symm h.1), ih h.2]

/-- **Any pieces without line feeds** are the segments of a text. -/
theorem segments_flatMap_newline {pieces : List (List Char)} (h : ∀ piece ∈ pieces, '\n' ∉ piece) :
    segments (pieces.flatMap fun piece => piece ++ ['\n']) = pieces := by
  induction pieces with
  | nil => rfl
  | cons piece pieces ih =>
    have hpiece := h piece List.mem_cons_self
    have hrest := ih fun other hother => h other (List.mem_cons_of_mem piece hother)
    rw [List.flatMap_cons, List.append_assoc, List.singleton_append,
      segments_append_newline_of_notMem hpiece, hrest]

/-- The second text is the first, or has one carriage return more at its end. -/
def EndsLike (first second : List Char) : Prop := second = first ∨ second = first ++ ['\r']

/-- The same character in front of both changes nothing at their ends. -/
theorem EndsLike.cons {first second : List Char} (h : EndsLike first second) (c : Char) :
    EndsLike (c :: first) (c :: second) := by
  rcases h with rfl | rfl
  · exact .inl rfl
  · exact .inr rfl

/-- **Segments are lines**, up to a carriage return at the end of each. -/
theorem endsLike_lines_segments (text : List Char) :
    List.Forall₂ EndsLike (lines text) (segments text) := by
  -- by the recursion of `lines`; its third case takes a carriage return and a line feed at once
  fun_induction lines text with
  | case1 => exact .nil
  | case2 text ih =>
    rw [segments_newline]
    exact .cons (.inl rfl) ih
  | case3 text ih =>
    rw [segments_cons (by decide), segments_newline]
    exact .cons (.inr rfl) ih
  | case4 c text hn _ hl ih =>
    rw [hl, List.forall₂_nil_left_iff] at ih
    rw [segments_cons hn, ih]
    exact .cons (.inl rfl) .nil
  | case5 c text hn _ line rest hl ih =>
    rw [hl] at ih
    obtain ⟨segment, others, hfirst, hrest, hsegments⟩ := List.forall₂_cons_left_iff.1 ih
    rw [segments_cons hn, hsegments]
    exact .cons (hfirst.cons c) hrest

/-! ## Carriage returns -/

/-- The text with a carriage return before every line feed. -/
def withReturns (text : List Char) : List Char :=
  text.flatMap fun c => if c = '\n' then ['\r', '\n'] else [c]

/-- A line feed gets its carriage return. -/
theorem withReturns_newline (text : List Char) :
    withReturns ('\n' :: text) = '\r' :: '\n' :: withReturns text := rfl

/-- Any other character stays as it is. -/
theorem withReturns_cons {c : Char} (hc : c ≠ '\n') (text : List Char) :
    withReturns (c :: text) = c :: withReturns text := by
  simp [withReturns, hc]

/-- **Carriage returns stay at the ends of segments.** -/
theorem endsLike_segments_withReturns (text : List Char) :
    List.Forall₂ EndsLike (segments text) (segments (withReturns text)) := by
  induction text with
  | nil => exact .nil
  | cons c text ih =>
    by_cases hc : c = '\n'
    · subst hc
      rw [withReturns_newline, segments_newline, segments_cons (by decide), segments_newline]
      exact .cons (.inr rfl) ih
    · rw [withReturns_cons hc, segments_cons hc, segments_cons hc]
      cases hs : segments text with
      | nil =>
        rw [hs, List.forall₂_nil_left_iff] at ih
        rw [ih]
        exact .cons (.inl rfl) .nil
      | cons segment rest =>
        rw [hs] at ih
        obtain ⟨other, others, hfirst, hrest, hsegments⟩ := List.forall₂_cons_left_iff.1 ih
        rw [hsegments]
        exact .cons (hfirst.cons c) hrest

/-! ## One more line -/

/-- The text with one more line at its end; a line that is still open is closed before. -/
def withLine (text line : String) : String :=
  if text.toList.getLast?.all (· == '\n') then text ++ line else text ++ "\n" ++ line

/-- A line feed ends the segments before it. -/
theorem segments_append_newline (front rest : List Char) :
    segments (front ++ '\n' :: rest) = segments (front ++ ['\n']) ++ segments rest := by
  induction front with
  | nil => simp
  | cons c front ih =>
    rw [List.cons_append, List.cons_append]
    by_cases hc : c = '\n'
    · rw [hc, segments_newline, segments_newline, ih]
      rfl
    · rw [segments_cons hc, segments_cons hc, ih]
      cases hs : segments (front ++ ['\n']) with
      | nil =>
        -- There is a segment before the line feed.
        cases front with
        | nil => simp at hs
        | cons d front =>
          rw [List.cons_append, segments] at hs
          split at hs
          · cases hs
          · split at hs <;> cases hs
      | cons segment others => rfl

/-- A line feed after an open line closes it and adds nothing. -/
theorem segments_concat_newline {text : List Char} (hne : text ≠ [])
    (hlast : text.getLast? ≠ some '\n') : segments (text ++ ['\n']) = segments text := by
  induction text with
  | nil => exact absurd rfl hne
  | cons c text ih =>
    rw [List.cons_append]
    by_cases htext : text = []
    · subst htext
      have hc : c ≠ '\n' := by simpa using hlast
      rw [List.nil_append, segments_cons hc, segments_cons hc]
      rfl
    · have hlater : text.getLast? ≠ some '\n' := by
        rw [List.getLast?_cons_of_ne_nil htext] at hlast
        exact hlast
      rw [segments, segments, ih htext hlater]

/-- **One more line is one more segment**, whether or not the text ends with a line feed. -/
theorem segments_withLine (text : String) {line : String} (hne : line ≠ "")
    (hn : '\n' ∉ line.toList) :
    segments (withLine text line).toList = segments text.toList ++ [line.toList] := by
  have hline : segments line.toList = [line.toList] :=
    segments_eq_singleton (by simpa using hne) hn
  unfold withLine
  rcases List.eq_nil_or_concat text.toList with hnil | ⟨front, c, hconcat⟩
  · rw [hnil]
    simp [hnil, hline]
  · by_cases hc : c = '\n'
    · -- The last line is closed already.
      rw [if_pos (by simp [hconcat, hc]), String.toList_append, hconcat, hc]
      rw [List.concat_eq_append, List.append_assoc, List.singleton_append,
        segments_append_newline, hline]
    · have hlast : text.toList.getLast? ≠ some '\n' := by
        rw [hconcat, List.concat_eq_append, List.getLast?_concat]
        simpa using hc
      have hopen : text.toList ≠ [] := by
        rw [hconcat]
        simp
      rw [if_neg (by simp [hconcat, hc])]
      have hlist : (text ++ "\n" ++ line).toList = text.toList ++ '\n' :: line.toList := by
        simp
      rw [hlist, segments_append_newline, segments_concat_newline hopen hlast, hline]

end GanttChart.Text
