/-
  What wrapping keeps.

  The lines of a wrapped text have all its characters but the blanks, and only spaces beside them
  (`exists_mem_wrap_iff`).  Splitting drops exactly the characters that it splits at, and cutting drops
  nothing, so the induction is on the words with the open line as its state.
-/
import GanttChart.Text.Wrap

namespace GanttChart.Text

/-- Splitting drops exactly the characters that it splits at.  Which piece holds a character is
    not said. -/
theorem exists_mem_splitOnP_iff {p : Char → Bool} {text : List Char} {c : Char} :
    (∃ piece ∈ text.splitOnP p, c ∈ piece) ↔ c ∈ text ∧ p c = false := by
  induction text with
  | nil => simp [List.splitOnP_nil]
  | cons d text ih =>
    rw [List.splitOnP_cons_eq_if_modifyHead]
    split
    · -- the character in front is one that is split at
      rename_i hd
      have hother : ¬ (c = d ∧ p c = false) := by
        rintro ⟨rfl, hc⟩
        rw [hd] at hc
        cases hc
      simp only [List.mem_cons, or_and_right, exists_or, exists_eq_left, List.not_mem_nil,
        false_or, ih, or_iff_right hother]
    · rename_i hd
      have hself : c = d ∧ p c = false ↔ c = d := by
        refine and_iff_left_of_imp ?_
        rintro rfl
        simpa using hd
      cases hs : text.splitOnP p with
      | nil => exact absurd hs (List.splitOnP_ne_nil p text)
      | cons first rest =>
        rw [hs] at ih
        simp only [List.modifyHead_cons, List.mem_cons, or_and_right, exists_or, exists_eq_left,
          or_assoc, hself] at ih ⊢
        rw [ih]

/-- The words of a text have all its characters but the blanks. -/
theorem exists_mem_words_iff {text : List Char} {c : Char} :
    (∃ word ∈ words text, c ∈ word) ↔ c ∈ text ∧ isBlank c = false := by
  rw [← exists_mem_splitOnP_iff]
  constructor
  · rintro ⟨word, hword, hc⟩
    exact ⟨word, (List.mem_filter.1 hword).1, hc⟩
  · rintro ⟨piece, hpiece, hc⟩
    have hne : piece ≠ [] := List.ne_nil_of_mem hc
    exact ⟨piece, List.mem_filter.2 ⟨hpiece, by simpa using hne⟩, hc⟩

/-- The lines hold what the open line and the words do, but for spaces. -/
theorem exists_mem_wrapFrom_iff {budget : Nat} {line : List Char} {ws : List (List Char)} {c : Char}
    (hc : c ≠ ' ') :
    (∃ l ∈ wrapFrom budget line ws, c ∈ l) ↔ c ∈ line ∨ ∃ word ∈ ws, c ∈ word := by
  have hclosed : ∀ line : List Char, (∃ l ∈ (if line.isEmpty then [] else [line]), c ∈ l) ↔
      c ∈ line := by
    intro line
    cases line <;> simp
  -- by induction on the words, for every open line
  induction ws generalizing line with
  | nil =>
    rw [wrapFrom, hclosed]
    simp
  | cons word rest ih =>
    rw [wrapFrom]
    split
    · -- the word goes on the open line, behind a space
      simp only [ih, List.mem_append, List.mem_cons, hc, false_or, or_and_right, exists_or,
        exists_eq_left, or_assoc]
    · -- the open line is closed, and the word is cut into pieces
      have hcut : (∃ l ∈ (cut budget word).1, c ∈ l) ∨ c ∈ (cut budget word).2 ↔ c ∈ word := by
        rw [← List.mem_flatten, ← List.mem_append, flatten_cut]
      simp only [List.mem_append, or_and_right, exists_or, hclosed, ih, List.mem_cons,
        exists_eq_left, ← hcut, or_assoc]

/-- **The lines of a wrapped text hold its characters**, except that every blank is lost. -/
theorem exists_mem_wrap_iff {budget : Nat} {text : List Char} {c : Char} (hc : c ≠ ' ') :
    (∃ line ∈ wrap budget text, c ∈ line) ↔ c ∈ text ∧ isBlank c = false := by
  rw [wrap, exists_mem_wrapFrom_iff hc, exists_mem_words_iff]
  simp

end GanttChart.Text
