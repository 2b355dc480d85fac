/-
  Trimmed texts.

  A trimmed text has no blank at either end and holds only characters of the text that it was made
  from.  A text that has no blank at either end is trimmed already.  Blanks behind a text make no
  difference, and a character inside that is not blank keeps the two ends apart.
-/
import GanttChart.Text.Words
import Mathlib.Data.List.DropRight

namespace GanttChart.Text

/-- What is left when the end is trimmed stands in front. -/
theorem trimEnd_isPrefix (text : List Char) : trimEnd text <+: text :=
  List.rdropWhile_prefix isBlank text

/-- Trimming adds no character. -/
theorem mem_of_mem_trim {c : Char} {text : List Char} (h : c ∈ trim text) : c ∈ text :=
  (List.dropWhile_sublist isBlank).mem ((trimEnd_isPrefix _).mem h)

/-- Only blanks are trimmed. -/
theorem mem_trim_of_mem {c : Char} {text : List Char} (h : c ∈ text) (hc : isBlank c = false) :
    c ∈ trim text := by
  have hdrop : ∀ text : List Char, c ∈ text → c ∈ text.dropWhile isBlank := by
    intro text hmem
    rw [← List.takeWhile_append_dropWhile (p := isBlank) (l := text), List.mem_append] at hmem
    rcases hmem with hmem | hmem
    · rw [List.mem_takeWhile_imp hmem] at hc
      cases hc
    · exact hmem
  rw [trim, trimEnd, List.mem_reverse]
  exact hdrop _ (List.mem_reverse.2 (hdrop text h))

/-- Digits are not trimmed. -/
theorem isBlank_of_isDigit {c : Char} (h : c.isDigit = true) : isBlank c = false := by
  simp only [Char.isDigit, Bool.and_eq_true, decide_eq_true_eq] at h
  have hlow : 48 ≤ c.toNat := h.1
  have hhigh : c.toNat ≤ 57 := h.2
  simp only [isBlank, Bool.or_eq_false_iff, Bool.and_eq_false_iff, decide_eq_false_iff_not,
    beq_eq_false_iff_ne]
  omega

/-! ## The ends apart -/

/-- Blanks in front reach into the rest only if there is nothing else in front. -/
theorem trimStart_append (front rest : List Char) :
    trimStart (front ++ rest) =
      if trimStart front = [] then trimStart rest else trimStart front ++ rest := by
  unfold trimStart
  rw [List.dropWhile_append]
  by_cases hfront : front.dropWhile isBlank = []
  · rw [if_pos (by simpa using hfront), if_pos hfront]
  · rw [if_neg (by simpa using hfront), if_neg hfront]

/-- A blank behind a text is not left. -/
theorem trimEnd_concat_of_blank {c : Char} (hc : isBlank c = true) (text : List Char) :
    trimEnd (text ++ [c]) = trimEnd text := by
  rw [trimEnd, trimEnd, List.reverse_append, List.reverse_singleton, List.singleton_append,
    List.dropWhile_cons, if_pos hc]

/-- Nor is it left if both ends are trimmed. -/
theorem trim_concat_of_blank {c : Char} (hc : isBlank c = true) (text : List Char) :
    trim (text ++ [c]) = trim text := by
  have hblank : trimStart [c] = [] := by rw [trimStart_cons, if_pos hc, trimStart_nil]
  rw [trim, trimStart_append, hblank]
  split
  · rename_i hnil
    rw [trim, hnil]
  · rw [trimEnd_concat_of_blank hc]
    rfl

/-- **Blanks around a text make no difference.** -/
theorem trim_margins {before after : List Char} (hbefore : ∀ c ∈ before, isBlank c = true)
    (hafter : ∀ c ∈ after, isBlank c = true) (text : List Char) :
    trim (before ++ text ++ after) = trim text := by
  have hbehind : ∀ text : List Char, trim (text ++ after) = trim text := by
    induction after with
    | nil =>
      intro text
      rw [List.append_nil]
    | cons c after ih =>
      intro text
      rw [List.append_cons, ih (fun d hd => hafter d (List.mem_cons_of_mem c hd)),
        trim_concat_of_blank (hafter c List.mem_cons_self)]
  rw [hbehind, trim, trimStart_append_of_blank hbefore]
  rfl

/-- What stands behind a character that is not blank plays no part at the start. -/
theorem trimStart_append_cons {c : Char} (hc : isBlank c = false) (front rest : List Char) :
    trimStart (front ++ c :: rest) = trimStart front ++ c :: rest := by
  have hrest : trimStart (c :: rest) = c :: rest := by rw [trimStart_cons, hc, if_neg (by simp)]
  rw [trimStart_append, hrest]
  split
  · rename_i hnil
    rw [hnil]
    rfl
  · rfl

/-- Trimming the start twice is trimming it once. -/
@[simp] theorem trimStart_trimStart (text : List Char) :
    trimStart (trimStart text) = trimStart text :=
  List.dropWhile_idempotent isBlank text

/-! ## Trimmed texts -/

/-- A text that does not begin with a blank keeps its start. -/
theorem trimStart_eq_self {text : List Char}
    (h : ∀ c, text.head? = some c → isBlank c = false) : trimStart text = text := by
  cases text with
  | nil => rfl
  | cons c text => rw [trimStart_cons, h c rfl, if_neg (by simp)]

/-- A text that does not end with a blank keeps its end. -/
theorem trimEnd_eq_self {text : List Char}
    (h : ∀ c, text.getLast? = some c → isBlank c = false) : trimEnd text = text := by
  have hreverse : text.reverse.dropWhile isBlank = text.reverse :=
    trimStart_eq_self fun c hc => h c (by rw [← List.head?_reverse]; exact hc)
  rw [trimEnd, hreverse, List.reverse_reverse]

/-- A text without blanks at its ends is trimmed. -/
theorem trim_eq_self {text : List Char} (hhead : ∀ c, text.head? = some c → isBlank c = false)
    (hlast : ∀ c, text.getLast? = some c → isBlank c = false) : trim text = text := by
  rw [trim, trimStart_eq_self hhead, trimEnd_eq_self hlast]

/-- The text ends with a character that is not blank. -/
def EndsSolid (text : List Char) : Prop := ∃ c, text.getLast? = some c ∧ isBlank c = false

/-- Whatever stands in front, the end stays solid. -/
theorem EndsSolid.append_left {text : List Char} (h : EndsSolid text) (front : List Char) :
    EndsSolid (front ++ text) := by
  obtain ⟨c, hc, hsolid⟩ := h
  refine ⟨c, ?_, hsolid⟩
  rw [List.getLast?_append, hc]
  rfl

/-- One more character in front does not change the end. -/
theorem EndsSolid.cons {text : List Char} (h : EndsSolid text) (c : Char) : EndsSolid (c :: text) :=
  h.append_left [c]

/-- A text without blanks ends solid, if it has an end. -/
theorem endsSolid_of_forall {text : List Char} (hne : text ≠ [])
    (h : ∀ c ∈ text, isBlank c = false) : EndsSolid text :=
  ⟨text.getLast hne, List.getLast?_eq_some_getLast hne, h _ (List.getLast_mem hne)⟩

/-- A text that neither begins nor ends with a blank is trimmed. -/
theorem EndsSolid.trim_eq_self {text : List Char} (h : EndsSolid text)
    (hhead : ∀ c, text.head? = some c → isBlank c = false) : trim text = text := by
  obtain ⟨c, hc, hsolid⟩ := h
  refine Text.trim_eq_self hhead fun d hd => ?_
  rw [hc] at hd
  cases hd
  exact hsolid

/-- A trimmed text does not begin with a blank. -/
theorem isBlank_of_head?_trim {c : Char} {text : List Char} (h : (trim text).head? = some c) :
    isBlank c = false := by
  obtain ⟨rest, hrest⟩ := List.head?_eq_some_iff.1 h
  obtain ⟨later, hlater⟩ := trimEnd_isPrefix (trimStart text)
  have hstart : (text.dropWhile isBlank).head? = some c := by
    show (trimStart text).head? = some c
    rw [← hlater, show trimEnd (trimStart text) = c :: rest from hrest]
    rfl
  have hnot := List.head?_dropWhile_not isBlank text
  rw [hstart] at hnot
  simpa using hnot

/-- A trimmed text does not end with a blank. -/
theorem isBlank_of_getLast?_trim {c : Char} {text : List Char}
    (h : (trim text).getLast? = some c) : isBlank c = false := by
  have hlast : ((trimStart text).reverse.dropWhile isBlank).head? = some c := by
    rw [← List.getLast?_reverse]
    exact h
  have hnot := List.head?_dropWhile_not isBlank (trimStart text).reverse
  rw [hlast] at hnot
  simpa using hnot

/-- A text that trimming leaves as it is does not end with a blank. -/
theorem isBlank_of_getLast?_of_trim_eq {text : List Char} (h : trim text = text) {c : Char}
    (hc : text.getLast? = some c) : isBlank c = false :=
  isBlank_of_getLast?_trim (h.symm ▸ hc)

/-- Trimming twice is trimming once. -/
@[simp] theorem trim_trim (text : List Char) : trim (trim text) = trim text :=
  trim_eq_self (fun _ => isBlank_of_head?_trim) fun _ => isBlank_of_getLast?_trim

end GanttChart.Text
