/-
  The first lines of a text.

  `firstLines n text` is the front of a text that ends with its line number `n`.  The ends of the
  lines are kept as they are, for a carriage return before the last cut would otherwise change its
  meaning.  So the front has exactly the first `n` lines (`lines_firstLines`).
-/
import GanttChart.Text.Words

namespace GanttChart.Text

/-- The front of a text with its first `n` lines and their ends. -/
def firstLines : Nat → List Char → List Char
  | 0, _ => []
  | _ + 1, [] => []
  | n + 1, c :: text => if c = '\n' then c :: firstLines n text else c :: firstLines (n + 1) text

/-- No lines are no text. -/
@[simp] theorem firstLines_zero (text : List Char) : firstLines 0 text = [] := by
  cases text <;> rfl

/-- The empty text has no front but itself. -/
@[simp] theorem firstLines_nil (n : Nat) : firstLines n [] = [] := by
  cases n <;> rfl

/-- A line feed ends a line. -/
theorem firstLines_newline (n : Nat) (text : List Char) :
    firstLines (n + 1) ('\n' :: text) = '\n' :: firstLines n text := by
  simp [firstLines]

/-- Any other character belongs to the line. -/
theorem firstLines_cons {c : Char} (hc : c ≠ '\n') (n : Nat) (text : List Char) :
    firstLines (n + 1) (c :: text) = c :: firstLines (n + 1) text := by
  simp [firstLines, hc]

/-- The first lines are the front of the text. -/
theorem firstLines_isPrefix (n : Nat) (text : List Char) : firstLines n text <+: text := by
  fun_induction firstLines n text with
  | case1 => exact List.nil_prefix
  | case2 => exact List.nil_prefix
  | case3 n text ih => exact List.cons_prefix_cons.2 ⟨rfl, ih⟩
  | case4 n c text hc ih => exact List.cons_prefix_cons.2 ⟨rfl, ih⟩

/-- The front begins as the text does, if a line is asked for. -/
theorem head?_firstLines (n : Nat) (text : List Char) :
    (firstLines (n + 1) text).head? = text.head? := by
  cases text with
  | nil => rfl
  | cons c text =>
    unfold firstLines
    split <;> rfl

/-- A character that belongs to no line's end joins the line after it. -/
theorem lines_cons {c : Char} {text : List Char} (hn : c ≠ '\n')
    (hr : c = '\r' → text.head? ≠ some '\n') :
    lines (c :: text) =
      match lines text with
      | [] => [[c]]
      | line :: rest => (c :: line) :: rest := by
  have hcut : ∀ rest, c = '\r' → text = '\n' :: rest → False := by
    intro rest hc ht
    exact hr hc (by rw [ht]; rfl)
  exact lines.eq_4 c text hn hcut

/-- Cutting the text later does not turn its first character into a part of a line's end. -/
theorem lines_firstLines_cons {c : Char} {text : List Char} (hn : c ≠ '\n')
    (hr : ∀ rest, c = '\r' → text = '\n' :: rest → False) (n : Nat) :
    lines (firstLines (n + 1) (c :: text)) =
      match lines (firstLines (n + 1) text) with
      | [] => [[c]]
      | line :: rest => (c :: line) :: rest := by
  rw [firstLines_cons hn]
  refine lines_cons hn ?_
  rw [head?_firstLines]
  intro hc hh
  obtain ⟨rest, rfl⟩ := List.head?_eq_some_iff.1 hh
  exact hr rest hc rfl

/-- The front of a text has the first lines of the text. -/
theorem lines_firstLines (n : Nat) (text : List Char) :
    lines (firstLines n text) = (lines text).take n := by
  -- On the recursion of `lines`; the front is cut later only when a line ends.
  fun_induction lines text generalizing n with
  | case1 => simp
  | case2 text ih =>
    cases n with
    | zero => simp
    | succ n => rw [firstLines_newline, lines_newline, ih, List.take_succ_cons]
  | case3 text ih =>
    cases n with
    | zero => simp
    | succ n =>
      rw [firstLines_cons (by decide), firstLines_newline, lines_return_newline, ih,
        List.take_succ_cons]
  | case4 c text hn hr hl ih =>
    cases n with
    | zero => simp
    | succ n =>
      rw [lines_firstLines_cons hn hr, ih, hl, List.take_nil, List.take_succ_cons, List.take_nil]
  | case5 c text hn hr first rest hl ih =>
    cases n with
    | zero => simp
    | succ n =>
      rw [lines_firstLines_cons hn hr, ih, hl]
      rfl

end GanttChart.Text
