/-
  Wrapping words into lines of bounded length.

  Words go onto the line as long as they fit with a space before them; the first that does not
  fit starts a new line.  A word that is longer than a whole line is cut into pieces of exactly
  that length, and its last piece stays open for the next word.

  `wrapFrom` is the greedy rule as a recursion over the words, with the open line as its state;
  `wrap` starts it with no open line on the words of a text.
-/
import GanttChart.Text.Words

namespace GanttChart.Text

/-- `cut`, with a bound on the number of pieces. -/
def cutWithin (size : Nat) : Nat → List Char → List (List Char) × List Char
  | 0, text => ([], text)
  | bound + 1, text =>
    let later := text.drop size
    if later.isEmpty then ([], text)
    else
      let rest := cutWithin size bound later
      (text.take size :: rest.1, rest.2)

/--
  A text cut after every `size` characters: the full pieces that something follows, and the last
  piece.  There are at most as many pieces as characters.
-/
def cut (size : Nat) (text : List Char) : List (List Char) × List Char :=
  cutWithin size text.length text

/-- The pieces make up the text, whatever the bound. -/
theorem flatten_cutWithin (size bound : Nat) (text : List Char) :
    (cutWithin size bound text).1.flatten ++ (cutWithin size bound text).2 = text := by
  induction bound generalizing text with
  | zero => rfl
  | succ bound ih =>
    unfold cutWithin
    dsimp only
    split
    · rfl
    · rw [List.flatten_cons, List.append_assoc, ih, List.take_append_drop]

/-- The pieces make up the text. -/
theorem flatten_cut (size : Nat) (text : List Char) :
    (cut size text).1.flatten ++ (cut size text).2 = text :=
  flatten_cutWithin size text.length text

/-- All pieces but the last are of the given size, whatever the bound. -/
theorem length_of_mem_cutWithin {size bound : Nat} {text piece : List Char}
    (h : piece ∈ (cutWithin size bound text).1) : piece.length = size := by
  induction bound generalizing text with
  | zero => simp [cutWithin] at h
  | succ bound ih =>
    unfold cutWithin at h
    dsimp only at h
    split at h
    · simp at h
    · rename_i later
      rcases List.mem_cons.1 h with rfl | h
      · simp at later
        rw [List.length_take]
        omega
      · exact ih h

/-- All pieces but the last are of the given size. -/
theorem length_of_mem_cut {size : Nat} {text piece : List Char} (h : piece ∈ (cut size text).1) :
    piece.length = size :=
  length_of_mem_cutWithin h

/-- The last piece is no longer than the others. -/
theorem length_cut_le {size : Nat} (h : 0 < size) (text : List Char) :
    (cut size text).2.length ≤ size := by
  have : ∀ bound (text : List Char), text.length ≤ bound →
      (cutWithin size bound text).2.length ≤ size := by
    intro bound
    induction bound with
    | zero =>
      intro text ht
      simp only [cutWithin]
      omega
    | succ bound ih =>
      intro text ht
      unfold cutWithin
      dsimp only
      split
      · rename_i later
        simp at later
        exact later
      · exact ih _ (by rw [List.length_drop]; omega)
  exact this text.length text (Nat.le_refl _)

/-- The lines of an open line followed by words. -/
def wrapFrom (budget : Nat) (line : List Char) : List (List Char) → List (List Char)
  | [] => if line.isEmpty then [] else [line]
  | word :: rest =>
    if !line.isEmpty && line.length + 1 + word.length ≤ budget then
      wrapFrom budget (line ++ ' ' :: word) rest
    else
      let closed := if line.isEmpty then [] else [line]
      let pieces := cut budget word
      closed ++ pieces.1 ++ wrapFrom budget pieces.2 rest

/-- The text in lines of at most `budget` characters; a budget of zero counts as one. -/
def wrap (budget : Nat) (text : List Char) : List (List Char) :=
  wrapFrom (max budget 1) [] (words text)

example : wrap 5 "ab cd e".toList = ["ab cd".toList, ['e']] := by
  decide

example : wrap 2 "a bcd ".toList = [['a'], "bc".toList, ['d']] := by decide

end GanttChart.Text
