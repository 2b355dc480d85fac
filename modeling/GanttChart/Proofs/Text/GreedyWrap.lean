/-
  Greedy lines.

  1. **Pieces.**  A word that fits on a line is one piece.  A longer one is cut into pieces as long as
     a line, of which only the last may be shorter, in one way only (`isCut_iff`).  Wrapping a word is
     wrapping its pieces as words (`wrapFrom_flatMap_pieces`).

  2. **Rows.**  Pieces fill rows: a row takes pieces as long as they fit, and the first piece of the
     next row is one that did not.  There is one way only to fill rows (`IsFilled.unique`), and
     wrapping does (`exists_isFilled`); by induction on the pieces, with the open row as the state.

  3. **Lines.**  So the lines of a text are known from its words (`isWrapping_iff_eq_wrap`).  Joined,
     they have the pieces as their words, and fill the same rows again (`wrap_unwords_wrap`).
-/
import GanttChart.Proofs.Text.Fields
import GanttChart.Text.Wrap
import Mathlib.Data.List.Chain
import Mathlib.Data.List.Forall2

namespace GanttChart.Text

/-! ## Joined words

  A line is some words with a space between neighbours.  The lemmas say how long it is and what
  it holds, and that the words can be read back from it. -/

/-- One word is itself. -/
@[simp] theorem unwords_singleton (word : List Char) : unwords [word] = word :=
  List.intercalate_singleton

/-- A space stands between the first word and the others. -/
theorem unwords_cons {first : List Char} {rest : List (List Char)} (h : rest ≠ []) :
    unwords (first :: rest) = first ++ ' ' :: unwords rest := by
  rw [unwords, List.intercalate_cons_of_ne_nil h, List.append_assoc, List.singleton_append]
  rfl

/-- A space stands where two lists of words meet. -/
theorem unwords_append {front back : List (List Char)} (hfront : front ≠ []) (hback : back ≠ []) :
    unwords (front ++ back) = unwords front ++ ' ' :: unwords back := by
  induction front with
  | nil => exact absurd rfl hfront
  | cons first rest ih =>
    rcases eq_or_ne rest [] with rfl | hrest
    · rw [List.singleton_append, unwords_cons hback, unwords_singleton]
    · rw [List.cons_append, unwords_cons (by simp [hrest]), ih hrest, unwords_cons hrest,
        List.append_assoc, List.cons_append]

/-- So it counts where their lengths are added. -/
theorem length_unwords_append {front back : List (List Char)} (hfront : front ≠ [])
    (hback : back ≠ []) :
    (unwords (front ++ back)).length = (unwords front).length + 1 + (unwords back).length := by
  rw [unwords_append hfront hback, List.length_append, List.length_cons]
  omega

/-- Joined words are at least as long as the first of them. -/
theorem length_le_length_unwords (first : List Char) (rest : List (List Char)) :
    first.length ≤ (unwords (first :: rest)).length := by
  rcases eq_or_ne rest [] with rfl | hrest
  · rw [unwords_singleton]
  · rw [unwords_cons hrest, List.length_append]
    omega

/-- What can stand between blanks: a text without blanks that is not empty. -/
def IsWord (word : List Char) : Prop := word ≠ [] ∧ ∀ c ∈ word, isBlank c = false

/-- Words of a text are words. -/
theorem isWord_of_mem_words {word text : List Char} (h : word ∈ words text) : IsWord word :=
  ⟨ne_nil_of_mem_words h, fun _ hc => isBlank_of_mem_words h hc⟩

/-- A blank keeps words apart. -/
theorem words_append_blank {c : Char} (hc : isBlank c = true) (front back : List Char) :
    words (front ++ c :: back) = words front ++ words back := by
  unfold words
  rw [List.splitOnP_append_cons front back hc, List.filter_append]

/-- Words that are joined can be read back. -/
theorem words_unwords {ws : List (List Char)} (h : ∀ word ∈ ws, IsWord word) :
    words (unwords ws) = ws := by
  induction ws with
  | nil => rfl
  | cons first rest ih =>
    obtain ⟨hne, hblank⟩ := h first List.mem_cons_self
    have hfirst : words first = [first] := (words_eq_singleton_iff hne).2 hblank
    have hrest := ih fun word hword => h word (List.mem_cons_of_mem first hword)
    rcases eq_or_ne rest [] with rfl | hnil
    · rw [unwords_singleton, hfirst]
    · rw [unwords_cons hnil, words_append_blank (by decide), hfirst, hrest, List.singleton_append]

/-- Joined words start and end like the first and the last of them, and so not with a blank. -/
theorem isBlank_of_end_unwords {row : List (List Char)} (hrow : row ≠ [])
    (h : ∀ word ∈ row, IsWord word) :
    unwords row ≠ [] ∧
      ∀ c, (unwords row).head? = some c ∨ (unwords row).getLast? = some c → isBlank c = false := by
  induction row with
  | nil => exact absurd rfl hrow
  | cons first rest ih =>
    obtain ⟨hne, hblank⟩ := h first List.mem_cons_self
    rcases eq_or_ne rest [] with rfl | hnil
    · rw [unwords_singleton]
      refine ⟨hne, fun c hc => hblank c ?_⟩
      exact hc.elim List.mem_of_mem_head? List.mem_of_getLast?
    · obtain ⟨hrest, hends⟩ := ih hnil fun word hword => h word (List.mem_cons_of_mem first hword)
      rw [unwords_cons hnil]
      refine ⟨by simp, fun c hc => ?_⟩
      rcases hc with hc | hc
      · rw [List.head?_append_of_ne_nil _ hne] at hc
        exact hblank c (List.mem_of_mem_head? hc)
      · rw [List.getLast?_append_of_ne_nil _ (by simp), List.getLast?_cons_of_ne_nil hrest] at hc
        exact hends c (.inr hc)

/-- Joining adds nothing but spaces. -/
theorem filter_unwords {row : List (List Char)} (h : ∀ word ∈ row, IsWord word) :
    (unwords row).filter (· ≠ ' ') = row.flatten := by
  induction row with
  | nil => rfl
  | cons first rest ih =>
    have hfirst : first.filter (· ≠ ' ') = first := by
      refine List.filter_eq_self.2 fun c hc => decide_eq_true ?_
      rintro rfl
      cases (h first List.mem_cons_self).2 ' ' hc
    have hrest := ih fun word hword => h word (List.mem_cons_of_mem first hword)
    rcases eq_or_ne rest [] with rfl | hnil
    · rw [unwords_singleton, hfirst, List.flatten_singleton]
    · rw [unwords_cons hnil, List.filter_append, List.filter_cons_of_neg (by simp), hfirst, hrest,
        List.flatten_cons]

/-! ## Pieces

  `cut` is a recursion that takes pieces off in front, with a bound.  `IsCut` describes its
  result without the recursion, and determines it. -/

/-- The pieces of a word on lines of `m` characters. -/
structure IsCut (m : Nat) (word : List Char) (pieces : List (List Char)) : Prop where
  /-- A word that fits on a line is never split. -/
  whole : word.length ≤ m → pieces = [word]
  /-- A longer one makes up full lines and a last piece. -/
  split : m < word.length → ∃ full last, pieces = full ++ [last] ∧ full.flatten ++ last = word ∧
    (∀ piece ∈ full, piece.length = m) ∧ last ≠ [] ∧ last.length ≤ m

/-- The pieces of a word. -/
def pieces (m : Nat) (word : List Char) : List (List Char) := (cut m word).1 ++ [(cut m word).2]

/-- A word that is put together from full pieces and a last one is cut into these. -/
theorem cut_eq {m : Nat} (hm : 0 < m) {full : List (List Char)} {last : List Char}
    (hfull : ∀ piece ∈ full, piece.length = m) (hne : last ≠ []) (hlast : last.length ≤ m) :
    cut m (full.flatten ++ last) = (full, last) := by
  -- by induction on the full pieces, for every bound that is large enough
  have hwithin : ∀ bound, (full.flatten ++ last).length ≤ bound →
      cutWithin m bound (full.flatten ++ last) = (full, last) := by
    induction full with
    | nil =>
      intro bound _
      cases bound with
      | zero => rfl
      | succ bound => simp [cutWithin, hlast]
    | cons first rest ih =>
      intro bound hbound
      have hfirst : first.length = m := hfull first List.mem_cons_self
      have hrest := ih fun piece hpiece => hfull piece (List.mem_cons_of_mem first hpiece)
      rw [List.flatten_cons, List.append_assoc] at hbound ⊢
      rw [List.length_append, hfirst] at hbound
      obtain ⟨bound, rfl⟩ : ∃ b, bound = b + 1 := ⟨bound - 1, by omega⟩
      have hlater : (first ++ (rest.flatten ++ last)).drop m = rest.flatten ++ last :=
        List.drop_left' hfirst
      have hfront : (first ++ (rest.flatten ++ last)).take m = first := List.take_left' hfirst
      have hsome : (rest.flatten ++ last).isEmpty = false := by simp [hne]
      rw [cutWithin, hlater, hfront, hsome, hrest bound (by omega)]
      rfl
  exact hwithin _ (Nat.le_refl _)

/-- A word that fits on a line is not cut. -/
theorem cut_of_length_le {m : Nat} (hm : 0 < m) {word : List Char} (hne : word ≠ [])
    (h : word.length ≤ m) : cut m word = ([], word) := by
  have hcut : cut m (([] : List (List Char)).flatten ++ word) = ([], word) :=
    cut_eq hm (by simp) hne h
  simpa using hcut

/-- Such a word is its only piece. -/
theorem pieces_of_length_le {m : Nat} (hm : 0 < m) {word : List Char} (hne : word ≠ [])
    (h : word.length ≤ m) : pieces m word = [word] := by
  rw [pieces, cut_of_length_le hm hne h, List.nil_append]

/-- The pieces of a word make up the word. -/
theorem flatten_pieces (m : Nat) (word : List Char) : (pieces m word).flatten = word := by
  rw [pieces, List.flatten_append, List.flatten_singleton, flatten_cut]

/-- The last piece of a word is not empty. -/
theorem cut_last_ne_nil (m : Nat) {word : List Char} (hne : word ≠ []) : (cut m word).2 ≠ [] := by
  have hwithin : ∀ bound (text : List Char), text ≠ [] → (cutWithin m bound text).2 ≠ [] := by
    intro bound
    induction bound with
    | zero => exact fun _ htext => htext
    | succ bound ih =>
      intro text htext
      unfold cutWithin
      dsimp only
      split
      · exact htext
      · rename_i hlater
        exact ih _ (by simpa using hlater)
  exact hwithin _ word hne

/-- **A word has one cut.** -/
theorem isCut_iff {m : Nat} (hm : 0 < m) {word : List Char} (hne : word ≠ [])
    {cut : List (List Char)} : IsCut m word cut ↔ cut = pieces m word := by
  constructor
  · intro h
    rcases Nat.lt_or_ge m word.length with hlong | hshort
    · obtain ⟨full, last, rfl, rfl, hfull, hlast⟩ := h.split hlong
      rw [pieces, cut_eq hm hfull hlast.1 hlast.2]
    · rw [h.whole hshort, pieces_of_length_le hm hne hshort]
  · rintro rfl
    exact {
      whole := pieces_of_length_le hm hne
      split := fun _ => ⟨_, _, rfl, flatten_cut m word, fun _ => length_of_mem_cut,
        cut_last_ne_nil m hne, length_cut_le hm word⟩ }

/-- Pieces of words are words that fit on a line. -/
theorem of_mem_pieces {m : Nat} (hm : 0 < m) {word : List Char} (hword : IsWord word)
    {piece : List Char} (h : piece ∈ pieces m word) : IsWord piece ∧ piece.length ≤ m := by
  have hchar : ∀ c ∈ piece, isBlank c = false := by
    intro c hc
    refine hword.2 c ?_
    rw [← flatten_pieces m word]
    exact List.mem_flatten.2 ⟨piece, h, hc⟩
  rcases List.mem_append.1 h with hfull | hlast
  · have hlength := length_of_mem_cut hfull
    exact ⟨⟨List.ne_nil_of_length_pos (by omega), hchar⟩, by omega⟩
  · rw [List.mem_singleton] at hlast
    rw [hlast] at hchar ⊢
    exact ⟨⟨cut_last_ne_nil m hword.1, hchar⟩, length_cut_le hm word⟩

/-! ## Wrapping pieces -/

/-- A line that is closed before the next one begins. -/
def closed (line : List Char) : List (List Char) := if line.isEmpty then [] else [line]

/-- A piece that fits goes on the open line, behind a space. -/
theorem wrapFrom_of_fits {m : Nat} {line : List Char} {piece : List Char} (rest : List (List Char))
    (hline : line ≠ []) (h : line.length + 1 + piece.length ≤ m) :
    wrapFrom m line (piece :: rest) = wrapFrom m (line ++ ' ' :: piece) rest := by
  rw [wrapFrom, if_pos (by simp [hline, h])]

/-- A word that does not fit closes the open line; its full pieces are lines, and its last piece
    is open. -/
theorem wrapFrom_of_overflows {m : Nat} (line : List Char) {word : List Char}
    (rest : List (List Char)) (h : m < line.length + 1 + word.length) :
    wrapFrom m line (word :: rest) =
      closed line ++ ((cut m word).1 ++ wrapFrom m (cut m word).2 rest) := by
  rw [wrapFrom, if_neg (by simp; omega), ← List.append_assoc]
  rfl

/-- At the start there is no line to close. -/
theorem wrapFrom_nil_cons {m : Nat} (word : List Char) (rest : List (List Char)) :
    wrapFrom m [] (word :: rest) = (cut m word).1 ++ wrapFrom m (cut m word).2 rest := rfl

/-- Full pieces take up a line each, whatever is open before them. -/
theorem wrapFrom_full {m : Nat} (hm : 0 < m) (line : List Char) {full : List (List Char)}
    (hnil : full ≠ []) (hfull : ∀ piece ∈ full, piece.length = m) {last : List Char}
    (hne : last ≠ []) (hlast : last.length ≤ m) (rest : List (List Char)) :
    wrapFrom m line (full ++ last :: rest) = closed line ++ (full ++ wrapFrom m last rest) := by
  induction full generalizing line with
  | nil => exact absurd rfl hnil
  | cons first others ih =>
    have hfirst : first.length = m := hfull first List.mem_cons_self
    have hsome : first ≠ [] := List.ne_nil_of_length_pos (by omega)
    have hclosed : closed first = [first] := by simp [closed, hsome]
    rw [List.cons_append, wrapFrom_of_overflows line _ (by omega),
      cut_of_length_le hm hsome (Nat.le_of_eq hfirst), List.nil_append, List.cons_append]
    congr 1
    rcases eq_or_ne others [] with rfl | hothers
    · have hpos := List.length_pos_iff.2 hne
      rw [List.nil_append, List.nil_append, wrapFrom_of_overflows first rest (by omega),
        cut_of_length_le hm hne hlast, hclosed]
      rfl
    · rw [ih first hothers fun piece hpiece => hfull piece (List.mem_cons_of_mem first hpiece),
        hclosed]
      rfl

/-- **A word is wrapped like its pieces.** -/
theorem wrapFrom_pieces {m : Nat} (hm : 0 < m) (line : List Char) {word : List Char}
    (hne : word ≠ []) (rest : List (List Char)) :
    wrapFrom m line (word :: rest) = wrapFrom m line (pieces m word ++ rest) := by
  rcases Nat.lt_or_ge m word.length with hlong | hshort
  · have hfull : (cut m word).1 ≠ [] := by
      intro hnone
      have hflat := flatten_cut m word
      have hlast := length_cut_le hm word
      rw [hnone, List.flatten_nil, List.nil_append] at hflat
      rw [hflat] at hlast
      omega
    rw [pieces, List.append_assoc, List.singleton_append,
      wrapFrom_full hm line hfull (fun _ => length_of_mem_cut) (cut_last_ne_nil m hne)
        (length_cut_le hm word), wrapFrom_of_overflows line rest (by omega)]
  · rw [pieces_of_length_le hm hne hshort, List.singleton_append]

/-- **Words are wrapped like their pieces**, one after the other. -/
theorem wrapFrom_flatMap_pieces {m : Nat} (hm : 0 < m) (line : List Char) {ws : List (List Char)}
    (h : ∀ word ∈ ws, word ≠ []) :
    wrapFrom m line ws = wrapFrom m line (ws.flatMap (pieces m)) := by
  -- what comes after a word does not change how the word is wrapped
  have hcongr : ∀ (front a b : List (List Char)),
      (∀ line, wrapFrom m line a = wrapFrom m line b) →
      ∀ line, wrapFrom m line (front ++ a) = wrapFrom m line (front ++ b) := by
    intro front a b hab
    induction front with
    | nil => exact hab
    | cons first front ih =>
      intro line
      simp only [List.cons_append, wrapFrom, ih]
  induction ws generalizing line with
  | nil => rfl
  | cons word rest ih =>
    rw [wrapFrom_pieces hm line (h word List.mem_cons_self), List.flatMap_cons]
    exact hcongr _ _ _ (fun line => ih line fun other hother => h other (List.mem_cons_of_mem _ hother))
      line

/-! ## Rows

  Rows are lists of pieces, and lines are rows that are joined.  Rows are easier to compare than
  lines: of two ways to fill them, the first rows are beginnings of the same list of pieces. -/

/-- Rows that pieces fill, a line for each row. -/
structure IsFilled (m : Nat) (pieces : List (List Char)) (rows : List (List (List Char))) : Prop where
  /-- Nothing is lost, repeated or moved. -/
  flatten_eq : rows.flatten = pieces
  ne_nil : ∀ row ∈ rows, row ≠ []
  fits : ∀ row ∈ rows, (unwords row).length ≤ m
  /-- The first piece of the next row would not fit behind a space. -/
  greedy : rows.IsChain fun row next =>
    ∀ piece ∈ next.head?, m < (unwords row).length + 1 + piece.length

/-- The rows after the first are filled by the pieces that are in them. -/
theorem IsFilled.tail {m : Nat} {ps row : List (List Char)} {rows : List (List (List Char))}
    (h : IsFilled m ps (row :: rows)) : IsFilled m rows.flatten rows where
  flatten_eq := rfl
  ne_nil := fun _ hrow => h.ne_nil _ (List.mem_cons_of_mem row hrow)
  fits := fun _ hrow => h.fits _ (List.mem_cons_of_mem row hrow)
  greedy := (List.isChain_cons.1 h.greedy).2

/-- A row does not end where the next piece would fit. -/
theorem IsFilled.not_lt {m : Nat} {ps row front : List (List Char)} {rows : List (List (List Char))}
    (h : IsFilled m ps (row :: rows)) {piece : List Char} {back : List (List Char)}
    (hlonger : front = row ++ piece :: back) (hfits : (unwords front).length ≤ m)
    {later : List (List Char)} (hrest : rows.flatten = piece :: later) : False := by
  have hrow := h.ne_nil row List.mem_cons_self
  obtain ⟨next, others, rfl⟩ : ∃ next others, rows = next :: others := by
    cases rows with
    | nil => simp at hrest
    | cons next others => exact ⟨next, others, rfl⟩
  have hnext := h.ne_nil next (by simp)
  obtain ⟨first, tail, rfl⟩ := List.exists_cons_of_ne_nil hnext
  simp only [List.flatten_cons, List.cons_append, List.cons.injEq] at hrest
  obtain ⟨rfl, -⟩ := hrest
  have hover := (List.isChain_cons_cons.1 h.greedy).1 first rfl
  -- the longer row holds the row, a space and the piece
  have hlength : (unwords row).length + 1 + first.length ≤ (unwords front).length := by
    rw [hlonger, length_unwords_append hrow (List.cons_ne_nil first back)]
    exact Nat.add_le_add_left (length_le_length_unwords first back) _
  omega

/-- **Pieces fill rows in one way.** -/
theorem IsFilled.unique {m : Nat} {ps : List (List Char)} {rows rows' : List (List (List Char))}
    (h : IsFilled m ps rows) (h' : IsFilled m ps rows') : rows = rows' := by
  -- by induction on the rows: if the first rows are the same, so are the pieces that are left
  induction rows generalizing ps rows' with
  | nil =>
    cases rows' with
    | nil => rfl
    | cons row' rest' =>
      have hnone : (row' :: rest').flatten = [] := h'.flatten_eq.trans h.flatten_eq.symm
      simp only [List.flatten_cons, List.append_eq_nil_iff] at hnone
      exact absurd hnone.1 (h'.ne_nil row' List.mem_cons_self)
  | cons row rest ih =>
    cases rows' with
    | nil =>
      have hnone : (row :: rest).flatten = [] := h.flatten_eq.trans h'.flatten_eq.symm
      simp only [List.flatten_cons, List.append_eq_nil_iff] at hnone
      exact absurd hnone.1 (h.ne_nil row List.mem_cons_self)
    | cons row' rest' =>
      have hsame : row ++ rest.flatten = row' ++ rest'.flatten :=
        h.flatten_eq.trans h'.flatten_eq.symm
      -- of two first rows the longer one would have taken the piece that opens the other's second
      rcases List.append_eq_append_iff.1 hsame with ⟨more, hrow', hrest⟩ | ⟨more, hrow, hrest⟩
      · cases more with
        | nil =>
          rw [List.append_nil] at hrow'
          subst hrow'
          rw [ih h.tail (by rw [hrest]; exact h'.tail)]
        | cons piece back =>
          exact (h.not_lt hrow' (h'.fits row' List.mem_cons_self) hrest).elim
      · cases more with
        | nil =>
          rw [List.append_nil] at hrow
          subst hrow
          rw [ih h.tail (by rw [← List.nil_append rest.flatten, ← hrest]; exact h'.tail)]
        | cons piece back =>
          exact (h'.not_lt hrow (h.fits row List.mem_cons_self) hrest).elim

/-- The lines of an open row that pieces follow. -/
theorem exists_isFilled_append {m : Nat} (hm : 0 < m) {row ps : List (List Char)} (hrow : row ≠ [])
    (hfits : (unwords row).length ≤ m) (hline : unwords row ≠ [])
    (hps : ∀ piece ∈ ps, piece ≠ [] ∧ piece.length ≤ m) :
    ∃ tail later, IsFilled m (row ++ ps) ((row ++ tail) :: later) ∧
      wrapFrom m (unwords row) ps = ((row ++ tail) :: later).map unwords := by
  induction ps generalizing row with
  | nil =>
    refine ⟨[], [], ?_, ?_⟩
    · rw [List.append_nil]
      exact ⟨List.flatten_singleton, by simpa using hrow, by simpa using hfits, .singleton row⟩
    · simp [wrapFrom, hline]
  | cons piece rest ih =>
    obtain ⟨hne, hlength⟩ := hps piece List.mem_cons_self
    have hrest : ∀ other ∈ rest, other ≠ [] ∧ other.length ≤ m :=
      fun other hother => hps other (List.mem_cons_of_mem piece hother)
    by_cases hroom : (unwords row).length + 1 + piece.length ≤ m
    · have hjoin : unwords (row ++ [piece]) = unwords row ++ ' ' :: piece := by
        rw [unwords_append hrow (by simp), unwords_singleton]
      have hlength' : (unwords (row ++ [piece])).length ≤ m := by
        rw [hjoin, List.length_append, List.length_cons]
        omega
      have hline' : unwords (row ++ [piece]) ≠ [] := by simp [hjoin]
      obtain ⟨tail, later, hfilled, hlines⟩ := ih (by simp) hlength' hline' hrest
      rw [List.append_assoc, List.singleton_append] at hfilled
      refine ⟨piece :: tail, later, by simpa using hfilled, ?_⟩
      rw [wrapFrom_of_fits rest hline hroom, ← hjoin, hlines]
      simp
    · -- the row is closed, and the piece opens the next one
      have hpiece := unwords_singleton piece
      obtain ⟨tail, later, hfilled, hlines⟩ := ih (List.cons_ne_nil piece [])
        (by rwa [hpiece]) (by rwa [hpiece]) hrest
      rw [hpiece] at hlines
      refine ⟨[], ([piece] ++ tail) :: later, ?_, ?_⟩
      · rw [List.append_nil]
        exact {
          flatten_eq := by rw [List.flatten_cons, hfilled.flatten_eq, List.singleton_append]
          ne_nil := List.forall_mem_cons.2 ⟨hrow, hfilled.ne_nil⟩
          fits := List.forall_mem_cons.2 ⟨hfits, hfilled.fits⟩
          greedy := List.isChain_cons_cons.2 ⟨by simpa using Nat.lt_of_not_le hroom, hfilled.greedy⟩ }
      · rw [wrapFrom_of_overflows _ rest (by omega), cut_of_length_le hm hne hlength, hlines]
        simp [closed, hline]

/-- **Wrapping fills rows** with the pieces of the words. -/
theorem exists_isFilled {m : Nat} (hm : 0 < m) {ws : List (List Char)}
    (h : ∀ word ∈ ws, IsWord word) :
    ∃ rows, IsFilled m (ws.flatMap (pieces m)) rows ∧ wrapFrom m [] ws = rows.map unwords := by
  have hpieces : ∀ piece ∈ ws.flatMap (pieces m), piece ≠ [] ∧ piece.length ≤ m := by
    intro piece hpiece
    obtain ⟨word, hword, hpiece⟩ := List.mem_flatMap.1 hpiece
    have hgood := of_mem_pieces hm (h word hword) hpiece
    exact ⟨hgood.1.1, hgood.2⟩
  rw [wrapFrom_flatMap_pieces hm [] fun word hword => (h word hword).1]
  cases hps : ws.flatMap (pieces m) with
  | nil => exact ⟨[], ⟨rfl, by simp, by simp, .nil⟩, rfl⟩
  | cons piece rest =>
    rw [hps, List.forall_mem_cons] at hpieces
    obtain ⟨⟨hne, hlength⟩, hrest⟩ := hpieces
    have hpiece := unwords_singleton piece
    obtain ⟨tail, later, hfilled, hlines⟩ := exists_isFilled_append hm (List.cons_ne_nil piece [])
      (by rwa [hpiece]) (by rwa [hpiece]) hrest
    rw [hpiece] at hlines
    refine ⟨_, hfilled, ?_⟩
    rw [wrapFrom_nil_cons, cut_of_length_le hm hne hlength, List.nil_append, hlines]

/-- A piece as long as a line has a row for itself. -/
theorem IsFilled.exists_full {m : Nat} {before after : List (List Char)} {piece : List Char}
    {rows : List (List (List Char))} (h : IsFilled m (before ++ piece :: after) rows)
    (hlength : piece.length = m) :
    ∃ earlier later, rows = earlier ++ [piece] :: later ∧ earlier.flatten = before := by
  induction rows generalizing before with
  | nil => simpa using h.flatten_eq
  | cons row rest ih =>
    have hsame : row ++ rest.flatten = before ++ piece :: after := h.flatten_eq
    have hrow := h.ne_nil row List.mem_cons_self
    have hfits := h.fits row List.mem_cons_self
    rcases List.append_eq_append_iff.1 hsame with ⟨more, hbefore, hrest⟩ | ⟨more, hmore, hrest⟩
    · have hlater : IsFilled m (more ++ piece :: after) rest := by
        rw [← hrest]
        exact h.tail
      obtain ⟨earlier, later, rfl, hearlier⟩ := ih hlater
      exact ⟨row :: earlier, later, rfl, by rw [List.flatten_cons, hearlier, hbefore]⟩
    · cases more with
      | nil =>
        have hlater : IsFilled m ([] ++ piece :: after) rest := by
          rw [hrest]
          exact h.tail
        obtain ⟨earlier, later, rfl, hearlier⟩ := ih hlater
        refine ⟨row :: earlier, later, rfl, ?_⟩
        rw [List.flatten_cons, hearlier, hmore, List.append_nil, List.append_nil]
      | cons first others =>
        simp only [List.cons_append, List.cons.injEq] at hrest
        obtain ⟨rfl, -⟩ := hrest
        -- the row has no room for anything beside the piece
        have hpiece := length_le_length_unwords piece others
        have hbefore : before = [] := by
          by_contra hbefore
          rw [hmore, length_unwords_append hbefore (List.cons_ne_nil piece others)] at hfits
          omega
        have hothers : others = [] := by
          by_contra hothers
          rw [hmore, hbefore, List.nil_append, unwords_cons hothers, List.length_append,
            List.length_cons] at hfits
          omega
        subst hbefore hothers
        exact ⟨[], rest, by rw [hmore]; rfl, rfl⟩

/-! ## Lines -/

/-- Lines of at most `m` characters that some words are set in. -/
structure IsWrapping (m : Nat) (ws lines : List (List Char)) : Prop where
  /-- A line is pieces with a space between neighbours. -/
  rows : ∃ cuts rows, List.Forall₂ (IsCut m) ws cuts ∧ IsFilled m cuts.flatten rows ∧
    lines = rows.map unwords
  ne_nil : ∀ line ∈ lines, line ≠ []
  length_le : ∀ line ∈ lines, line.length ≤ m
  /-- No line starts or ends with a blank. -/
  isBlank_end : ∀ line ∈ lines, ∀ c, line.head? = some c ∨ line.getLast? = some c →
    isBlank c = false
  /-- The lines hold the words and spaces. -/
  letters : lines.flatten.filter (· ≠ ' ') = ws.flatten
  /-- A word that is longer than a line starts a line, which it fills. -/
  fresh : ∀ before word after, ws = before ++ word :: after → m < word.length →
    ∃ earlier later, lines = earlier ++ word.take m :: later ∧
      earlier.flatten.filter (· ≠ ' ') = before.flatten

/-- Each word has one cut, and so have all of them. -/
theorem forall₂_isCut_iff {m : Nat} (hm : 0 < m) {ws : List (List Char)}
    (h : ∀ word ∈ ws, IsWord word) {cuts : List (List (List Char))} :
    List.Forall₂ (IsCut m) ws cuts ↔ cuts = ws.map (pieces m) := by
  induction ws generalizing cuts with
  | nil => simp
  | cons word rest ih =>
    have hrest : ∀ cuts, List.Forall₂ (IsCut m) rest cuts ↔ cuts = rest.map (pieces m) :=
      fun _ => ih fun other hother => h other (List.mem_cons_of_mem word hother)
    rw [List.forall₂_cons_left_iff]
    simp only [isCut_iff hm (h word List.mem_cons_self).1, hrest, List.map_cons]
    constructor
    · rintro ⟨_, _, rfl, rfl, rfl⟩
      rfl
    · rintro rfl
      exact ⟨_, _, rfl, rfl, rfl⟩

/-- The pieces of words make up the words. -/
theorem flatten_flatMap_pieces (m : Nat) (ws : List (List Char)) :
    (ws.flatMap (pieces m)).flatten = ws.flatten := by
  induction ws with
  | nil => rfl
  | cons word rest ih =>
    rw [List.flatMap_cons, List.flatten_append, ih, flatten_pieces, List.flatten_cons]

/-- Lines hold what their rows do. -/
theorem filter_flatten_map_unwords {rows : List (List (List Char))}
    (h : ∀ row ∈ rows, ∀ word ∈ row, IsWord word) :
    (rows.map unwords).flatten.filter (· ≠ ' ') = rows.flatten.flatten := by
  induction rows with
  | nil => rfl
  | cons row rest ih =>
    rw [List.map_cons, List.flatten_cons, List.filter_append,
      filter_unwords (h row List.mem_cons_self),
      ih fun other hother => h other (List.mem_cons_of_mem row hother), List.flatten_cons,
      List.flatten_append]

/-- Rows of pieces are lines of words. -/
theorem IsFilled.isWrapping {m : Nat} (hm : 0 < m) {ws : List (List Char)}
    (h : ∀ word ∈ ws, IsWord word) {rows : List (List (List Char))}
    (hrows : IsFilled m (ws.flatMap (pieces m)) rows) : IsWrapping m ws (rows.map unwords) := by
  have hpiece : ∀ row ∈ rows, ∀ piece ∈ row, IsWord piece := by
    intro row hrow piece hpiece
    have hmem : piece ∈ ws.flatMap (pieces m) := by
      rw [← hrows.flatten_eq]
      exact List.mem_flatten.2 ⟨row, hrow, hpiece⟩
    obtain ⟨word, hword, hcut⟩ := List.mem_flatMap.1 hmem
    exact (of_mem_pieces hm (h word hword) hcut).1
  have hends : ∀ row ∈ rows, unwords row ≠ [] ∧ ∀ c, (unwords row).head? = some c ∨
      (unwords row).getLast? = some c → isBlank c = false :=
    fun row hrow => isBlank_of_end_unwords (hrows.ne_nil row hrow) (hpiece row hrow)
  constructor
  case rows =>
    refine ⟨ws.map (pieces m), rows, (forall₂_isCut_iff hm h).2 rfl, ?_, rfl⟩
    rwa [← List.flatMap_def]
  case ne_nil => exact List.forall_mem_map.2 fun row hrow => (hends row hrow).1
  case length_le => exact List.forall_mem_map.2 hrows.fits
  case isBlank_end => exact List.forall_mem_map.2 fun row hrow => (hends row hrow).2
  case letters =>
    rw [filter_flatten_map_unwords hpiece, hrows.flatten_eq, flatten_flatMap_pieces]
  case fresh =>
    intro before word after hws hlong
    have hword : IsWord word := h word (by simp [hws])
    -- the word has a first piece that fills a line
    obtain ⟨full, last, hcut, hflat, hfull, hlast⟩ :=
      ((isCut_iff hm hword.1).2 rfl).split hlong
    obtain ⟨first, others, rfl⟩ : ∃ first others, full = first :: others := by
      cases full with
      | nil =>
        rw [List.flatten_nil, List.nil_append] at hflat
        rw [← hflat] at hlong
        omega
      | cons first others => exact ⟨first, others, rfl⟩
    have hlength : first.length = m := hfull first List.mem_cons_self
    have hfirst : word.take m = first := by
      rw [← hflat, List.flatten_cons, List.append_assoc, List.take_left' hlength]
    have hsplit : ws.flatMap (pieces m) =
        before.flatMap (pieces m) ++ first :: (others ++ [last] ++ after.flatMap (pieces m)) := by
      rw [hws, List.flatMap_append, List.flatMap_cons, hcut]
      simp
    rw [hsplit] at hrows
    obtain ⟨earlier, later, rfl, hearlier⟩ := hrows.exists_full hlength
    refine ⟨earlier.map unwords, later.map unwords, ?_, ?_⟩
    · rw [List.map_append, List.map_cons, unwords_singleton, hfirst]
    · rw [filter_flatten_map_unwords fun row hrow => hpiece row (by simp [hrow]), hearlier,
        flatten_flatMap_pieces]

/-- **The lines of a text.**  For every text and budget, wrapping gives lines that the words are set
    in, and no other lines are. -/
theorem isWrapping_iff_eq_wrap (budget : Nat) (text : List Char) (lines : List (List Char)) :
    IsWrapping (max budget 1) (words text) lines ↔ lines = wrap budget text := by
  have hm : 0 < max budget 1 := by omega
  have hwords : ∀ word ∈ words text, IsWord word := fun _ => isWord_of_mem_words
  obtain ⟨rows, hrows, hwrap⟩ := exists_isFilled hm hwords
  rw [wrap, hwrap]
  constructor
  · intro h
    obtain ⟨cuts, others, hcuts, hothers, rfl⟩ := h.rows
    rw [(forall₂_isCut_iff hm hwords).1 hcuts, ← List.flatMap_def] at hothers
    rw [hothers.unique hrows]
  · rintro rfl
    exact hrows.isWrapping hm hwords

example : wrap 4 "abcdefghij xy z".toList =
    ["abcd".toList, "efgh".toList, "ij".toList, "xy z".toList] := by decide

/-! ## Wrapping again -/

/-- Lines that are joined by spaces are their pieces joined by spaces. -/
theorem unwords_map_unwords {rows : List (List (List Char))} (h : ∀ row ∈ rows, row ≠ []) :
    unwords (rows.map unwords) = unwords rows.flatten := by
  induction rows with
  | nil => rfl
  | cons row rest ih =>
    rw [List.forall_mem_cons] at h
    rcases eq_or_ne rest [] with rfl | hrest
    · rw [List.map_singleton, List.flatten_singleton, unwords_singleton]
    · have hflat : rest.flatten ≠ [] := by
        obtain ⟨next, others, rfl⟩ := List.exists_cons_of_ne_nil hrest
        simp [h.2 next List.mem_cons_self]
      rw [List.map_cons, unwords_cons (by simpa using hrest), ih h.2, List.flatten_cons,
        unwords_append h.1 hflat]

/-- **Wrapping the lines again changes nothing**, whether or not words were split. -/
theorem wrap_unwords_wrap (budget : Nat) (text : List Char) :
    wrap budget (unwords (wrap budget text)) = wrap budget text := by
  have hm : 0 < max budget 1 := by omega
  have hwords : ∀ word ∈ words text, IsWord word := fun _ => isWord_of_mem_words
  obtain ⟨rows, hrows, hwrap⟩ := exists_isFilled hm hwords
  have hpieces : ∀ piece ∈ (words text).flatMap (pieces (max budget 1)),
      IsWord piece ∧ piece.length ≤ max budget 1 := by
    intro piece hpiece
    obtain ⟨word, hword, hcut⟩ := List.mem_flatMap.1 hpiece
    exact of_mem_pieces hm (hwords word hword) hcut
  -- the pieces are the words of the joined lines, and none of them is cut again
  have hagain : words (unwords (rows.map unwords)) = (words text).flatMap (pieces (max budget 1)) := by
    rw [unwords_map_unwords hrows.ne_nil, hrows.flatten_eq,
      words_unwords fun piece hpiece => (hpieces piece hpiece).1]
  have huncut : ((words text).flatMap (pieces (max budget 1))).flatMap (pieces (max budget 1)) =
      (words text).flatMap (pieces (max budget 1)) := by
    conv_rhs => rw [← List.flatMap_singleton' ((words text).flatMap (pieces (max budget 1)))]
    refine List.flatMap_congr fun piece hpiece => ?_
    exact pieces_of_length_le hm (hpieces piece hpiece).1.1 (hpieces piece hpiece).2
  obtain ⟨rows', hrows', hwrap'⟩ := exists_isFilled hm fun piece hpiece => (hpieces piece hpiece).1
  rw [huncut] at hrows'
  calc wrap budget (unwords (wrap budget text))
      = wrapFrom (max budget 1) [] (words (unwords (rows.map unwords))) := by rw [wrap, wrap, hwrap]
    _ = rows'.map unwords := by rw [hagain, hwrap']
    _ = rows.map unwords := by rw [hrows'.unique hrows]
    _ = wrap budget text := by rw [wrap, hwrap]

end GanttChart.Text
