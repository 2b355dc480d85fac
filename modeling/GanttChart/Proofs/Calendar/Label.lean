/-
  Where a character of a label comes from.

  The labels of the time axis are the only texts of a chart that are computed from a pattern.  For the
  question which characters get into a document they have to be traced back to the pattern; here, for
  a character that XML does not allow.

  1. **Items.**  Numbers and names are clean, so a character that XML does not allow is in a label
     exactly if it is a literal of the pattern (`mem_label_iff`).

  2. **Patterns.**  A directive is a few letters and signs and stands for clean items, so such a
     character is a literal of a pattern exactly if the text of the pattern holds it
     (`literal_mem_iff`).

  3. **Token patterns.**  Tokens are letters and stand for clean directives, so the directive form of
     a pattern holds such a character exactly if the pattern does (`mem_directives_iff`).

  "Clean" is about every character of a text (`IsClean`), and the three results are equivalences: a
  character that is not allowed is neither lost nor made up on the way.
-/
import GanttChart.Calendar.Pattern.Label
import GanttChart.Calendar.Pattern
import GanttChart.Proofs.Svg.Character

namespace GanttChart.Pattern

open GanttChart.Svg GanttChart.Text

/-! ## Items

  Most numbers are digits with a filler.  Numbers of two places are written by hand, tens past
  nine as further characters, so their size has to be bounded. -/

/-- A number with any padding is clean. -/
theorem isClean_natText (padding : Padding) (width n : Nat) : IsClean (natText padding width n) := by
  unfold natText
  split
  · exact isClean_digits n
  · exact isClean_padded width n
  · exact isClean_padLeft (by decide) width (isClean_digits n)

/-- A number behind a sign is clean. -/
theorem isClean_signedText (padding : Padding) (width : Nat) {sign : Char} (hsign : IsChar sign)
    (n : Nat) : IsClean (signedText padding width sign n) := by
  unfold signedText
  split
  · exact isClean_cons.2 ⟨hsign, isClean_digits n⟩
  · exact isClean_cons.2 ⟨hsign, isClean_padded _ n⟩
  · exact isClean_padLeft (by decide) width (isClean_cons.2 ⟨hsign, isClean_digits n⟩)

/-- Tens past nine are written as further characters, which are allowed as far as tens go. -/
theorem isClean_twoPlaces (padding : Padding) {n : Nat} (hn : n < 1000) :
    IsClean (twoPlaces padding n) := by
  refine isClean_append.2 ⟨?_, isClean_digits _⟩
  split
  · cases padding <;> decide
  · refine isClean_cons.2 ⟨?_, isClean_nil⟩
    have htens : ∀ tens : Fin 100, IsChar (Char.ofNat (48 + tens.val)) := by decide +kernel
    exact htens ⟨n / 10, by omega⟩

/-- Years are clean, with or without a sign. -/
theorem isClean_yearText (padding : Padding) (year : Int) : IsClean (yearText padding year) := by
  unfold yearText
  split
  · exact isClean_signedText padding 5 (by decide) _
  · split
    · exact isClean_natText padding 4 _
    · exact isClean_signedText padding 5 (by decide) _

/-- Seconds since the epoch are clean. -/
theorem isClean_timestampText (padding : Padding) (seconds : Int) :
    IsClean (timestampText padding seconds) := by
  unfold timestampText
  split
  · exact isClean_signedText padding 9 (by decide) _
  · exact isClean_natText padding 9 _

/-- Days of a year are counted from 0 to 365. -/
theorem dayOfYear_lt_367 (date : Date) : date.dayOfYear < 367 := by
  have h := date.dayOfYear_lt
  unfold Year.leapDay at h
  split at h
  · omega
  · omega

/-- Weeks of a year are few. -/
theorem weekOfYear_lt (date : Date) : date.weekOfYear < 1000 := by
  obtain ⟨hlow, hhigh⟩ := Year.ofDay_bounds date.thursday
  rw [Year.start_succ] at hhigh
  unfold Date.weekOfYear Date.weekYear
  split at hhigh
  · omega
  · omega

/-- **Every number is clean.**  Those of two places need a bound, which the calendar and the
    clock give. -/
theorem isClean_quantity (t : Instant) (padding : Padding) (q : Quantity) :
    IsClean (q.text t padding) := by
  have hday := dayOfYear_lt_367 t.date
  have hsecond := t.time.second_lt
  have hnanosecond := t.time.nanosecond_lt
  -- numbers of two places are below a hundred, and all others are written in full
  cases q with
  | year => exact isClean_yearText padding _
  | weekYear => exact isClean_yearText padding _
  | century => exact isClean_twoPlaces padding (by omega)
  | yearOfCentury => exact isClean_twoPlaces padding (by omega)
  | weekYearOfCentury => exact isClean_twoPlaces padding (by omega)
  | quarter => exact isClean_digits _
  | weekdayFromSunday => exact isClean_digits _
  | weekdayFromMonday => exact isClean_digits _
  | month =>
    have hmonth : t.date.month ≤ 12 := Year.monthOf_le t.date.dayOfYear_lt
    exact isClean_twoPlaces padding (by omega)
  | day => exact isClean_twoPlaces padding (by unfold Date.day; omega)
  | dayOfYear => exact isClean_natText padding 3 _
  | weekFromSunday => exact isClean_twoPlaces padding (by unfold Date.weeksSince; omega)
  | weekFromMonday => exact isClean_twoPlaces padding (by unfold Date.weeksSince; omega)
  | weekOfYear => exact isClean_twoPlaces padding (weekOfYear_lt t.date)
  | hour => exact isClean_twoPlaces padding (by unfold TimeOfDay.hour; omega)
  | hourOfTwelve =>
    refine isClean_twoPlaces padding ?_
    unfold dialHour
    split
    · omega
    · omega
  | minute => exact isClean_twoPlaces padding (by unfold TimeOfDay.minute; omega)
  | second => exact isClean_twoPlaces padding (by unfold TimeOfDay.clockSecond; omega)
  | nanosecond => exact isClean_natText padding 9 _
  | timestamp => exact isClean_timestampText padding _

/-- An entry of a table of clean names is clean, and so is a missing one. -/
theorem isClean_getD {names : List String} (h : ∀ name ∈ names, IsClean name.toList) (i : Nat) :
    IsClean (names.getD i "").toList := by
  rw [List.getD_eq_getElem?_getD]
  cases hname : names[i]? with
  | none => decide
  | some name => exact h name (List.mem_of_getElem? hname)

/-- **Every name is clean**; the tables are checked as a whole. -/
theorem isClean_name (t : Instant) (n : Name) : IsClean (n.text t) := by
  have hmonth : IsClean (monthName t.date) := isClean_getD (by decide) _
  have hweekday : IsClean (weekdayName t.date) := isClean_getD (by decide) _
  cases n with
  | month => exact hmonth
  | monthShort => exact fun c hc => hmonth c (List.mem_of_mem_take hc)
  | weekday => exact hweekday
  | weekdayShort => exact fun c hc => hweekday c (List.mem_of_mem_take hc)
  | meridiem =>
    unfold Name.text
    dsimp only
    split <;> decide
  | meridiemSmall =>
    unfold Name.text
    dsimp only
    split <;> decide

/-- Fractions of a second are clean. -/
theorem isClean_fraction (nanosecond : Nat) (f : Fraction) : IsClean (f.text nanosecond) := by
  cases f with
  | shortest =>
    unfold Fraction.text Instant.fractionText
    dsimp only
    split
    · exact isClean_nil
    · split
      · exact isClean_cons.2 ⟨by decide, isClean_padded _ _⟩
      · split
        · exact isClean_cons.2 ⟨by decide, isClean_padded _ _⟩
        · exact isClean_cons.2 ⟨by decide, isClean_padded _ _⟩
  | digits pointed count =>
    refine isClean_append.2 ⟨?_, isClean_padded _ _⟩
    cases pointed <;> decide

variable {c : Char}

/-- Of the items only a literal can be a character that is not allowed. -/
theorem Item.mem_text_iff (hc : ¬ IsChar c) {t : Instant} {item : Item} {text : List Char}
    (h : item.text? t = some text) : c ∈ text ↔ item = .literal c := by
  cases item with
  | literal d =>
    cases h
    simp [eq_comm]
  | quantity q padding =>
    cases h
    exact iff_of_false ((isClean_quantity t padding q).notMem hc) (fun h => nomatch h)
  | name n =>
    cases h
    exact iff_of_false ((isClean_name t n).notMem hc) (fun h => nomatch h)
  | fraction f =>
    cases h
    exact iff_of_false ((isClean_fraction _ f).notMem hc) (fun h => nomatch h)
  | zone => cases h

/-- **A label holds a character that is not allowed** exactly if it is a literal of the pattern. -/
theorem mem_label_iff (hc : ¬ IsChar c) {t : Instant} {items : List Item} {label : List Char}
    (h : label? t items = some label) : c ∈ label ↔ .literal c ∈ items := by
  induction items generalizing label with
  | nil =>
    cases h
    simp
  | cons item items ih =>
    rw [label?] at h
    cases hitem : item.text? t with
    | none => simp [hitem] at h
    | some text =>
      cases hrest : label? t items with
      | none => simp [hitem, hrest] at h
      | some rest =>
        simp only [hitem, hrest] at h
        cases h
        rw [List.mem_append, List.mem_cons, Item.mem_text_iff hc hitem, ih hrest, eq_comm]

/-! ## Patterns

  The proof follows the reader of patterns: a case for each directive that it knows, with the
  text that it reads, and one for a literal. -/

/-- The item is no character that is not allowed. -/
def Item.isClean : Item → Bool
  | .literal c => decide (IsChar c)
  | _ => true

/-- Clean items hold no literal that is not allowed. -/
theorem literal_notMem (hc : ¬ IsChar c) {items : List Item} (h : items.all Item.isClean = true) :
    .literal c ∉ items := by
  intro hmem
  exact hc (of_decide_eq_true (List.all_eq_true.1 h _ hmem))

/-- The letter of a number is allowed. -/
theorem isChar_of_quantity? {d : Char} {q : Quantity × Padding} (h : quantity? d = some q) :
    IsChar d := by
  unfold quantity? at h
  split at h
  all_goals first | decide | cases h

/-- A directive is a letter that is allowed and stands for clean items. -/
theorem clean_of_directive? {d : Char} {items : List Item} (h : directive? d = some items) :
    IsChar d ∧ items.all Item.isClean = true := by
  unfold directive? at h
  split at h
  · rename_i q padding hquantity
    cases h
    exact ⟨isChar_of_quantity? hquantity, rfl⟩
  · unfold composite? at h
    split at h
    all_goals cases h
    all_goals exact ⟨by decide, by decide⟩

/-- Items are put in front only if both sides could be read. -/
theorem prepend_eq_some_iff {front rest : Option (List Item)} {items : List Item} :
    prepend front rest = some items ↔
      ∃ found later, front = some found ∧ rest = some later ∧ items = found ++ later := by
  unfold prepend
  cases front <;> cases rest <;> simp [eq_comm]

/-- A directive in front adds neither a character nor a literal that is not allowed, so what
    holds of the rest holds of the whole. -/
theorem literal_mem_prepend_iff (hc : ¬ IsChar c) (read : List Char) {rest : List Char}
    {front : Option (List Item)} {items : List Item}
    (hfront : ∀ found, front = some found → IsClean read ∧ found.all Item.isClean = true)
    (ih : ∀ {items}, ofText? rest = some items → (.literal c ∈ items ↔ c ∈ rest))
    (h : prepend front (ofText? rest) = some items) : .literal c ∈ items ↔ c ∈ read ++ rest := by
  obtain ⟨found, later, hfound, hlater, rfl⟩ := prepend_eq_some_iff.1 h
  obtain ⟨hread, hclean⟩ := hfront found hfound
  rw [List.mem_append, List.mem_append, or_iff_right (literal_notMem hc hclean),
    or_iff_right (hread.notMem hc), ih hlater]

/-- **A pattern has a character that is not allowed** as a literal exactly if its text holds it.
    Each directive is put in front of what the rest is read as, by the induction of the reader. -/
theorem literal_mem_iff (hc : ¬ IsChar c) {text : List Char} {items : List Item}
    (h : ofText? text = some items) : .literal c ∈ items ↔ c ∈ text := by
  have padded : ∀ {padding d} {sign : Char}, IsChar sign → ∀ found,
      paddedDirective? padding d = some found →
        IsClean ['%', sign, d] ∧ found.all Item.isClean = true := by
    intro padding d sign hsign found hfound
    obtain ⟨q, hquantity, rfl⟩ := Option.map_eq_some_iff.1 hfound
    have hd := isChar_of_quantity? hquantity
    refine ⟨?_, rfl⟩
    exact isClean_cons.2 ⟨by decide, isClean_cons.2 ⟨hsign, isClean_cons.2 ⟨hd, isClean_nil⟩⟩⟩
  have fixed : ∀ {read : List Char} {items : List Item}, IsClean read →
      items.all Item.isClean = true → ∀ found, some items = some found →
        IsClean read ∧ found.all Item.isClean = true := by
    rintro read items hread hitems _ ⟨⟩
    exact ⟨hread, hitems⟩
  fun_induction ofText? text generalizing items with
  | case1 =>
    cases h
    simp
  | case2 d text ih => exact literal_mem_prepend_iff hc ['%', '-', d] (padded (by decide)) ih h
  | case3 d text ih => exact literal_mem_prepend_iff hc ['%', '0', d] (padded (by decide)) ih h
  | case4 d text ih => exact literal_mem_prepend_iff hc ['%', '_', d] (padded (by decide)) ih h
  | case5 text ih => exact literal_mem_prepend_iff hc ['%', '#', 'z'] (fixed (by decide) rfl) ih h
  | case6 text ih => exact literal_mem_prepend_iff hc ['%', ':', 'z'] (fixed (by decide) rfl) ih h
  | case7 text ih =>
    exact literal_mem_prepend_iff hc ['%', ':', ':', 'z'] (fixed (by decide) rfl) ih h
  | case8 text ih =>
    exact literal_mem_prepend_iff hc ['%', ':', ':', ':', 'z'] (fixed (by decide) rfl) ih h
  | case9 text ih => exact literal_mem_prepend_iff hc ['%', '.', 'f'] (fixed (by decide) rfl) ih h
  | case10 text ih =>
    exact literal_mem_prepend_iff hc ['%', '.', '3', 'f'] (fixed (by decide) rfl) ih h
  | case11 text ih =>
    exact literal_mem_prepend_iff hc ['%', '.', '6', 'f'] (fixed (by decide) rfl) ih h
  | case12 text ih =>
    exact literal_mem_prepend_iff hc ['%', '.', '9', 'f'] (fixed (by decide) rfl) ih h
  | case13 text ih => exact literal_mem_prepend_iff hc ['%', '3', 'f'] (fixed (by decide) rfl) ih h
  | case14 text ih => exact literal_mem_prepend_iff hc ['%', '6', 'f'] (fixed (by decide) rfl) ih h
  | case15 text ih => exact literal_mem_prepend_iff hc ['%', '9', 'f'] (fixed (by decide) rfl) ih h
  | case16 =>
    -- a letter behind a percent sign, which may stand for several items
    rename_i ih
    refine literal_mem_prepend_iff hc ['%', _] (fun found hfound => ?_) ih h
    obtain ⟨hd, hitems⟩ := clean_of_directive? hfound
    exact ⟨isClean_cons.2 ⟨by decide, isClean_cons.2 ⟨hd, isClean_nil⟩⟩, hitems⟩
  | case17 => cases h
  | case18 =>
    -- a literal is read as itself
    rename_i ih
    obtain ⟨_, later, ⟨⟩, hlater, rfl⟩ := prepend_eq_some_iff.1 h
    simp only [List.singleton_append, List.mem_cons, Item.literal.injEq, ih hlater]

/-! ## Token patterns

  Characters are counted in the directive form of the pieces, since a run that is a token holds
  other letters there than it is written with. -/

/-- A token is a letter that is allowed, and so is everything in its directive. -/
theorem clean_of_tokenDirective? {d : Char} {n : Nat} {directive : String}
    (h : tokenDirective? d n = some directive) : IsChar d ∧ IsClean directive.toList := by
  unfold tokenDirective? at h
  split at h
  all_goals cases h
  all_goals exact ⟨by decide, by decide⟩

/-- A run of a character that is not allowed is no token and stands for itself. -/
theorem mem_directives_run_iff (hc : ¬ IsChar c) {d : Char} {n : Nat} :
    c ∈ (Piece.run d n).directives ↔ c = d ∧ n ≠ 0 := by
  unfold Piece.directives
  dsimp only
  split
  · rename_i directive hdirective
    obtain ⟨hd, hclean⟩ := clean_of_tokenDirective? hdirective
    refine iff_of_false (hclean.notMem hc) ?_
    rintro ⟨rfl, _⟩
    exact hc hd
  · rw [List.mem_replicate, and_comm]

/-- A piece holds the character. -/
def Holds (c : Char) (pieces : List Piece) : Prop := ∃ piece ∈ pieces, c ∈ piece.directives

/-- The first piece holds the character, or a later one does. -/
theorem holds_cons_iff {piece : Piece} {pieces : List Piece} :
    Holds c (piece :: pieces) ↔ c ∈ piece.directives ∨ Holds c pieces := by
  simp [Holds]

/-- A character outside quotes is held by the run that it joins. -/
theorem holds_joinRun_iff (hc : ¬ IsChar c) {d : Char} {pieces : List Piece} :
    Holds c (joinRun d pieces) ↔ c = d ∨ Holds c pieces := by
  have hone : c ∈ (Piece.run d 1).directives ↔ c = d := by
    simp [mem_directives_run_iff hc]
  unfold joinRun
  split
  · rename_i e n rest
    split
    · -- the run is one longer and holds no more than before
      rename_i he
      subst e
      simp only [holds_cons_iff, mem_directives_run_iff hc]
      by_cases hd : c = d
      · simp [hd]
      · simp [hd]
    · rw [holds_cons_iff, hone]
  · rw [holds_cons_iff, hone]

/-- A character inside quotes is held by its span. -/
theorem holds_joinQuoted_iff {d : Char} {body : List Char} {rest : List Piece} :
    Holds c (joinQuoted d (.quoted body :: rest)) ↔ c = d ∨ Holds c (.quoted body :: rest) := by
  rw [joinQuoted, holds_cons_iff, holds_cons_iff, Piece.directives, Piece.directives,
    List.mem_cons, or_assoc]

/-- Inside quotes the first piece is a quoted one. -/
theorem piecesFrom_true (text : List Char) :
    ∃ body rest, piecesFrom true text = .quoted body :: rest := by
  induction text with
  | nil => exact ⟨[], [], rfl⟩
  | cons d text ih =>
    by_cases hquote : d = '\''
    · subst d
      exact ⟨[], piecesFrom false text, rfl⟩
    · obtain ⟨body, rest, hpieces⟩ := ih
      refine ⟨d :: body, rest, ?_⟩
      rw [piecesFrom, hpieces, joinQuoted]
      exact hquote

/-- The pieces of a text hold its characters, but for quotes.  Quotes are allowed characters, so
    the loss does not matter. -/
theorem holds_piecesFrom_iff (hc : ¬ IsChar c) {inside : Bool} {text : List Char} :
    Holds c (piecesFrom inside text) ↔ c ∈ text := by
  have hquote : c ≠ '\'' := ne_of_isChar hc (by decide)
  fun_induction piecesFrom inside text with
  | case1 => simp [Holds]
  | case2 text ih =>
    simp only [holds_cons_iff, ih, Piece.directives, List.mem_cons, List.not_mem_nil, or_false,
      hquote, false_or]
  | case3 text _ ih => simp only [ih, List.mem_cons, hquote, false_or]
  | case4 d text _ _ ih => simp only [holds_joinRun_iff hc, ih, List.mem_cons]
  | case5 => simp [Holds, Piece.directives]
  | case6 text ih =>
    simp only [holds_cons_iff, ih, Piece.directives, List.not_mem_nil, List.mem_cons, hquote,
      false_or]
  | case7 d text _ ih =>
    obtain ⟨body, rest, hpieces⟩ := piecesFrom_true text
    rw [hpieces] at ih ⊢
    simp only [holds_joinQuoted_iff, ih, List.mem_cons]

/-- The directive form of a pattern holds the characters that are not allowed as it is written,
    whether it is one already or is made of pieces. -/
theorem mem_directives_iff (hc : ¬ IsChar c) {text : List Char} :
    c ∈ directives text ↔ c ∈ text := by
  unfold directives
  split
  · exact Iff.rfl
  · rw [List.mem_flatMap]
    exact holds_piecesFrom_iff hc

end GanttChart.Pattern
