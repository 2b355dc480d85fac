/-
  What a token pattern shows.

  A pattern without a percent sign is rewritten: its tokens become directives, and the text that this
  gives is read once more.

  1. **Cuts.**  There is one way only to cut a text into pairs of quotes, quoted spans and maximal
     runs (`IsCutInto`), and `pieces` finds it (`isCutInto_iff`); by induction on the cut, with what
     stands behind a piece as the rest of the text.

  2. **Reading back.**  The second reading takes each piece for itself, for a directive ends where it
     is complete and no other piece holds a percent sign (`ofText?_flatMap_directives`).

  3. **Labels.**  So a label joins what the pieces show one by one (`label_of_token_pattern`).

  The rewriting could go wrong in two ways: the letters of a piece could be taken for a part of a
  directive of the piece before, or a run could be cut short.  The first is excluded piece by piece in
  step 2, the second by the maximality of runs in step 1.
-/
import GanttChart.Proofs.Calendar.Label
import Mathlib.Data.List.Forall2

namespace GanttChart.Pattern

/-! ## Cuts

  A cut is a relation, not a function, so that it says nothing about how the pieces are found. -/

/-- The pieces that a text is cut into: two quotes in a row, a quoted span, of which only the last may
    lack its closing quote, and a run of one character that is as long as possible. -/
inductive IsCutInto : List Char → List Piece → Prop
  | nil : IsCutInto [] []
  | quote {text : List Char} {cut : List Piece} (rest : IsCutInto text cut) :
      IsCutInto ('\'' :: '\'' :: text) (.quote :: cut)
  | quoted {body text : List Char} {cut : List Piece} (hbody : '\'' ∉ body) (hne : body ≠ [])
      (rest : IsCutInto text cut) : IsCutInto ('\'' :: (body ++ '\'' :: text)) (.quoted body :: cut)
  | unclosed {body : List Char} (hbody : '\'' ∉ body) : IsCutInto ('\'' :: body) [.quoted body]
  | run {c : Char} {n : Nat} {text : List Char} {cut : List Piece} (hc : c ≠ '\'') (hn : n ≠ 0)
      (hmax : text.head? ≠ some c) (rest : IsCutInto text cut) :
      IsCutInto (List.replicate n c ++ text) (.run c n :: cut)

/-- A text begins with all the copies of a character that stand at its start, perhaps none. -/
theorem exists_run (c : Char) (text : List Char) :
    ∃ n rest, text = List.replicate n c ++ rest ∧ rest.head? ≠ some c := by
  induction text with
  | nil => exact ⟨0, [], rfl, by simp⟩
  | cons d text ih =>
    rcases eq_or_ne d c with rfl | hd
    · obtain ⟨n, rest, rfl, hmax⟩ := ih
      exact ⟨n + 1, rest, rfl, hmax⟩
    · exact ⟨0, d :: text, rfl, by simpa using hd⟩

/-- Every text can be cut.  The induction is on the length, for a piece may take any number of
    characters. -/
theorem exists_isCutInto (text : List Char) : ∃ cut, IsCutInto text cut := by
  induction hlength : text.length using Nat.strongRecOn generalizing text with
  | ind length ih =>
    cases text with
    | nil => exact ⟨[], .nil⟩
    | cons c text =>
      rw [List.length_cons] at hlength
      rcases eq_or_ne c '\'' with rfl | hc
      · -- a quote: a pair, a span that is closed, or one that goes on to the end
        by_cases hclosed : '\'' ∈ text
        · obtain ⟨body, rest, rfl, hbody⟩ := List.eq_append_cons_of_mem hclosed
          rw [List.length_append, List.length_cons] at hlength
          obtain ⟨cut, hcut⟩ := ih rest.length (by omega) rest rfl
          rcases eq_or_ne body [] with rfl | hne
          · exact ⟨_, .quote hcut⟩
          · exact ⟨_, .quoted hbody hne hcut⟩
        · exact ⟨_, .unclosed hclosed⟩
      · -- any other character: the run goes as far as it can
        obtain ⟨n, rest, rfl, hmax⟩ := exists_run c text
        rw [List.length_append] at hlength
        obtain ⟨cut, hcut⟩ := ih rest.length (by omega) rest rfl
        exact ⟨_, .run hc n.succ_ne_zero hmax hcut⟩

/-! ## The pieces of a text

  The function reads character by character and lets each one join the piece behind it; a cut
  speaks of whole pieces.  One lemma for each kind of piece says what the function makes of it. -/

/-- A quote that is not followed by another opens a span. -/
theorem piecesFrom_open {text : List Char} (h : text.head? ≠ some '\'') :
    piecesFrom false ('\'' :: text) = piecesFrom true text := by
  cases text with
  | nil => rfl
  | cons c text =>
    have hc : c ≠ '\'' := fun hc => h (congrArg some hc)
    rw [piecesFrom]
    rintro _ ⟨⟩
    exact hc rfl

/-- Inside quotes everything up to the closing quote is the body of a span. -/
theorem piecesFrom_closed {body : List Char} (hbody : '\'' ∉ body) (text : List Char) :
    piecesFrom true (body ++ '\'' :: text) = .quoted body :: piecesFrom false text := by
  induction body with
  | nil => rfl
  | cons c body ih =>
    rw [List.cons_append, piecesFrom, ih (List.not_mem_of_not_mem_cons hbody), joinQuoted]
    exact Ne.symm (List.ne_of_not_mem_cons hbody)

/-- Without a closing quote the span goes on to the end. -/
theorem piecesFrom_unclosed {body : List Char} (hbody : '\'' ∉ body) :
    piecesFrom true body = [.quoted body] := by
  induction body with
  | nil => rfl
  | cons c body ih =>
    rw [piecesFrom, ih (List.not_mem_of_not_mem_cons hbody), joinQuoted]
    exact Ne.symm (List.ne_of_not_mem_cons hbody)

/-- Outside quotes a character joins what is behind it. -/
theorem piecesFrom_cons {c : Char} (hc : c ≠ '\'') (text : List Char) :
    piecesFrom false (c :: text) = joinRun c (piecesFrom false text) := by
  rw [piecesFrom]
  · rintro _ rfl
    exact absurd rfl hc
  · exact hc

/-- Joining a character always leaves a run in front. -/
theorem exists_joinRun (c : Char) (later : List Piece) :
    ∃ n rest, joinRun c later = .run c n :: rest := by
  unfold joinRun
  split
  · split
    · exact ⟨_, _, rfl⟩
    · exact ⟨_, _, rfl⟩
  · exact ⟨_, _, rfl⟩

/-- A character joins the run behind it only if that is a run of its own. -/
theorem joinRun_of_ne {c : Char} {later : List Piece} (h : ∀ n rest, later ≠ .run c n :: rest) :
    joinRun c later = .run c 1 :: later := by
  unfold joinRun
  split
  · rename_i d n rest
    have hd : d ≠ c := by
      rintro rfl
      exact h n rest rfl
    rw [if_neg hd]
  · rfl

/-- Where the pieces begin with a run, the text begins with its character. -/
theorem head?_of_piecesFrom_run {c : Char} {n : Nat} {text : List Char} {rest : List Piece}
    (h : piecesFrom false text = .run c n :: rest) : text.head? = some c := by
  cases text with
  | nil => cases h
  | cons d text =>
    rcases eq_or_ne d '\'' with rfl | hd
    · by_cases hpair : text.head? = some '\''
      · obtain ⟨text, rfl⟩ := List.head?_eq_some_iff.1 hpair
        cases h
      · obtain ⟨body, later, hspan⟩ := piecesFrom_true text
        rw [piecesFrom_open hpair, hspan] at h
        cases h
    · obtain ⟨n, later, hrun⟩ := exists_joinRun d (piecesFrom false text)
      rw [piecesFrom_cons hd, hrun] at h
      cases h
      rfl

/-- A run that is as long as possible is one piece. -/
theorem piecesFrom_run {c : Char} {n : Nat} {text : List Char} (hc : c ≠ '\'') (hn : n ≠ 0)
    (hmax : text.head? ≠ some c) :
    piecesFrom false (List.replicate n c ++ text) = .run c n :: piecesFrom false text := by
  induction n with
  | zero => exact absurd rfl hn
  | succ n ih =>
    rw [List.replicate_succ, List.cons_append, piecesFrom_cons hc]
    rcases eq_or_ne n 0 with rfl | hn
    · -- the last copy: the pieces behind it begin with no run of the character, or the run was not
      -- maximal
      have hother : ∀ n rest, piecesFrom false text ≠ .run c n :: rest :=
        fun _ _ h => hmax (head?_of_piecesFrom_run h)
      exact joinRun_of_ne hother
    · rw [ih hn, joinRun, if_pos rfl]

/-- A cut is the one that the function finds. -/
theorem IsCutInto.pieces_eq {text : List Char} {cut : List Piece} (h : IsCutInto text cut) :
    pieces text = cut := by
  induction h with
  | nil => rfl
  | quote _ ih => exact congrArg (Piece.quote :: ·) ih
  | @quoted body text cut hbody hne _ ih =>
    have hopen : (body ++ '\'' :: text).head? ≠ some '\'' := by
      rw [List.head?_append_of_ne_nil _ hne]
      exact fun h => hbody (List.mem_of_mem_head? h)
    rw [pieces, piecesFrom_open hopen, piecesFrom_closed hbody]
    exact congrArg (Piece.quoted body :: ·) ih
  | @unclosed body hbody =>
    have hopen : body.head? ≠ some '\'' := fun h => hbody (List.mem_of_mem_head? h)
    rw [pieces, piecesFrom_open hopen, piecesFrom_unclosed hbody]
  | @run c n text cut hc hn hmax _ ih =>
    rw [pieces, piecesFrom_run hc hn hmax]
    exact congrArg (Piece.run c n :: ·) ih

/-- **The pieces of a text** are the only ones that it can be cut into. -/
theorem isCutInto_iff {text : List Char} {cut : List Piece} :
    IsCutInto text cut ↔ cut = pieces text := by
  constructor
  · intro h
    exact h.pieces_eq.symm
  · rintro rfl
    obtain ⟨cut, hcut⟩ := exists_isCutInto text
    rw [hcut.pieces_eq]
    exact hcut

/-! ## Tokens -/

/-- The field that a token shows; it is what the directive of the token is read as
    (`ofText?_tokenDirective`). -/
def tokenField? (c : Char) (length : Nat) : Option Item :=
  match c, length with
  | 'y', 1 => some (.quantity .year .zero)
  | 'y', 2 => some (.quantity .yearOfCentury .zero)
  | 'y', 4 => some (.quantity .year .zero)
  | 'M', 1 => some (.quantity .month .none)
  | 'M', 2 => some (.quantity .month .zero)
  | 'M', 3 => some (.name .monthShort)
  | 'M', 4 => some (.name .month)
  | 'd', 1 => some (.quantity .day .none)
  | 'd', 2 => some (.quantity .day .zero)
  | 'E', 3 => some (.name .weekdayShort)
  | 'E', 4 => some (.name .weekday)
  | 'H', 1 => some (.quantity .hour .none)
  | 'H', 2 => some (.quantity .hour .zero)
  | 'h', 1 => some (.quantity .hourOfTwelve .none)
  | 'h', 2 => some (.quantity .hourOfTwelve .zero)
  | 'm', 1 => some (.quantity .minute .none)
  | 'm', 2 => some (.quantity .minute .zero)
  | 's', 1 => some (.quantity .second .none)
  | 's', 2 => some (.quantity .second .zero)
  | 'a', 1 => some (.name .meridiem)
  | _, _ => none

/-- The directive of a token is read as its field, whatever follows. -/
theorem ofText?_tokenDirective {c : Char} {n : Nat} {directive : String}
    (h : tokenDirective? c n = some directive) :
    ∃ field, tokenField? c n = some field ∧
      ∀ text, ofText? (directive.toList ++ text) = prepend (some [field]) (ofText? text) := by
  unfold tokenDirective? at h
  split at h
  all_goals cases h
  all_goals exact ⟨_, rfl, fun _ => rfl⟩

/-- What is no token has no field. -/
theorem tokenField?_eq_none {c : Char} {n : Nat} (h : tokenDirective? c n = none) :
    tokenField? c n = none := by
  unfold tokenField?
  split
  any_goals cases h
  rfl

/-- Every instant has what a token shows. -/
theorem exists_text_of_tokenField {c : Char} {n : Nat} {field : Item}
    (h : tokenField? c n = some field) (t : Instant) :
    field.isField = true ∧ ∃ text, field.text? t = some text := by
  unfold tokenField? at h
  split at h
  all_goals cases h
  all_goals exact ⟨rfl, _, rfl⟩

/-! ## Reading back -/

/-- The items of a piece: a token is a field, and every other piece is literal. -/
def Piece.items : Piece → List Item
  | .quote => [.literal '\'']
  | .quoted body => body.map .literal
  | .run c n =>
    match tokenField? c n with
    | some field => [field]
    | none => List.replicate n (.literal c)

/-- Characters other than the percent sign are read as themselves, whatever follows. -/
theorem ofText?_literals {body : List Char} (h : '%' ∉ body) (text : List Char) :
    ofText? (body ++ text) = prepend (some (body.map .literal)) (ofText? text) := by
  induction body with
  | nil =>
    rw [List.nil_append, List.map_nil]
    cases hrest : ofText? text with
    | none => rfl
    | some items => rfl
  | cons c body ih =>
    have hc : c ≠ '%' := Ne.symm (List.ne_of_not_mem_cons h)
    rw [List.cons_append, ofText?, ih (List.not_mem_of_not_mem_cons h)]
    · cases ofText? text <;> simp [prepend]
    all_goals simp [hc]

/-- A run is read for itself, whatever follows. -/
theorem ofText?_run {c : Char} (hc : c ≠ '%') (n : Nat) (text : List Char) :
    ofText? ((Piece.run c n).directives ++ text) =
      prepend (some (Piece.run c n).items) (ofText? text) := by
  cases hdirective : tokenDirective? c n with
  | some directive =>
    obtain ⟨field, hfield, hread⟩ := ofText?_tokenDirective hdirective
    simp only [Piece.directives, Piece.items, hdirective, hfield, hread]
  | none =>
    have hfield := tokenField?_eq_none hdirective
    have hrun : '%' ∉ List.replicate n c := fun h => hc (List.eq_of_mem_replicate h).symm
    simp only [Piece.directives, Piece.items, hdirective, hfield, ofText?_literals hrun,
      List.map_replicate]

/-- **The second reading** takes each piece for itself.  By induction on the cut: the piece in
    front is read for itself whatever follows, and the rest of the text holds no percent sign
    either. -/
theorem ofText?_flatMap_directives {text : List Char} {cut : List Piece} (h : IsCutInto text cut)
    (hpercent : '%' ∉ text) :
    ofText? (cut.flatMap Piece.directives) = some (cut.flatMap Piece.items) := by
  induction h with
  | nil => rfl
  | quote _ ih =>
    have hrest := ih fun hmem => hpercent (by simp [hmem])
    rw [List.flatMap_cons, Piece.directives, ofText?_literals (by decide), hrest]
    rfl
  | quoted _ _ _ ih =>
    have hrest := ih fun hmem => hpercent (by simp [hmem])
    rw [List.flatMap_cons, Piece.directives, ofText?_literals, hrest]
    · rfl
    · exact fun hmem => hpercent (by simp [hmem])
  | unclosed _ =>
    rw [List.flatMap_cons, Piece.directives, ofText?_literals]
    · rfl
    · exact fun hmem => hpercent (by simp [hmem])
  | @run c n text cut _ hn _ _ ih =>
    have hc : c ≠ '%' := by
      rintro rfl
      exact hpercent (by simp [hn])
    have hrest := ih fun hmem => hpercent (by simp [hmem])
    rw [List.flatMap_cons, ofText?_run hc, hrest]
    rfl

/-! ## Labels -/

/-- What a piece shows of an instant. -/
inductive Piece.Shows (t : Instant) : Piece → List Char → Prop
  | quote : Shows t .quote ['\'']
  | quoted (body : List Char) : Shows t (.quoted body) body
  | token {c : Char} {n : Nat} {field : Item} {text : List Char}
      (hfield : tokenField? c n = some field) (htext : field.text? t = some text) :
      Shows t (.run c n) text
  | other {c : Char} {n : Nat} (hnone : tokenField? c n = none) :
      Shows t (.run c n) (List.replicate n c)

/-- The piece is a token. -/
def Piece.isToken : Piece → Bool
  | .run c n => (tokenField? c n).isSome
  | _ => false

/-- Literals are shown as they are. -/
theorem label?_literals (t : Instant) (body : List Char) :
    label? t (body.map .literal) = some body := by
  induction body with
  | nil => rfl
  | cons c body ih => simp [label?, Item.text?, ih]

/-- A label of items in two parts is the two labels in a row. -/
theorem label?_append {t : Instant} {front back : List Item} {first rest : List Char}
    (hfront : label? t front = some first) (hback : label? t back = some rest) :
    label? t (front ++ back) = some (first ++ rest) := by
  induction front generalizing first with
  | nil =>
    cases hfront
    exact hback
  | cons item front ih =>
    rw [label?] at hfront
    cases hitem : item.text? t with
    | none => simp [hitem] at hfront
    | some text =>
      cases hmore : label? t front with
      | none => simp [hitem, hmore] at hfront
      | some more =>
        simp only [hitem, hmore] at hfront
        cases hfront
        simp [label?, hitem, ih hmore]

/-- Of the pieces only tokens show something of an instant. -/
theorem any_isField_items (piece : Piece) : piece.items.any Item.isField = piece.isToken := by
  cases piece with
  | quote => rfl
  | quoted body => simp [Piece.items, Piece.isToken, Item.isField]
  | run c n =>
    cases hfield : tokenField? c n with
    | none => simp [Piece.items, Piece.isToken, Item.isField, hfield]
    | some field =>
      obtain ⟨hisField, _⟩ := exists_text_of_tokenField hfield default
      simp [Piece.items, Piece.isToken, hfield, hisField]

/-- What a piece shows is the label of its items. -/
theorem Piece.exists_shows (t : Instant) (piece : Piece) :
    ∃ text, piece.Shows t text ∧ label? t piece.items = some text := by
  cases piece with
  | quote => exact ⟨_, .quote, rfl⟩
  | quoted body => exact ⟨_, .quoted body, label?_literals t body⟩
  | run c n =>
    cases hfield : tokenField? c n with
    | none =>
      refine ⟨_, .other hfield, ?_⟩
      simp only [items, hfield, ← List.map_replicate, label?_literals]
    | some field =>
      obtain ⟨_, text, htext⟩ := exists_text_of_tokenField hfield t
      refine ⟨text, .token hfield htext, ?_⟩
      simp [items, hfield, label?, htext]

/-- The label of the pieces' items joins what the pieces show. -/
theorem exists_label_flatMap_items (t : Instant) (cut : List Piece) :
    ∃ shown, List.Forall₂ (Piece.Shows t) cut shown ∧
      label? t (cut.flatMap Piece.items) = some shown.flatten := by
  induction cut with
  | nil => exact ⟨[], .nil, rfl⟩
  | cons piece cut ih =>
    obtain ⟨text, hshows, htext⟩ := piece.exists_shows t
    obtain ⟨shown, hall, hlabel⟩ := ih
    exact ⟨text :: shown, .cons hshows hall, label?_append htext hlabel⟩

/-- **What a token pattern shows.**  A text without a percent sign can be cut in one way.  It is
    no pattern exactly if none of the pieces is a token; otherwise the label of every instant is
    what the pieces show, one after the other.  Reading the directives gives the items of the
    pieces, and of these only tokens are fields. -/
theorem label_of_token_pattern {text : List Char} (hpercent : '%' ∉ text) :
    ∃ cut, (∀ other, IsCutInto text other ↔ other = cut) ∧
      (fieldsOfText? (directives text) = none ↔ ∀ piece ∈ cut, piece.isToken = false) ∧
      ∀ items, fieldsOfText? (directives text) = some items → ∀ t : Instant,
        ∃ shown, List.Forall₂ (Piece.Shows t) cut shown ∧
          label? t items = some shown.flatten := by
  have hcut : IsCutInto text (pieces text) := isCutInto_iff.2 rfl
  have hread : ofText? (directives text) = some ((pieces text).flatMap Piece.items) := by
    rw [directives, if_neg hpercent]
    exact ofText?_flatMap_directives hcut hpercent
  refine ⟨pieces text, fun other => isCutInto_iff, ?_, ?_⟩
  · rw [fieldsOfText?, hread, Option.filter_some, ite_eq_right_iff, List.any_flatMap]
    simp only [any_isField_items, reduceCtorEq, imp_false, List.any_eq_true, not_exists, not_and,
      Bool.not_eq_true]
  · intro items hitems t
    rw [fieldsOfText?, hread] at hitems
    obtain ⟨hitems, _⟩ := Option.filter_eq_some_iff.1 hitems
    cases hitems
    exact exists_label_flatMap_items t (pieces text)

/-- Runs that are one letter too short, a pair of quotes, and a quote that is never closed. -/
theorem label_of_token_pattern_unclosed :
    '%' ∉ "d''MMM 'de' yyyQ'x".toList ∧
      ∃ items, fieldsOfText? (directives "d''MMM 'de' yyyQ'x".toList) = some items ∧
        ∀ t : Instant, ∃ shown,
          List.Forall₂ (Piece.Shows t)
            [.run 'd' 1, .quote, .run 'M' 3, .run ' ' 1, .quoted ['d', 'e'], .run ' ' 1, .run 'y' 3,
              .run 'Q' 1, .quoted ['x']] shown ∧
          label? t items = some shown.flatten := by
  have hpercent : '%' ∉ "d''MMM 'de' yyyQ'x".toList := by decide
  obtain ⟨cut, hcut, _, hlabel⟩ := label_of_token_pattern hpercent
  have hpieces : cut = pieces "d''MMM 'de' yyyQ'x".toList :=
    ((hcut _).1 (isCutInto_iff.2 rfl)).symm
  have hsome : (fieldsOfText? (directives "d''MMM 'de' yyyQ'x".toList)).isSome = true := by decide
  obtain ⟨items, hitems⟩ := Option.isSome_iff_exists.1 hsome
  refine ⟨hpercent, items, hitems, fun t => ?_⟩
  have hshown := hlabel items hitems t
  rw [hpieces] at hshown
  exact hshown

end GanttChart.Pattern
