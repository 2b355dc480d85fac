/-
  Fields of literals.

  A literal is a row of numbers with marks between them.  This file says for each kind of number what
  texts are read as one, and that the text determines how it is taken apart:

  1. `Field`      one or two digits, possibly behind blanks (`shortNumber?_eq_some_iff`);
  2. `YearField`  digits behind a sign, or at most four without one (`year?_eq_some_iff`);
  3. `pointed`    a fraction of a second: a point and digits, or nothing;
  4. `IsZone`     a zone, which begins with no character that a time could go on with.

  For each of the first three there are two facts.  The reader takes the field and leaves the rest
  exactly if the text is that of a field in front of the rest.  And a text begins with at most one
  field, given that the rest does not go on with it (`append_inj`); that is what makes the forms of
  literals unambiguous.
-/
import GanttChart.Calendar.Literal
import GanttChart.Proofs.Text.Digits
import GanttChart.Proofs.Text.Trim

namespace GanttChart.Literal

open GanttChart.Text GanttChart.Text.Digits

variable {s r r' digits : List Char} {n : Nat}

/-- A mark is taken off exactly where it stands. -/
theorem char?_eq_some_iff {c : Char} : char? c s = some r ↔ s = c :: r := by
  cases s with
  | nil => exact iff_of_false nofun nofun
  | cons d s =>
    rw [char?, List.cons.injEq]
    split
    · rename_i hd
      rw [Option.some.injEq, hd]
      exact (and_iff_right rfl).symm
    · rename_i hd
      exact iff_of_false nofun fun h => hd h.1

/-- A text that begins with digits does not begin with blanks. -/
theorem trimStart_digits_append (hdigits : ∀ c ∈ digits, c.isDigit = true)
    (hpos : 0 < digits.length) (r : List Char) : trimStart (digits ++ r) = digits ++ r := by
  obtain ⟨c, later, rfl⟩ := List.exists_cons_of_length_pos hpos
  refine trimStart_eq_self fun d hd => ?_
  cases hd
  exact isBlank_of_isDigit (hdigits c List.mem_cons_self)

/-! ## Short numbers -/

/-- One or two digits and the blanks in front of them. -/
@[ext]
structure Field where
  margin : List Char
  digits : List Char
  isBlank_margin : ∀ c ∈ margin, isBlank c = true
  isDigit_digits : ∀ c ∈ digits, c.isDigit = true
  length_pos : 0 < digits.length
  length_le : digits.length ≤ 2

namespace Field

variable {f g : Field}

/-- The text of the field. -/
def text (f : Field) : List Char := f.margin ++ f.digits

/-- The number. -/
def value (f : Field) : Nat := Digits.value f.digits

/-- The field ends where the rest of the text begins. -/
def Ends (f : Field) (r : List Char) : Prop := f.digits.length = 2 ∨ NoDigit r

/-- Dropping blanks leaves the digits, the first of which is none. -/
theorem trimStart_text_append (f : Field) (r : List Char) :
    trimStart (f.text ++ r) = f.digits ++ r := by
  rw [text, List.append_assoc, trimStart_append_of_blank f.isBlank_margin,
    trimStart_digits_append f.isDigit_digits f.length_pos]

/-- A field ends in a digit, so no blank at the end is lost by trimming. -/
theorem endsSolid_text (f : Field) : EndsSolid f.text := by
  have hdigits : EndsSolid f.digits := endsSolid_of_forall (List.ne_nil_of_length_pos f.length_pos)
    fun c hc => isBlank_of_isDigit (f.isDigit_digits c hc)
  exact hdigits.append_left f.margin

/-- The text determines the field that it begins with: behind the blanks stand the digits, two of
    them or as many as there are, and the margin is what stands before. -/
theorem append_inj (hf : f.Ends r) (hg : g.Ends r') (h : f.text ++ r = g.text ++ r') :
    f = g ∧ r = r' := by
  have hback : f.digits ++ r = g.digits ++ r' := by
    rw [← f.trimStart_text_append, h, g.trimStart_text_append]
  have hdigits : f.digits = g.digits := by
    rw [← takeWhile_take_append f.isDigit_digits f.length_le hf, hback,
      takeWhile_take_append g.isDigit_digits g.length_le hg]
  have hrest : r = r' := List.append_cancel_left (hdigits ▸ hback)
  have hmargin : f.margin = g.margin := by
    rw [text, text, hdigits, hrest] at h
    exact List.append_cancel_right (List.append_cancel_right h)
  exact ⟨Field.ext hmargin hdigits, hrest⟩

end Field

/-- **Short numbers are fields**: the reader takes blanks and one or two digits, as many as there
    are. -/
theorem shortNumber?_eq_some_iff :
    shortNumber? s = some (n, r) ↔
      ∃ f : Field, s = f.text ++ r ∧ n = f.value ∧ f.Ends r := by
  show take? 1 2 (trimStart s) = some (n, r) ↔ _
  rw [take?_eq_some_iff]
  constructor
  · rintro ⟨digits, hs, hvalue, hdigits, hpos, hle, hend⟩
    refine ⟨⟨s.takeWhile isBlank, digits, fun c hc => List.mem_takeWhile_imp hc, hdigits, hpos, hle⟩,
      ?_, hvalue, hend⟩
    -- the blanks that were dropped are the margin
    show s = s.takeWhile isBlank ++ digits ++ r
    rw [List.append_assoc, ← hs]
    exact List.takeWhile_append_dropWhile.symm
  · rintro ⟨f, rfl, rfl, hend⟩
    exact ⟨f.digits, f.trimStart_text_append r, rfl, f.isDigit_digits, f.length_pos, f.length_le,
      hend⟩

/-! ## Years

  A sign is never a digit, so the first character tells whether there is one. -/

/-- The digits of a year and its sign, if it has one. -/
@[ext]
structure YearField where
  sign : List Char
  digits : List Char
  sign_cases : sign = [] ∨ sign = ['+'] ∨ sign = ['-']
  isDigit_digits : ∀ c ∈ digits, c.isDigit = true
  length_pos : 0 < digits.length

namespace YearField

variable {y z : YearField}

/-- The text of the year. -/
def text (y : YearField) : List Char := y.sign ++ y.digits

/-- The year. -/
def value (y : YearField) : Int :=
  if y.sign = ['-'] then -(Digits.value y.digits : Int) else Digits.value y.digits

/-- Without a sign the text begins with a digit, and with one it does not. -/
theorem head?_text_append (y : YearField) (r : List Char) :
    ∃ c, (y.text ++ r).head? = some c ∧ y.sign = if c.isDigit then [] else [c] := by
  obtain ⟨c, later, hc⟩ := List.exists_cons_of_length_pos y.length_pos
  have hdigit : c.isDigit = true := y.isDigit_digits c (by rw [hc]; exact List.mem_cons_self)
  show ∃ c, (y.sign ++ y.digits ++ r).head? = some c ∧ y.sign = if c.isDigit then [] else [c]
  rcases y.sign_cases with hsign | hsign | hsign
  · exact ⟨c, by rw [hsign, hc]; rfl, by rw [hsign, hdigit]; rfl⟩
  · exact ⟨'+', by rw [hsign]; rfl, hsign⟩
  · exact ⟨'-', by rw [hsign]; rfl, hsign⟩

/-- The text determines the year that it begins with: its first character tells the sign, and the
    digits go on to the first character that is none. -/
theorem append_inj (hr : NoDigit r) (hr' : NoDigit r') (h : y.text ++ r = z.text ++ r') :
    y = z ∧ r = r' := by
  have hsign : y.sign = z.sign := by
    obtain ⟨c, hc, hy⟩ := y.head?_text_append r
    obtain ⟨d, hd, hz⟩ := z.head?_text_append r'
    have hcd : some c = some d := hc.symm.trans (h ▸ hd)
    rw [hy, hz, Option.some.inj hcd]
  have hback : y.digits ++ r = z.digits ++ r' := by
    rw [text, text, hsign, List.append_assoc, List.append_assoc] at h
    exact List.append_cancel_left h
  have hdigits : y.digits = z.digits := by
    have hwhole := congrArg (List.takeWhile Char.isDigit) hback
    rwa [List.takeWhile_append_of_pos y.isDigit_digits, takeWhile_of_noDigit hr,
      List.takeWhile_append_of_pos z.isDigit_digits, takeWhile_of_noDigit hr', List.append_nil,
      List.append_nil] at hwhole
  exact ⟨YearField.ext hsign hdigits, List.append_cancel_left (hdigits ▸ hback)⟩

end YearField

/-- **Years are year fields.**  Behind a sign all digits are taken; without one at most four are,
    so a fifth digit would be left in front of the hyphen. -/
theorem year?_eq_some_iff (htrim : trimStart s = s) {year : Int} :
    year? s = some (year, '-' :: r) ↔
      ∃ y : YearField, s = y.text ++ '-' :: r ∧ year = y.value ∧
        (y.sign = [] → y.digits.length ≤ 4) := by
  have hmark : NoDigit ('-' :: r) := noDigit_cons rfl r
  unfold year?
  rw [htrim]
  constructor
  · intro h
    split at h
    all_goals
      obtain ⟨⟨n, later⟩, hn, hpair⟩ := Option.map_eq_some_iff.1 h
      cases hpair
      obtain ⟨digits, hs, rfl, hdigits, hpos, hle, -⟩ := take?_eq_some_iff.1 hn
    · exact ⟨⟨['-'], digits, .inr (.inr rfl), hdigits, hpos⟩, by rw [hs]; rfl, rfl, nofun⟩
    · exact ⟨⟨['+'], digits, .inr (.inl rfl), hdigits, hpos⟩, by rw [hs]; rfl, rfl, nofun⟩
    · exact ⟨⟨[], digits, .inl rfl, hdigits, hpos⟩, hs, rfl, fun _ => hle⟩
  · rintro ⟨y, rfl, rfl, hfour⟩
    -- the digits are taken whatever the bound, if they keep it
    have hall : ∀ high, y.digits.length ≤ high → take? 1 high (y.digits ++ '-' :: r) =
        some (Digits.value y.digits, '-' :: r) := fun high hle =>
      take?_eq_some_iff.2 ⟨_, rfl, rfl, y.isDigit_digits, y.length_pos, hle, .inr hmark⟩
    have hlong := hall (y.digits ++ '-' :: r).length (by rw [List.length_append]; omega)
    unfold YearField.value YearField.text
    rcases y.sign_cases with hsign | hsign | hsign
    · -- digits are no sign
      obtain ⟨c, later, hc⟩ := List.exists_cons_of_length_pos y.length_pos
      have hdigit : c.isDigit = true := y.isDigit_digits c (by rw [hc]; exact List.mem_cons_self)
      rw [hsign, List.nil_append]
      split
      · rename_i heq
        rw [hc] at heq
        cases (List.cons.inj heq).1
        cases hdigit
      · rename_i heq
        rw [hc] at heq
        cases (List.cons.inj heq).1
        cases hdigit
      · exact Option.map_eq_some_iff.2 ⟨_, hall 4 (hfour hsign), rfl⟩
    · rw [hsign]
      exact Option.map_eq_some_iff.2 ⟨_, hlong, rfl⟩
    · rw [hsign]
      exact Option.map_eq_some_iff.2 ⟨_, hlong, rfl⟩

/-! ## Fractions -/

/-- What stands behind a time, if anything, is no part of it. -/
def Stops (r : List Char) : Prop :=
  ∀ c, r.head? = some c → c.isDigit = false ∧ c ≠ '.' ∧ c ≠ ':'

/-- The end of a text stops a time. -/
theorem stops_nil : Stops [] := nofun

/-- What stops a time begins with no digit. -/
theorem Stops.noDigit (h : Stops r) : NoDigit r := fun c hc => (h c hc).1

/-- A point and digits, or nothing. -/
def pointed : (digits : List Char) → List Char
  | [] => []
  | c :: digits => '.' :: c :: digits

/-- The nanoseconds of the digits of a fraction, of which the first nine count. -/
def nanoseconds (digits : List Char) : Nat :=
  Digits.value (digits.take 9) * 10 ^ (9 - (digits.take 9).length)

/-- The digits of a fraction are taken as far as they go, and the first nine make its value. -/
theorem nanoseconds?_eq_some_iff :
    nanoseconds? s = some (n, r) ↔
      ∃ digits, s = digits ++ r ∧ n = nanoseconds digits ∧ (∀ c ∈ digits, c.isDigit = true) ∧
        digits ≠ [] ∧ NoDigit r := by
  unfold nanoseconds?
  dsimp only
  constructor
  · intro h
    split at h
    · cases h
    · rename_i hne
      cases h
      have hs := List.prefix_iff_eq_append.1 (List.takeWhile_prefix (l := s) Char.isDigit)
      have hdrop : s.drop (s.takeWhile Char.isDigit).length = s.dropWhile Char.isDigit :=
        List.append_cancel_left (hs.trans List.takeWhile_append_dropWhile.symm)
      refine ⟨s.takeWhile Char.isDigit, hs.symm, rfl, fun c hc => List.mem_takeWhile_imp hc,
        fun hnil => hne (List.isEmpty_iff.2 hnil), ?_⟩
      -- what the digits are followed by is no digit, for they were taken as far as they go
      intro c hc
      have hnot := List.head?_dropWhile_not Char.isDigit s
      rw [← hdrop, hc] at hnot
      simpa using hnot
  · rintro ⟨digits, rfl, rfl, hdigits, hne, hend⟩
    have hwhile : (digits ++ r).takeWhile Char.isDigit = digits := by
      rw [List.takeWhile_append_of_pos hdigits, takeWhile_of_noDigit hend, List.append_nil]
    have hempty : digits.isEmpty = false := List.isEmpty_eq_false_iff.2 hne
    rw [hwhile, hempty, if_neg Bool.false_ne_true, List.drop_left]
    rfl

/-- **Fractions** are a point and digits, or nothing, if no point follows. -/
theorem fraction?_eq_some_iff (hr : Stops r) :
    fraction? s = some (n, r) ↔
      ∃ digits, s = pointed digits ++ r ∧ n = nanoseconds digits ∧
        ∀ c ∈ digits, c.isDigit = true := by
  constructor
  · intro h
    unfold fraction? at h
    split at h
    · obtain ⟨digits, rfl, hn, hdigits, hne, -⟩ := nanoseconds?_eq_some_iff.1 h
      obtain ⟨c, later, rfl⟩ := List.exists_cons_of_ne_nil hne
      exact ⟨c :: later, rfl, hn, hdigits⟩
    · cases h
      exact ⟨[], rfl, rfl, nofun⟩
  · rintro ⟨digits, rfl, rfl, hdigits⟩
    cases digits with
    | nil =>
      -- nothing is taken, for the rest begins with no point
      show fraction? r = some (0, r)
      unfold fraction?
      split
      · exact absurd rfl (hr '.' rfl).2.1
      · rfl
    | cons c digits =>
      exact nanoseconds?_eq_some_iff.2 ⟨c :: digits, rfl, rfl, hdigits, nofun, hr.noDigit⟩

/-- The text determines the fraction that it begins with: a point tells whether there is one, and
    its digits go on to the first character that is none. -/
theorem pointed_append_inj {other : List Char} (hr : Stops r) (hr' : Stops r')
    (hdigits : ∀ c ∈ digits, c.isDigit = true) (hother : ∀ c ∈ other, c.isDigit = true)
    (h : pointed digits ++ r = pointed other ++ r') : digits = other ∧ r = r' := by
  have hpoint : ∀ {c : Char} {later rest rest' : List Char}, Stops rest →
      rest ≠ pointed (c :: later) ++ rest' := by
    rintro c later rest rest' hstops rfl
    exact (hstops '.' rfl).2.1 rfl
  cases digits with
  | nil =>
    cases other with
    | nil => exact ⟨rfl, h⟩
    | cons d other => exact absurd h (hpoint hr)
  | cons c digits =>
    cases other with
    | nil => exact absurd h.symm (hpoint hr')
    | cons d other =>
      have hback : c :: digits ++ r = d :: other ++ r' := (List.cons.inj h).2
      have hwhole := congrArg (List.takeWhile Char.isDigit) hback
      rw [List.takeWhile_append_of_pos hdigits, takeWhile_of_noDigit hr.noDigit,
        List.takeWhile_append_of_pos hother, takeWhile_of_noDigit hr'.noDigit, List.append_nil,
        List.append_nil] at hwhole
      exact ⟨hwhole, List.append_cancel_left (hwhole ▸ hback)⟩

/-! ## Zones -/

/-- A whole text that is a zone. -/
def IsZone (zone : List Char) : Prop := ∃ ahead, offset? zone = some (ahead, [])

/-- A zone is a letter, or a sign and four digits with a colon between them. -/
theorem IsZone.cases {zone : List Char} (h : IsZone zone) :
    (∃ c, zone = [c] ∧ (c = 'Z' ∨ c = 'z')) ∨
      ∃ c hour minute, zone = c :: (hour ++ ':' :: minute) ∧ (c = '+' ∨ c = '-' ∨ c = '\u2212') ∧
        (∀ d ∈ hour, d.isDigit = true) ∧ ∀ d ∈ minute, d.isDigit = true := by
  obtain ⟨ahead, h⟩ := h
  cases zone with
  | nil => cases h
  | cons c zone =>
    rw [offset?] at h
    split at h
    · rename_i hc
      cases h
      exact .inl ⟨c, rfl, hc⟩
    · -- a sign: two digits, a colon and two digits follow, and nothing behind them
      split at h
      · rename_i hc
        obtain ⟨⟨hour, rest⟩, hhour, h⟩ := Option.bind_eq_some_iff.1 h
        obtain ⟨rest', hcolon, h⟩ := Option.bind_eq_some_iff.1 h
        obtain ⟨⟨minute, rest''⟩, hminute, h⟩ := Option.bind_eq_some_iff.1 h
        dsimp only at h
        split at h
        · cases h
        · cases h
          obtain ⟨hours, rfl, -, hhours, -⟩ := take?_eq_some_iff.1 hhour
          obtain ⟨minutes, rfl, -, hminutes, -⟩ := take?_eq_some_iff.1 hminute
          rw [char?_eq_some_iff.1 hcolon, List.append_nil]
          exact .inr ⟨c, hours, minutes, rfl, hc, hhours, hminutes⟩
      · cases h

/-- No zone goes on with a time. -/
theorem IsZone.stops {zone : List Char} (h : IsZone zone) : Stops zone := by
  intro d hd
  rcases h.cases with ⟨c, rfl, hc⟩ | ⟨c, hour, minute, rfl, hc, -⟩
  · cases hd
    rcases hc with rfl | rfl <;> decide
  · cases hd
    rcases hc with rfl | rfl | rfl <;> decide

/-- No zone is empty. -/
theorem IsZone.ne_nil {zone : List Char} (h : IsZone zone) : zone ≠ [] := by
  rintro rfl
  obtain ⟨ahead, h⟩ := h
  cases h

/-- No zone holds a blank. -/
theorem IsZone.isBlank {zone : List Char} (h : IsZone zone) {d : Char} (hd : d ∈ zone) :
    isBlank d = false := by
  rcases h.cases with ⟨c, rfl, hc⟩ | ⟨c, hour, minute, rfl, hc, hhour, hminute⟩
  · cases List.mem_singleton.1 hd
    rcases hc with rfl | rfl <;> decide
  · simp only [List.mem_cons, List.mem_append] at hd
    rcases hd with rfl | hd | rfl | hd
    · rcases hc with rfl | rfl | rfl <;> decide
    · exact isBlank_of_isDigit (hhour d hd)
    · decide
    · exact isBlank_of_isDigit (hminute d hd)

end GanttChart.Literal
