/-
  Literals taken apart.

  A literal is a date, and possibly a time behind a separator and a zone behind the time.

  1. **Dates and times.**  What the readers of dates and of times take is exactly the text of some
     fields (`date?_eq_some_iff`, `seconds?_eq_some_iff`, `minutes?_eq_some_iff`).

  2. **Parts.**  The text of a literal determines its parts (`Parts.text_injective`): every field ends at
     a mark or at its second digit, and blanks between day and hour belong to the separator.

  A bundle of fields has a text and, possibly, a meaning.  The text is always there; the meaning is
  missing where the numbers are no day or no time.  Keeping the two apart lets the readers be compared
  with the texts first and the calendar come in at the end.

  `append_inj` stands for each bundle in turn: if two texts of that kind, each with something behind it,
  are equal, the bundles and what is behind them are.  The proofs go from left to right through the
  fields, each handing the next what is left of the two texts.
-/
import GanttChart.Proofs.Calendar.Field

namespace GanttChart.Literal

open GanttChart.Text GanttChart.Text.Digits

variable {s r r' : List Char} {n : Nat}

/-! ## Dates -/

/-- The fields of a date. -/
@[ext]
structure DateParts where
  year : YearField
  month : Field
  day : Field

namespace DateParts

/-- The text of the date. -/
def text (d : DateParts) : List Char :=
  d.year.text ++ '-' :: (d.month.text ++ '-' :: d.day.text)

/-- The date, if there is such a day. -/
def date? (d : DateParts) : Option Date := Date.of? d.year.value d.month.value d.day.value

/-- The text of a date in front of something, as its fields in front of each other. -/
theorem text_append (d : DateParts) (r : List Char) :
    d.text ++ r = d.year.text ++ '-' :: (d.month.text ++ '-' :: (d.day.text ++ r)) := by
  simp only [text, List.append_assoc, List.cons_append]

/-- The text determines the date that it begins with.  Year and month end at a hyphen, the day as
    assumed. -/
theorem append_inj {d e : DateParts} (hr : d.day.Ends r) (hr' : e.day.Ends r')
    (h : d.text ++ r = e.text ++ r') : d = e ∧ r = r' := by
  have hmark : ∀ rest : List Char, NoDigit ('-' :: rest) := noDigit_cons rfl
  rw [text_append, text_append] at h
  obtain ⟨hyear, h⟩ := YearField.append_inj (hmark _) (hmark _) h
  obtain ⟨hmonth, h⟩ := Field.append_inj (.inr (hmark _)) (.inr (hmark _)) (List.cons.inj h).2
  obtain ⟨hday, hrest⟩ := Field.append_inj hr hr' (List.cons.inj h).2
  exact ⟨DateParts.ext hyear hmonth hday, hrest⟩

end DateParts

/-- **Dates are read from their fields**, of which the last ends where the rest begins. -/
theorem date?_eq_some_iff (htrim : trimStart s = s) {date : Date} :
    date? s = some (date, r) ↔
      ∃ d : DateParts, s = d.text ++ r ∧ d.date? = some date ∧
        (d.year.sign = [] → d.year.digits.length ≤ 4) ∧ d.day.Ends r := by
  have hmark : ∀ rest : List Char, NoDigit ('-' :: rest) := noDigit_cons rfl
  constructor
  · -- take the reader apart at its binds and each number into its field
    intro h
    obtain ⟨⟨year, s₁⟩, hyear, h⟩ := Option.bind_eq_some_iff.1 h
    obtain ⟨s₂, hmark₁, h⟩ := Option.bind_eq_some_iff.1 h
    obtain ⟨⟨month, s₃⟩, hmonth, h⟩ := Option.bind_eq_some_iff.1 h
    obtain ⟨s₄, hmark₂, h⟩ := Option.bind_eq_some_iff.1 h
    obtain ⟨⟨day, s₅⟩, hday, h⟩ := Option.bind_eq_some_iff.1 h
    obtain ⟨date', hdate, h⟩ := Option.bind_eq_some_iff.1 h
    cases h
    rw [char?_eq_some_iff.1 hmark₁] at hyear
    rw [char?_eq_some_iff.1 hmark₂] at hmonth
    obtain ⟨y, rfl, rfl, hfour⟩ := (year?_eq_some_iff htrim).1 hyear
    obtain ⟨m, rfl, rfl, -⟩ := shortNumber?_eq_some_iff.1 hmonth
    obtain ⟨d, rfl, rfl, hend⟩ := shortNumber?_eq_some_iff.1 hday
    exact ⟨⟨y, m, d⟩, (DateParts.text_append ⟨y, m, d⟩ r).symm, hdate, hfour, hend⟩
  · -- put the fields back, in the order of the reader
    rintro ⟨d, rfl, hdate, hfour, hend⟩
    rw [d.text_append] at htrim ⊢
    have hyear := (year?_eq_some_iff htrim).2 ⟨d.year, rfl, rfl, hfour⟩
    have hmonth := shortNumber?_eq_some_iff.2 ⟨d.month, rfl, rfl, .inr (hmark (d.day.text ++ r))⟩
    have hday := shortNumber?_eq_some_iff.2 ⟨d.day, rfl, rfl, hend⟩
    have hmark' : ∀ rest : List Char, char? '-' ('-' :: rest) = some rest :=
      fun rest => char?_eq_some_iff.2 rfl
    rw [DateParts.date?] at hdate
    simp only [date?, Option.bind_eq_bind, hyear, hmonth, hday, hmark', hdate, Option.bind_some,
      Option.pure_def]

/-! ## Times -/

/-- A second and the digits of its fraction. -/
@[ext]
structure Seconds where
  field : Field
  fraction : List Char
  isDigit_fraction : ∀ c ∈ fraction, c.isDigit = true

namespace Seconds

/-- The text of the second. -/
def text (k : Seconds) : List Char := k.field.text ++ pointed k.fraction

/-- Behind the two digits of a second stands no digit: a point, or what stops the time. -/
theorem noDigit_pointed_append (k : Seconds) (hr : Stops r) : NoDigit (pointed k.fraction ++ r) := by
  cases k.fraction with
  | nil => exact hr.noDigit
  | cons c later => exact noDigit_cons rfl _

/-- The text determines the second that it begins with, and its fraction. -/
theorem append_inj {k l : Seconds} (hr : Stops r) (hr' : Stops r')
    (h : k.text ++ r = l.text ++ r') : k = l ∧ r = r' := by
  rw [text, text, List.append_assoc, List.append_assoc] at h
  obtain ⟨hfield, h⟩ := Field.append_inj (.inr (k.noDigit_pointed_append hr))
    (.inr (l.noDigit_pointed_append hr')) h
  obtain ⟨hfraction, hrest⟩ := pointed_append_inj hr hr' k.isDigit_fraction l.isDigit_fraction h
  exact ⟨Seconds.ext hfield hfraction, hrest⟩

/-- A second ends in a digit, its own or that of its fraction. -/
theorem endsSolid_text (k : Seconds) : EndsSolid k.text := by
  cases hfraction : k.fraction with
  | nil =>
    rw [text, hfraction]
    show EndsSolid (k.field.text ++ [])
    rw [List.append_nil]
    exact k.field.endsSolid_text
  | cons d later =>
    have hdigits : EndsSolid (d :: later) := endsSolid_of_forall (List.cons_ne_nil d later)
      fun x hx => isBlank_of_isDigit (k.isDigit_fraction x (hfraction ▸ hx))
    rw [text, hfraction]
    exact (hdigits.cons '.').append_left _

/-- The text behind a minute, with or without seconds. -/
def textBehind : Option Seconds → List Char
  | none => []
  | some k => ':' :: k.text

/-- Behind the digits of a minute stands no digit: a colon, or what stops the time. -/
theorem noDigit_textBehind_append (seconds : Option Seconds) (hr : Stops r) :
    NoDigit (textBehind seconds ++ r) := by
  cases seconds with
  | none => exact hr.noDigit
  | some k => exact noDigit_cons rfl _

/-- Whether there are seconds is told by the colon, which stops no time. -/
theorem textBehind_append_inj {seconds seconds' : Option Seconds} (hr : Stops r) (hr' : Stops r')
    (h : textBehind seconds ++ r = textBehind seconds' ++ r') : seconds = seconds' ∧ r = r' := by
  have hcolon : ∀ {rest later : List Char}, Stops rest → rest ≠ ':' :: later := by
    rintro rest later hstops rfl
    exact (hstops ':' rfl).2.2 rfl
  cases seconds with
  | none =>
    cases seconds' with
    | none => exact ⟨rfl, h⟩
    | some l => exact absurd h (hcolon hr)
  | some k =>
    cases seconds' with
    | none => exact absurd h.symm (hcolon hr')
    | some l =>
      obtain ⟨hsame, hrest⟩ := append_inj hr hr' (List.cons.inj h).2
      exact ⟨congrArg some hsame, hrest⟩

end Seconds

/-- The fields of a time, with or without seconds. -/
@[ext]
structure TimeParts where
  hour : Field
  minute : Field
  seconds : Option Seconds

namespace TimeParts

/-- The text of the time. -/
def text (a : TimeParts) : List Char :=
  a.hour.text ++ ':' :: (a.minute.text ++ Seconds.textBehind a.seconds)

/-- The time, if a clock shows it. -/
def time? (a : TimeParts) : Option TimeOfDay :=
  match a.seconds with
  | none => TimeOfDay.of? a.hour.value a.minute.value 0 0
  | some k => TimeOfDay.of? a.hour.value a.minute.value k.field.value (nanoseconds k.fraction)

/-- The text of a time in front of something, as its fields in front of each other. -/
theorem text_append (a : TimeParts) (r : List Char) :
    a.text ++ r = a.hour.text ++ ':' :: (a.minute.text ++ (Seconds.textBehind a.seconds ++ r)) := by
  simp only [text, List.append_assoc, List.cons_append]

/-- The text determines the time that it begins with. -/
theorem append_inj {a b : TimeParts} (hr : Stops r) (hr' : Stops r')
    (h : a.text ++ r = b.text ++ r') : a = b ∧ r = r' := by
  have hcolon : ∀ rest : List Char, NoDigit (':' :: rest) := noDigit_cons rfl
  rw [text_append, text_append] at h
  obtain ⟨hhour, h⟩ := Field.append_inj (.inr (hcolon _)) (.inr (hcolon _)) h
  obtain ⟨hminute, h⟩ := Field.append_inj (.inr (Seconds.noDigit_textBehind_append _ hr))
    (.inr (Seconds.noDigit_textBehind_append _ hr')) (List.cons.inj h).2
  obtain ⟨hseconds, hrest⟩ := Seconds.textBehind_append_inj hr hr' h
  exact ⟨TimeParts.ext hhour hminute hseconds, hrest⟩

/-- Without blanks before the hour the text begins with a digit. -/
theorem exists_text_eq_cons (a : TimeParts) (hmargin : a.hour.margin = []) :
    ∃ x rest, a.text = x :: rest ∧ x.isDigit = true := by
  obtain ⟨x, later, hx⟩ := List.exists_cons_of_length_pos a.hour.length_pos
  refine ⟨x, later ++ ':' :: (a.minute.text ++ Seconds.textBehind a.seconds), ?_,
    a.hour.isDigit_digits x (hx ▸ List.mem_cons_self)⟩
  rw [text, Field.text, hmargin, hx]
  rfl

/-- A time ends in a digit. -/
theorem endsSolid_text (a : TimeParts) : EndsSolid a.text := by
  cases hseconds : a.seconds with
  | none =>
    rw [text, hseconds]
    show EndsSolid (a.hour.text ++ ':' :: (a.minute.text ++ []))
    rw [List.append_nil]
    exact (a.minute.endsSolid_text.cons ':').append_left _
  | some k =>
    rw [text, hseconds]
    exact ((k.endsSolid_text.cons ':').append_left _ |>.cons ':').append_left _

/-- If no blanks stand in front of a time, its hour has no margin. -/
theorem hour_margin_of_trimStart {a : TimeParts} (h : trimStart a.text = a.text) :
    a.hour.margin = [] := by
  have htext : a.text = a.hour.margin ++ (a.hour.digits ++ ':' :: (a.minute.text ++
      Seconds.textBehind a.seconds)) := List.append_assoc ..
  rw [htext, trimStart_append_of_blank a.hour.isBlank_margin,
    trimStart_digits_append a.hour.isDigit_digits a.hour.length_pos] at h
  exact List.self_eq_append_left.1 h

end TimeParts

/-- **Times without seconds are read from their fields**, here as whole texts. -/
theorem minutes?_eq_some_iff {time : TimeOfDay} :
    minutes? s = some (time, []) ↔
      ∃ a : TimeParts, s = a.text ∧ a.seconds = none ∧ a.time? = some time := by
  constructor
  · intro h
    obtain ⟨⟨hour, s₁⟩, hhour, h⟩ := Option.bind_eq_some_iff.1 h
    obtain ⟨s₂, hcolon, h⟩ := Option.bind_eq_some_iff.1 h
    obtain ⟨⟨minute, s₃⟩, hminute, h⟩ := Option.bind_eq_some_iff.1 h
    obtain ⟨time', htime, h⟩ := Option.bind_eq_some_iff.1 h
    cases h
    rw [char?_eq_some_iff.1 hcolon] at hhour
    obtain ⟨f, rfl, rfl, -⟩ := shortNumber?_eq_some_iff.1 hhour
    obtain ⟨g, rfl, rfl, -⟩ := shortNumber?_eq_some_iff.1 hminute
    exact ⟨⟨f, g, none⟩, rfl, rfl, htime⟩
  · rintro ⟨⟨f, g, seconds⟩, rfl, rfl, htime⟩
    -- the fields are read one after the other, each up to the sign behind it
    have hhour : shortNumber? (f.text ++ ':' :: (g.text ++ [])) =
        some (f.value, ':' :: (g.text ++ [])) :=
      shortNumber?_eq_some_iff.2 ⟨f, rfl, rfl, .inr (noDigit_cons rfl _)⟩
    have hminute : shortNumber? (g.text ++ []) = some (g.value, []) :=
      shortNumber?_eq_some_iff.2 ⟨g, rfl, rfl, .inr noDigit_nil⟩
    have hcolon : char? ':' (':' :: (g.text ++ [])) = some (g.text ++ []) :=
      char?_eq_some_iff.2 rfl
    have htime' : TimeOfDay.of? f.value g.value 0 0 = some time := htime
    show minutes? (f.text ++ ':' :: (g.text ++ [])) = some (time, [])
    simp only [minutes?, Option.bind_eq_bind, hhour, hminute, hcolon, htime', Option.bind_some,
      Option.pure_def]

/-- **Times with seconds are read from their fields**, here as whole texts. -/
theorem seconds?_eq_some_iff {time : TimeOfDay} :
    seconds? s = some (time, []) ↔
      ∃ a : TimeParts, s = a.text ∧ a.seconds.isSome = true ∧ a.time? = some time := by
  constructor
  · intro h
    obtain ⟨⟨hour, s₁⟩, hhour, h⟩ := Option.bind_eq_some_iff.1 h
    obtain ⟨s₂, hcolon₁, h⟩ := Option.bind_eq_some_iff.1 h
    obtain ⟨⟨minute, s₃⟩, hminute, h⟩ := Option.bind_eq_some_iff.1 h
    obtain ⟨s₄, hcolon₂, h⟩ := Option.bind_eq_some_iff.1 h
    obtain ⟨⟨second, s₅⟩, hsecond, h⟩ := Option.bind_eq_some_iff.1 h
    obtain ⟨⟨nanosecond, s₆⟩, hfraction, h⟩ := Option.bind_eq_some_iff.1 h
    obtain ⟨time', htime, h⟩ := Option.bind_eq_some_iff.1 h
    cases h
    rw [char?_eq_some_iff.1 hcolon₁] at hhour
    rw [char?_eq_some_iff.1 hcolon₂] at hminute
    obtain ⟨f, rfl, rfl, -⟩ := shortNumber?_eq_some_iff.1 hhour
    obtain ⟨g, rfl, rfl, -⟩ := shortNumber?_eq_some_iff.1 hminute
    obtain ⟨k, rfl, rfl, -⟩ := shortNumber?_eq_some_iff.1 hsecond
    obtain ⟨digits, rfl, rfl, hdigits⟩ := (fraction?_eq_some_iff stops_nil).1 hfraction
    refine ⟨⟨f, g, some ⟨k, digits, hdigits⟩⟩, ?_, rfl, htime⟩
    rw [List.append_nil]
    rfl
  · rintro ⟨⟨f, g, seconds⟩, rfl, hsome, htime⟩
    obtain ⟨k, rfl⟩ := Option.isSome_iff_exists.1 hsome
    have hhour : shortNumber? (f.text ++ ':' :: (g.text ++ ':' :: k.text)) =
        some (f.value, ':' :: (g.text ++ ':' :: k.text)) :=
      shortNumber?_eq_some_iff.2 ⟨f, rfl, rfl, .inr (noDigit_cons rfl _)⟩
    have hminute : shortNumber? (g.text ++ ':' :: k.text) = some (g.value, ':' :: k.text) :=
      shortNumber?_eq_some_iff.2 ⟨g, rfl, rfl, .inr (noDigit_cons rfl _)⟩
    -- the second ends at the point of its fraction, or at the end of the text
    have hend : NoDigit (pointed k.fraction) := by
      have hnone := k.noDigit_pointed_append stops_nil
      rwa [List.append_nil] at hnone
    have hsecond : shortNumber? k.text = some (k.field.value, pointed k.fraction) :=
      shortNumber?_eq_some_iff.2 ⟨k.field, rfl, rfl, .inr hend⟩
    have hfraction : fraction? (pointed k.fraction) = some (nanoseconds k.fraction, []) :=
      (fraction?_eq_some_iff stops_nil).2
        ⟨k.fraction, (List.append_nil _).symm, rfl, k.isDigit_fraction⟩
    have hcolon : ∀ rest : List Char, char? ':' (':' :: rest) = some rest :=
      fun rest => char?_eq_some_iff.2 rfl
    have htime' : TimeOfDay.of? f.value g.value k.field.value (nanoseconds k.fraction) =
        some time := htime
    show seconds? (f.text ++ ':' :: (g.text ++ ':' :: k.text)) = some (time, [])
    simp only [seconds?, Option.bind_eq_bind, hhour, hminute, hsecond, hfraction, hcolon, htime',
      Option.bind_some, Option.pure_def]

/-! ## Whole literals

  Between day and clock there is room for ambiguity: blanks could belong to the separator or to
  the hour, and without any a digit could belong to the day or to the hour.  `Clock.Follows`
  settles both. -/

/-- A letter is no row of blanks. -/
theorem ne_of_forall_isBlank {separator : List Char} {letter : Char}
    (hblank : ∀ x ∈ separator, isBlank x = true) (hletter : isBlank letter = false) :
    separator ≠ [letter] := by
  rintro rfl
  rw [hblank letter List.mem_cons_self] at hletter
  cases hletter

/-- A separator, a time, and possibly a zone. -/
@[ext]
structure Clock where
  separator : List Char
  time : TimeParts
  zone : List Char
  zone_cases : zone = [] ∨ IsZone zone

namespace Clock

variable {c d : Clock} {day : Field}

/-- The text of the clock, with what separates it from the day. -/
def text (c : Clock) : List Char := c.separator ++ (c.time.text ++ c.zone)

/-- A separator and a time without a zone. -/
def unzoned (separator : List Char) (time : TimeParts) : Clock := ⟨separator, time, [], .inl rfl⟩

/-- Without a zone the text ends with the time. -/
@[simp] theorem text_unzoned (separator : List Char) (a : TimeParts) :
    (unzoned separator a).text = separator ++ a.text := by
  show separator ++ (a.text ++ []) = separator ++ a.text
  rw [List.append_nil]

/-- The separator is a letter, or all blanks between the day and the hour; if there are none, the day
    has two digits. -/
def Follows (c : Clock) (day : Field) : Prop :=
  c.separator = ['T'] ∨ c.separator = ['t'] ∨
    (∀ x ∈ c.separator, isBlank x = true) ∧ c.time.hour.margin = [] ∧
      (c.separator = [] → day.digits.length = 2)

/-- A zone, or none, stops the time before it. -/
theorem stops_zone (c : Clock) : Stops c.zone := by
  rcases c.zone_cases with hnone | hzone
  · rw [hnone]
    exact stops_nil
  · exact hzone.stops

/-- A clock has a colon at least. -/
theorem text_ne_nil (c : Clock) : c.text ≠ [] := by
  intro h
  have hcolon : ':' ∈ c.text := by
    simp [text, TimeParts.text]
  rw [h] at hcolon
  cases hcolon

/-- The day ends where the clock begins: at a letter, at a blank, or at its second digit. -/
theorem Follows.ends (h : c.Follows day) : day.Ends c.text := by
  rcases h with hT | ht | ⟨hblank, -, hnone⟩
  · rw [text, hT]
    exact .inr (noDigit_cons rfl _)
  · rw [text, ht]
    exact .inr (noDigit_cons rfl _)
  · cases hseparator : c.separator with
    | nil => exact .inl (hnone hseparator)
    | cons x separator =>
      rw [text, hseparator]
      refine .inr (noDigit_cons ?_ _)
      cases hdigit : x.isDigit with
      | false => rfl
      | true =>
        have hx := hblank x (hseparator ▸ List.mem_cons_self)
        rw [isBlank_of_isDigit hdigit] at hx
        cases hx

/-- A time that is read behind the blanks after a day follows it, with those blanks as separator. -/
theorem follows_of_trimStart {a : TimeParts} {behind : List Char} (h : a.text = trimStart behind)
    (hend : day.Ends behind) :
    (unzoned (behind.takeWhile isBlank) a).Follows day := by
  have hmargin : a.hour.margin = [] :=
    TimeParts.hour_margin_of_trimStart (by rw [h, trimStart_trimStart])
  refine .inr (.inr ⟨fun x hx => List.mem_takeWhile_imp hx, hmargin, ?_⟩)
  intro (hnone : behind.takeWhile isBlank = [])
  refine hend.resolve_right fun hnodigit => ?_
  -- without blanks the text behind the day is the time, which begins with a digit
  obtain ⟨x, rest, hx, hdigit⟩ := a.exists_text_eq_cons hmargin
  have hbehind : behind = x :: rest := by
    calc behind = behind.takeWhile isBlank ++ trimStart behind :=
          List.takeWhile_append_dropWhile.symm
      _ = x :: rest := by rw [hnone, ← h, hx, List.nil_append]
  rw [hnodigit x (hbehind ▸ rfl)] at hdigit
  cases hdigit

/-- What separates the clock from the day, read off its text. -/
def separatorOf (text : List Char) : List Char :=
  if text.head? = some 'T' then ['T']
  else if text.head? = some 't' then ['t']
  else text.takeWhile isBlank

/-- The separator is read off the text: a letter is its first character, and blanks go on to the
    hour, which begins with a digit. -/
theorem Follows.separatorOf_text (h : c.Follows day) : separatorOf c.text = c.separator := by
  rcases h with hT | ht | ⟨hblank, hmargin, -⟩
  · rw [text, hT]
    rfl
  · rw [text, ht]
    rfl
  · obtain ⟨x, later, hx, hdigit⟩ := c.time.exists_text_eq_cons hmargin
    have htext : c.text = c.separator ++ x :: (later ++ c.zone) := by
      rw [text, hx]
      rfl
    -- the first character is a blank of the separator or a digit of the hour, so it is no letter
    have hhead : ∀ y, c.text.head? = some y → isBlank y = true ∨ y.isDigit = true := by
      intro y hy
      rw [htext, List.head?_append] at hy
      cases hseparator : c.separator with
      | nil =>
        rw [hseparator] at hy
        cases hy
        exact .inr hdigit
      | cons z separator =>
        rw [hseparator] at hy
        cases hy
        exact .inl (hblank y (hseparator ▸ List.mem_cons_self))
    have hletter : ∀ y, isBlank y = false → y.isDigit = false → c.text.head? ≠ some y := by
      intro y hnone hnodigit hy
      rcases hhead y hy with h | h
      · rw [hnone] at h
        cases h
      · rw [hnodigit] at h
        cases h
    rw [separatorOf, if_neg (hletter 'T' rfl rfl), if_neg (hletter 't' rfl rfl), htext,
      List.takeWhile_append_of_pos hblank, List.takeWhile_cons, isBlank_of_isDigit hdigit,
      if_neg Bool.false_ne_true, List.append_nil]

/-- Behind a day the text determines the clock. -/
theorem text_inj (hc : c.Follows day) (hd : d.Follows day) (h : c.text = d.text) : c = d := by
  have hseparator : c.separator = d.separator := by
    rw [← hc.separatorOf_text, h, hd.separatorOf_text]
  rw [text, text, hseparator] at h
  obtain ⟨htime, hzone⟩ :=
    TimeParts.append_inj c.stops_zone d.stops_zone (List.append_cancel_left h)
  exact Clock.ext hseparator htime hzone

/-- A clock ends in a digit or in a zone. -/
theorem endsSolid_text (c : Clock) : EndsSolid c.text := by
  rcases c.zone_cases with hnone | hzone
  · rw [text, hnone, List.append_nil]
    exact c.time.endsSolid_text.append_left _
  · have hend : EndsSolid c.zone := endsSolid_of_forall hzone.ne_nil fun _ => hzone.isBlank
    exact (hend.append_left _).append_left _

end Clock

/-- The parts of a literal. -/
@[ext]
structure Parts where
  date : DateParts
  clock : Option Clock
  follows : ∀ c ∈ clock, c.Follows date.day

namespace Parts

variable {p q : Parts}

/-- The text of the literal. -/
def text (p : Parts) : List Char := p.date.text ++ (p.clock.map Clock.text).getD []

/-- What the literal means: midnight without a time, and with a zone the instant at UTC. -/
def instant? (p : Parts) : Option Instant := do
  let date ← p.date.date?
  match p.clock with
  | none => return .atMidnight date
  | some c =>
    let time ← c.time.time?
    match offset? c.zone with
    | none => return ⟨date, time⟩
    | some (ahead, _) => Instant.addMinutes? ⟨date, time⟩ (-ahead)

/-- A date without a time. -/
def dateOnly (d : DateParts) : Parts where
  date := d
  clock := none
  follows := fun c hc => absurd hc (Option.not_mem_none c)

/-- The text of a date alone. -/
@[simp] theorem text_dateOnly (d : DateParts) : (dateOnly d).text = d.text := List.append_nil d.text

/-- A date without a time means its midnight. -/
theorem instant?_dateOnly {d : DateParts} {date : Date} (h : d.date? = some date) :
    (dateOnly d).instant? = some (.atMidnight date) :=
  Option.bind_eq_some_iff.2 ⟨date, h, rfl⟩

/-- A date and a time without a zone. -/
def dateTime (d : DateParts) (separator : List Char) (a : TimeParts)
    (h : (Clock.unzoned separator a).Follows d.day) : Parts where
  date := d
  clock := some (.unzoned separator a)
  follows := by
    rintro _ ⟨⟩
    exact h

/-- The text of a date with a time. -/
@[simp] theorem text_dateTime {d : DateParts} {separator : List Char} {a : TimeParts}
    (h : (Clock.unzoned separator a).Follows d.day) :
    (dateTime d separator a h).text = d.text ++ (separator ++ a.text) :=
  congrArg (d.text ++ ·) (Clock.text_unzoned separator a)

variable {c : Clock} {date : Date} {time : TimeOfDay}

/-- Without a zone a time is meant as it is. -/
theorem instant?_of_time (hdate : p.date.date? = some date) (hclock : p.clock = some c)
    (htime : c.time.time? = some time) (hzone : c.zone = []) : p.instant? = some ⟨date, time⟩ := by
  simp only [instant?, Option.bind_eq_bind, hdate, hclock, htime, hzone, offset?, Option.bind_some,
    Option.pure_def]

/-- With a zone it is moved to UTC. -/
theorem instant?_of_zone {ahead : Int} {rest : List Char} (hdate : p.date.date? = some date)
    (hclock : p.clock = some c) (htime : c.time.time? = some time)
    (hzone : offset? c.zone = some (ahead, rest)) :
    p.instant? = Instant.addMinutes? ⟨date, time⟩ (-ahead) := by
  simp only [instant?, Option.bind_eq_bind, hdate, hclock, htime, hzone, Option.bind_some]

/-- The day of a literal ends where the clock begins, or at the end of the text. -/
theorem ends_day (p : Parts) : p.date.day.Ends ((p.clock.map Clock.text).getD []) := by
  cases hclock : p.clock with
  | none => exact .inr noDigit_nil
  | some c => exact (p.follows c hclock).ends

/-- **The text of a literal determines its parts.**  The dates agree first; what is left is a
    clock on both sides or nothing on both, since a clock is never empty. -/
theorem text_injective (h : p.text = q.text) : p = q := by
  obtain ⟨hdate, hclock⟩ := DateParts.append_inj p.ends_day q.ends_day h
  refine Parts.ext hdate ?_
  cases hp : p.clock with
  | none =>
    cases hq : q.clock with
    | none => rfl
    | some d =>
      rw [hp, hq] at hclock
      exact absurd hclock.symm d.text_ne_nil
  | some c =>
    cases hq : q.clock with
    | none =>
      rw [hp, hq] at hclock
      exact absurd hclock c.text_ne_nil
    | some d =>
      rw [hp, hq] at hclock
      exact congrArg some (Clock.text_inj (p.follows c hp) (hdate ▸ q.follows d hq) hclock)

/-- A literal begins with a digit or the sign of its year, so with no blank. -/
theorem isBlank_of_head?_text {x : Char} (h : p.text.head? = some x) : isBlank x = false := by
  obtain ⟨y, hy, hsign⟩ := p.date.year.head?_text_append
    ('-' :: (p.date.month.text ++ '-' :: (p.date.day.text ++ (p.clock.map Clock.text).getD [])))
  rw [text, DateParts.text_append, hy] at h
  cases h
  split at hsign
  · rename_i hdigit
    exact isBlank_of_isDigit hdigit
  · rcases p.date.year.sign_cases with h | h | h
    all_goals
      rw [hsign] at h
      cases h
    all_goals rfl

/-- A literal ends with a digit or a zone. -/
theorem endsSolid_text (p : Parts) : EndsSolid p.text := by
  cases hclock : p.clock with
  | none =>
    rw [text, hclock]
    show EndsSolid (p.date.text ++ [])
    rw [List.append_nil]
    exact ((p.date.day.endsSolid_text.cons '-').append_left _ |>.cons '-').append_left _
  | some c =>
    rw [text, hclock]
    exact c.endsSolid_text.append_left _

/-- **No blanks surround a literal.** -/
@[simp] theorem trim_text (p : Parts) : trim p.text = p.text :=
  p.endsSolid_text.trim_eq_self fun _ => isBlank_of_head?_text

end Parts

end GanttChart.Literal
