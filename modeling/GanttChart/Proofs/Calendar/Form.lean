/-
  The forms of literals.

  The six forms are tried in turn, and an early one could take a text that was meant for a later one.

  1. **Soundness.**  A text that one of the forms takes has parts in that form, and the instant is what
     the parts mean (`exists_parts_of_form`).

  2. **Completeness.**  Parts in a form that mean an instant are taken by that form
     (`exists_form_of_parts`).

  3. **Reading.**  A text determines its parts, so whichever form takes it first, the instant is the
     same: a text is a literal exactly if it has parts in one of the forms, and it means what they mean
     (`ofLiteral?_eq_some_iff`).

  Five of the forms differ only in the separator and in whether there are seconds, so they are treated
  together as local forms (`Parts.IsLocal`), with the separator and the time as parameters.  The sixth
  is the form of Internet timestamps (`Parts.IsTimestamp`), where every number has its exact width.
  The two sets overlap in no text: a timestamp has a zone and a local literal has none.
-/
import GanttChart.Proofs.Calendar.Parts

namespace GanttChart.Literal

open GanttChart.Text GanttChart.Text.Digits Parts

variable {s r : List Char} {t : Instant} {p : Parts}

/-! ## The forms -/

/-- Two digits and no blanks. -/
def Field.IsFull (f : Field) : Prop := f.margin = [] ∧ f.digits.length = 2

namespace Parts

/-- The fields of a literal behind its year. -/
def fields (p : Parts) : List Field :=
  p.date.month :: p.date.day :: (p.clock.elim [] fun c =>
    c.time.hour :: c.time.minute :: (c.time.seconds.map Seconds.field).toList)

/-- The forms without a zone: a year of at most four digits or with a sign, and the separator is no
    small letter. -/
def IsLocal (p : Parts) : Prop :=
  (p.date.year.sign = [] → p.date.year.digits.length ≤ 4) ∧
    ∀ c ∈ p.clock, c.zone = [] ∧ c.separator ≠ ['t']

/-- A date alone is local, if its year is not too long. -/
theorem isLocal_dateOnly {d : DateParts} (hfour : d.year.sign = [] → d.year.digits.length ≤ 4) :
    (dateOnly d).IsLocal :=
  ⟨hfour, fun c hc => absurd hc (Option.not_mem_none c)⟩

/-- A date with a time without a zone is local, if the separator is no small letter. -/
theorem isLocal_dateTime {d : DateParts} {separator : List Char} {a : TimeParts}
    (h : (Clock.unzoned separator a).Follows d.day)
    (hfour : d.year.sign = [] → d.year.digits.length ≤ 4) (hsmall : separator ≠ ['t']) :
    (dateTime d separator a h).IsLocal := by
  refine ⟨hfour, ?_⟩
  rintro _ ⟨⟩
  exact ⟨rfl, hsmall⟩

/-- The form of Internet timestamps: all digits that there can be, a separator of one character, and a
    zone. -/
def IsTimestamp (p : Parts) : Prop :=
  p.date.year.sign = [] ∧ p.date.year.digits.length = 4 ∧ (∀ f ∈ p.fields, f.IsFull) ∧
    ∃ c ∈ p.clock, c.time.seconds.isSome = true ∧ IsZone c.zone ∧
      (c.separator = ['T'] ∨ c.separator = ['t'] ∨ c.separator = [' '])

end Parts

/-- The forms, in the order in which they are tried. -/
def forms : List (List Char → Option Instant) :=
  [plainDate?, dateTime? (char? 'T') seconds?, dateTime? (some ∘ trimStart) seconds?,
    dateTime? (char? 'T') minutes?, dateTime? (some ∘ trimStart) minutes?, timestamp?]

/-- Trying the forms in turn is a search through their list. -/
theorem ofLiteral?_eq_findSome? (text : List Char) :
    Instant.ofLiteral? text = forms.findSome? fun form => form (trim text) := by
  have hcons : ∀ (form : List Char → Option Instant) later,
      (form :: later).findSome? (fun form => form (trim text)) =
        (form (trim text)).or (later.findSome? fun form => form (trim text)) := by
    intro form later
    rw [List.findSome?_cons]
    cases form (trim text) <;> rfl
  simp only [Instant.ofLiteral?, Option.orElse_eq_orElse, Option.orElse_eq_or, forms, hcons,
    List.findSome?_nil, Option.or_none]

/-! ## Local literals

  Soundness and completeness meet in the separator: the reader with a `T` takes the letter, the
  one with a space takes all blanks, and what it leaves is the time. -/

/-- A date as a whole literal is a date that leaves nothing. -/
theorem plainDate?_eq_some_iff :
    plainDate? s = some t ↔ ∃ date, date? s = some (date, []) ∧ t = .atMidnight date := by
  constructor
  · intro h
    obtain ⟨⟨date, rest⟩, hdate, h⟩ := Option.bind_eq_some_iff.1 h
    dsimp only at h
    split at h
    · rename_i hend
      cases h
      exact ⟨date, List.isEmpty_iff.1 hend ▸ hdate, rfl⟩
    · cases h
  · rintro ⟨date, hdate, rfl⟩
    exact Option.bind_eq_some_iff.2 ⟨_, hdate, rfl⟩

/-- A date with a time is read as its three parts one after the other, and nothing is left. -/
theorem dateTime?_eq_some_iff {separator : List Char → Option (List Char)}
    {time? : List Char → Option (TimeOfDay × List Char)} :
    dateTime? separator time? s = some t ↔
      ∃ behind later, date? s = some (t.date, behind) ∧ separator behind = some later ∧
        time? later = some (t.time, []) := by
  constructor
  · intro h
    obtain ⟨⟨date, behind⟩, hdate, h⟩ := Option.bind_eq_some_iff.1 h
    obtain ⟨later, hlater, h⟩ := Option.bind_eq_some_iff.1 h
    obtain ⟨⟨time, rest⟩, htime, h⟩ := Option.bind_eq_some_iff.1 h
    dsimp only at h
    split at h
    · rename_i hend
      cases h
      exact ⟨behind, later, hdate, hlater, List.isEmpty_iff.1 hend ▸ htime⟩
    · cases h
  · rintro ⟨behind, later, hdate, hlater, htime⟩
    refine Option.bind_eq_some_iff.2 ⟨_, hdate, ?_⟩
    refine Option.bind_eq_some_iff.2 ⟨_, hlater, ?_⟩
    exact Option.bind_eq_some_iff.2 ⟨_, htime, rfl⟩

/-- A text that a form with a time takes has local parts. -/
theorem exists_parts_of_dateTime? {separator : List Char → Option (List Char)}
    {time? : List Char → Option (TimeOfDay × List Char)} (htrim : trimStart s = s)
    (hseparator : ∀ {behind later}, separator behind = some later →
      behind = 'T' :: later ∨ later = trimStart behind)
    (htime : ∀ {later time}, time? later = some (time, []) →
      ∃ a : TimeParts, later = a.text ∧ a.time? = some time)
    (h : dateTime? separator time? s = some t) :
    ∃ p : Parts, p.text = s ∧ p.IsLocal ∧ p.instant? = some t := by
  obtain ⟨behind, later, hdate, hlater, hread⟩ := dateTime?_eq_some_iff.1 h
  obtain ⟨d, rfl, hday, hfour, hend⟩ := (date?_eq_some_iff htrim).1 hdate
  obtain ⟨a, rfl, hclock⟩ := htime hread
  -- either separator makes the same parts, once it is known to follow the day
  have hparts : ∀ separator, behind = separator ++ a.text → separator ≠ ['t'] →
      (Clock.unzoned separator a).Follows d.day →
      ∃ p : Parts, p.text = d.text ++ behind ∧ p.IsLocal ∧ p.instant? = some t := by
    intro separator hbehind hsmall hfollows
    refine ⟨dateTime d separator a hfollows, ?_, isLocal_dateTime hfollows hfour hsmall, ?_⟩
    · rw [hbehind, text_dateTime]
    · exact instant?_of_time hday rfl hclock rfl
  rcases hseparator hlater with hT | hblank
  · exact hparts ['T'] hT (by decide) (.inl rfl)
  · have hbehind : behind = behind.takeWhile isBlank ++ a.text := by
      rw [hblank]
      exact List.takeWhile_append_dropWhile.symm
    have hsmall : behind.takeWhile isBlank ≠ ['t'] :=
      ne_of_forall_isBlank (fun x hx => List.mem_takeWhile_imp hx) rfl
    exact hparts _ hbehind hsmall (Clock.follows_of_trimStart hblank hend)

/-- A text that is taken as a date has local parts without a clock. -/
theorem exists_parts_of_plainDate? (htrim : trimStart s = s) (h : plainDate? s = some t) :
    ∃ p : Parts, p.text = s ∧ p.IsLocal ∧ p.instant? = some t := by
  obtain ⟨date, hdate, rfl⟩ := plainDate?_eq_some_iff.1 h
  obtain ⟨d, rfl, hday, hfour, -⟩ := (date?_eq_some_iff htrim).1 hdate
  refine ⟨dateOnly d, ?_, isLocal_dateOnly hfour, instant?_dateOnly hday⟩
  rw [text_dateOnly, List.append_nil]

/-- A time is read with its seconds or without any. -/
theorem exists_reader_of_time? {a : TimeParts} {time : TimeOfDay} (h : a.time? = some time) :
    ∃ time? ∈ [seconds?, minutes?], time? a.text = some (time, []) := by
  cases hseconds : a.seconds with
  | none => exact ⟨minutes?, by simp, minutes?_eq_some_iff.2 ⟨a, rfl, hseconds, h⟩⟩
  | some k => exact ⟨seconds?, by simp, seconds?_eq_some_iff.2 ⟨a, rfl, hseconds ▸ rfl, h⟩⟩

/-- Without a small letter the time behind a day is reached past its separator. -/
theorem exists_reader_of_follows {c : Clock} {day : Field} (h : c.Follows day)
    (hsmall : c.separator ≠ ['t']) :
    ∃ separator ∈ [char? 'T', some ∘ trimStart],
      separator (c.separator ++ c.time.text) = some c.time.text := by
  rcases h with hT | ht | ⟨hblank, hmargin, -⟩
  · refine ⟨char? 'T', by simp, char?_eq_some_iff.2 ?_⟩
    rw [hT]
    rfl
  · exact absurd ht hsmall
  · -- blanks are dropped up to the hour, which begins with a digit
    refine ⟨some ∘ trimStart, by simp, congrArg some ?_⟩
    obtain ⟨x, rest, hx, hdigit⟩ := c.time.exists_text_eq_cons hmargin
    rw [trimStart_append_of_blank hblank]
    refine trimStart_eq_self fun y hy => ?_
    rw [hx] at hy
    cases hy
    exact isBlank_of_isDigit hdigit

/-- Parts in a local form are taken by a form: the one of a date alone, or the one with the
    separator and the seconds that the parts have. -/
theorem exists_form_of_isLocal (htrim : trimStart p.text = p.text) (hlocal : p.IsLocal)
    (h : p.instant? = some t) : ∃ form ∈ forms, form p.text = some t := by
  obtain ⟨hfour, hzone⟩ := hlocal
  obtain ⟨date, hday, h⟩ := Option.bind_eq_some_iff.1 h
  have hdate : date? p.text = some (date, (p.clock.map Clock.text).getD []) :=
    (date?_eq_some_iff htrim).2 ⟨p.date, rfl, hday, hfour, p.ends_day⟩
  cases hclock : p.clock with
  | none =>
    rw [hclock] at h hdate
    cases h
    exact ⟨plainDate?, List.mem_cons_self, plainDate?_eq_some_iff.2 ⟨date, hdate, rfl⟩⟩
  | some c =>
    obtain ⟨hnone, hsmall⟩ := hzone c hclock
    rw [hclock] at h hdate
    obtain ⟨time, htime, h⟩ := Option.bind_eq_some_iff.1 h
    rw [hnone] at h
    cases h
    have hbehind : c.text = c.separator ++ c.time.text := by
      rw [Clock.text, hnone, List.append_nil]
    obtain ⟨time?, htime?, hread⟩ := exists_reader_of_time? htime
    obtain ⟨separator, hseparator, hsep⟩ := exists_reader_of_follows (p.follows c hclock) hsmall
    rw [← hbehind] at hsep
    refine ⟨dateTime? separator time?, ?_, dateTime?_eq_some_iff.2 ⟨_, _, hdate, hsep, hread⟩⟩
    simp only [List.mem_cons, List.not_mem_nil, or_false] at htime? hseparator
    rcases htime? with rfl | rfl <;> rcases hseparator with rfl | rfl <;> simp [forms]

/-! ## Internet timestamps

  Numbers of an exact width need no mark behind them to end, so every field is full and stands
  alone. -/

/-- A number of exactly two digits is a full field. -/
theorem take?_two_eq_some_iff {n : Nat} :
    take? 2 2 s = some (n, r) ↔ ∃ f : Field, f.IsFull ∧ s = f.text ++ r ∧ n = f.value := by
  rw [take?_eq_some_iff]
  constructor
  · rintro ⟨digits, rfl, rfl, hdigits, hlow, hhigh, -⟩
    exact ⟨⟨[], digits, nofun, hdigits, by omega, hhigh⟩, ⟨rfl, by dsimp only; omega⟩, rfl, rfl⟩
  · rintro ⟨f, ⟨hmargin, htwo⟩, rfl, rfl⟩
    refine ⟨f.digits, ?_, rfl, f.isDigit_digits, htwo.ge, htwo.le, .inl htwo⟩
    rw [Field.text, hmargin, List.nil_append]

/-- A number of exactly four digits is a year without a sign. -/
theorem take?_four_eq_some_iff {n : Nat} :
    take? 4 4 s = some (n, r) ↔
      ∃ y : YearField, (y.sign = [] ∧ y.digits.length = 4) ∧ s = y.text ++ r ∧ (n : Int) = y.value := by
  rw [take?_eq_some_iff]
  constructor
  · rintro ⟨digits, rfl, rfl, hdigits, hlow, hhigh, -⟩
    exact ⟨⟨[], digits, .inl rfl, hdigits, by omega⟩, ⟨rfl, by dsimp only; omega⟩, rfl, rfl⟩
  · rintro ⟨y, ⟨hsign, hfour⟩, rfl, hn⟩
    refine ⟨y.digits, ?_, ?_, y.isDigit_digits, hfour.ge, hfour.le, .inl hfour⟩
    · rw [YearField.text, hsign, List.nil_append]
    · rw [YearField.value, hsign, if_neg (by decide)] at hn
      exact Int.ofNat.inj hn

/-- The separator of a timestamp is one character, a letter or a space. -/
theorem timestampSeparator?_eq_some_iff :
    timestampSeparator? s = some r ↔ ∃ c, (c = 'T' ∨ c = 't' ∨ c = ' ') ∧ s = c :: r := by
  cases s with
  | nil => exact iff_of_false nofun nofun
  | cons d s =>
    rw [timestampSeparator?]
    split
    · rename_i hd
      rw [Option.some.injEq]
      constructor
      · rintro rfl
        exact ⟨d, hd, rfl⟩
      · rintro ⟨c, -, hs⟩
        exact (List.cons.inj hs).2
    · rename_i hd
      refine iff_of_false nofun ?_
      rintro ⟨c, hc, hs⟩
      exact hd ((List.cons.inj hs).1 ▸ hc)

/-- A text that is a timestamp has its parts.  The reader is taken apart at its fifteen binds,
    the numbers and marks are put back into one text from the inside out, and the parts are read
    off. -/
theorem exists_parts_of_timestamp? (h : timestamp? s = some t) :
    ∃ p : Parts, p.text = s ∧ p.IsTimestamp ∧ p.instant? = some t := by
  obtain ⟨⟨year, s₁⟩, hyear, h⟩ := Option.bind_eq_some_iff.1 h
  obtain ⟨s₂, hmark₁, h⟩ := Option.bind_eq_some_iff.1 h
  obtain ⟨⟨month, s₃⟩, hmonth, h⟩ := Option.bind_eq_some_iff.1 h
  obtain ⟨s₄, hmark₂, h⟩ := Option.bind_eq_some_iff.1 h
  obtain ⟨⟨day, s₅⟩, hday, h⟩ := Option.bind_eq_some_iff.1 h
  obtain ⟨s₆, hseparator, h⟩ := Option.bind_eq_some_iff.1 h
  obtain ⟨⟨hour, s₇⟩, hhour, h⟩ := Option.bind_eq_some_iff.1 h
  obtain ⟨s₈, hcolon₁, h⟩ := Option.bind_eq_some_iff.1 h
  obtain ⟨⟨minute, s₉⟩, hminute, h⟩ := Option.bind_eq_some_iff.1 h
  obtain ⟨s₁₀, hcolon₂, h⟩ := Option.bind_eq_some_iff.1 h
  obtain ⟨⟨second, s₁₁⟩, hsecond, h⟩ := Option.bind_eq_some_iff.1 h
  obtain ⟨⟨nanosecond, zone⟩, hfraction, h⟩ := Option.bind_eq_some_iff.1 h
  obtain ⟨⟨ahead, rest⟩, hzone, h⟩ := Option.bind_eq_some_iff.1 h
  obtain ⟨date, hdate, h⟩ := Option.bind_eq_some_iff.1 h
  obtain ⟨time, htime, h⟩ := Option.bind_eq_some_iff.1 h
  obtain ⟨hend, hmoved⟩ := Option.ite_none_right_eq_some.1 h
  rw [List.isEmpty_iff.1 hend] at hzone
  have hisZone : IsZone zone := ⟨ahead, hzone⟩
  obtain ⟨y, ⟨hsign, hfour⟩, rfl, hvalue⟩ := take?_four_eq_some_iff.1 hyear
  obtain ⟨m, hm, rfl, rfl⟩ := take?_two_eq_some_iff.1 hmonth
  obtain ⟨d, hd, rfl, rfl⟩ := take?_two_eq_some_iff.1 hday
  obtain ⟨c, hc, rfl⟩ := timestampSeparator?_eq_some_iff.1 hseparator
  obtain ⟨f, hf, rfl, rfl⟩ := take?_two_eq_some_iff.1 hhour
  obtain ⟨g, hg, rfl, rfl⟩ := take?_two_eq_some_iff.1 hminute
  obtain ⟨k, hk, rfl, rfl⟩ := take?_two_eq_some_iff.1 hsecond
  obtain ⟨digits, rfl, rfl, hdigits⟩ := (fraction?_eq_some_iff hisZone.stops).1 hfraction
  rw [char?_eq_some_iff.1 hmark₁, char?_eq_some_iff.1 hmark₂, char?_eq_some_iff.1 hcolon₁,
    char?_eq_some_iff.1 hcolon₂]
  have hseparator : [c] = ['T'] ∨ [c] = ['t'] ∨ [c] = [' '] := by
    simpa only [List.cons.injEq, and_true] using hc
  refine ⟨⟨⟨y, m, d⟩, some ⟨[c], ⟨f, g, some ⟨k, digits, hdigits⟩⟩, zone, .inr hisZone⟩, ?_⟩,
    ?_, ⟨hsign, hfour, ?_, ?_⟩, ?_⟩
  · -- the clock follows the day, with a letter or with one blank
    rintro _ ⟨⟩
    refine hseparator.imp_right (.imp_right fun hspace =>
      ⟨?_, hf.1, fun hnone => absurd hnone (List.cons_ne_nil c [])⟩)
    intro x (hx : x ∈ [c])
    rw [hspace] at hx
    cases List.mem_singleton.1 hx
    rfl
  · -- the text is that of the parts
    simp only [text, DateParts.text, Clock.text, TimeParts.text, Seconds.textBehind, Seconds.text,
      Option.map_some, Option.getD_some, List.append_assoc, List.cons_append, List.nil_append]
  · -- every field is full
    intro e he
    simp only [Parts.fields, Option.elim_some, Option.map_some, Option.toList_some, List.mem_cons,
      List.not_mem_nil, or_false] at he
    rcases he with rfl | rfl | rfl | rfl | rfl <;> assumption
  · exact ⟨_, rfl, rfl, hisZone, hseparator⟩
  · rw [hvalue] at hdate
    refine (instant?_of_zone ?_ rfl ?_ hzone).trans hmoved
    · exact hdate
    · exact htime

/-- Parts of a timestamp are taken by its form.  What each of the fifteen binds gets is stated
    first; then the reader follows the text from left to right. -/
theorem timestamp?_of_isTimestamp (htimestamp : p.IsTimestamp) (h : p.instant? = some t) :
    timestamp? p.text = some t := by
  obtain ⟨hsign, hfour, hfull, c, hclock, hseconds, hzone, hseparator⟩ := htimestamp
  obtain ⟨k, hk⟩ := Option.isSome_iff_exists.1 hseconds
  obtain ⟨ahead, hahead⟩ := hzone
  have hclock' : p.clock = some c := hclock
  have hmem : ∀ f ∈ [p.date.month, p.date.day, c.time.hour, c.time.minute, k.field], f.IsFull := by
    simpa only [Parts.fields, hclock', hk, Option.elim_some, Option.map_some,
      Option.toList_some] using hfull
  obtain ⟨date, hdate, h⟩ := Option.bind_eq_some_iff.1 h
  rw [hclock'] at h
  obtain ⟨time, htime, h⟩ := Option.bind_eq_some_iff.1 h
  rw [hahead] at h
  have htwo : ∀ f ∈ [p.date.month, p.date.day, c.time.hour, c.time.minute, k.field], ∀ rest,
      take? 2 2 (f.text ++ rest) = some (f.value, rest) :=
    fun f hf rest => take?_two_eq_some_iff.2 ⟨f, hmem f hf, rfl, rfl⟩
  have hvalue : (value p.date.year.digits : Int) = p.date.year.value := by
    rw [YearField.value, hsign, if_neg (by decide)]
  have hyear : ∀ rest, take? 4 4 (p.date.year.text ++ rest) =
      some (value p.date.year.digits, rest) :=
    fun rest => take?_four_eq_some_iff.2 ⟨p.date.year, ⟨hsign, hfour⟩, rfl, hvalue⟩
  have hmark : ∀ x rest, char? x (x :: rest) = some rest := fun x rest => char?_eq_some_iff.2 rfl
  have hsep : ∀ rest, timestampSeparator? (c.separator ++ rest) = some rest := by
    intro rest
    rcases hseparator with h | h | h
    all_goals
      rw [h]
      rfl
  have hfraction : fraction? (pointed k.fraction ++ c.zone) = some (nanoseconds k.fraction, c.zone) :=
    (fraction?_eq_some_iff (IsZone.stops ⟨ahead, hahead⟩)).2
      ⟨k.fraction, rfl, rfl, k.isDigit_fraction⟩
  have htime' : TimeOfDay.of? c.time.hour.value c.time.minute.value k.field.value
      (nanoseconds k.fraction) = some time := by
    rwa [TimeParts.time?, hk] at htime
  have hdate' : Date.of? (value p.date.year.digits) p.date.month.value p.date.day.value =
      some date := by
    rwa [hvalue]
  -- the text with every field in front of what the reader sees behind it
  have htext : p.text = p.date.year.text ++ '-' :: (p.date.month.text ++ '-' :: (p.date.day.text ++
      (c.separator ++ (c.time.hour.text ++ ':' :: (c.time.minute.text ++ ':' :: (k.field.text ++
        (pointed k.fraction ++ c.zone))))))) := by
    simp only [text, hclock', DateParts.text, Clock.text, TimeParts.text, hk, Seconds.textBehind,
      Seconds.text, Option.map_some, Option.getD_some, List.append_assoc, List.cons_append]
  rw [htext]
  refine Option.bind_eq_some_iff.2 ⟨_, hyear _, ?_⟩
  refine Option.bind_eq_some_iff.2 ⟨_, hmark '-' _, ?_⟩
  refine Option.bind_eq_some_iff.2 ⟨_, htwo p.date.month (by simp) _, ?_⟩
  refine Option.bind_eq_some_iff.2 ⟨_, hmark '-' _, ?_⟩
  refine Option.bind_eq_some_iff.2 ⟨_, htwo p.date.day (by simp) _, ?_⟩
  refine Option.bind_eq_some_iff.2 ⟨_, hsep _, ?_⟩
  refine Option.bind_eq_some_iff.2 ⟨_, htwo c.time.hour (by simp) _, ?_⟩
  refine Option.bind_eq_some_iff.2 ⟨_, hmark ':' _, ?_⟩
  refine Option.bind_eq_some_iff.2 ⟨_, htwo c.time.minute (by simp) _, ?_⟩
  refine Option.bind_eq_some_iff.2 ⟨_, hmark ':' _, ?_⟩
  refine Option.bind_eq_some_iff.2 ⟨_, htwo k.field (by simp) _, ?_⟩
  refine Option.bind_eq_some_iff.2 ⟨_, hfraction, ?_⟩
  refine Option.bind_eq_some_iff.2 ⟨_, hahead, ?_⟩
  refine Option.bind_eq_some_iff.2 ⟨_, hdate', ?_⟩
  exact Option.bind_eq_some_iff.2 ⟨_, htime', h⟩

/-! ## Reading -/

/-- **Every form is sound**: what it takes has parts that mean the instant.  The four forms with
    a time are one lemma, applied to two separators and two readers of times. -/
theorem exists_parts_of_form {form : List Char → Option Instant} (hform : form ∈ forms)
    (htrim : trimStart s = s) (h : form s = some t) :
    ∃ p : Parts, p.text = s ∧ (p.IsLocal ∨ p.IsTimestamp) ∧ p.instant? = some t := by
  -- the two separators: what each of them has read
  have hletter : ∀ {behind later : List Char}, char? 'T' behind = some later →
      behind = 'T' :: later ∨ later = trimStart behind := fun h => .inl (char?_eq_some_iff.1 h)
  have hblank : ∀ {behind later : List Char}, (some ∘ trimStart) behind = some later →
      behind = 'T' :: later ∨ later = trimStart behind := fun h => .inr (Option.some.inj h).symm
  -- the two readers of times, with seconds and without
  have hseconds : ∀ {later : List Char} {time}, seconds? later = some (time, []) →
      ∃ a : TimeParts, later = a.text ∧ a.time? = some time := by
    intro later time h
    obtain ⟨a, hlater, -, htime⟩ := seconds?_eq_some_iff.1 h
    exact ⟨a, hlater, htime⟩
  have hminutes : ∀ {later : List Char} {time}, minutes? later = some (time, []) →
      ∃ a : TimeParts, later = a.text ∧ a.time? = some time := by
    intro later time h
    obtain ⟨a, hlater, -, htime⟩ := minutes?_eq_some_iff.1 h
    exact ⟨a, hlater, htime⟩
  have hlocal : (∃ p : Parts, p.text = s ∧ p.IsLocal ∧ p.instant? = some t) →
      ∃ p : Parts, p.text = s ∧ (p.IsLocal ∨ p.IsTimestamp) ∧ p.instant? = some t := by
    rintro ⟨p, htext, hp, hinstant⟩
    exact ⟨p, htext, .inl hp, hinstant⟩
  simp only [forms, List.mem_cons, List.not_mem_nil, or_false] at hform
  rcases hform with rfl | rfl | rfl | rfl | rfl | rfl
  · exact hlocal (exists_parts_of_plainDate? htrim h)
  · exact hlocal (exists_parts_of_dateTime? htrim hletter hseconds h)
  · exact hlocal (exists_parts_of_dateTime? htrim hblank hseconds h)
  · exact hlocal (exists_parts_of_dateTime? htrim hletter hminutes h)
  · exact hlocal (exists_parts_of_dateTime? htrim hblank hminutes h)
  · obtain ⟨p, htext, hp, hinstant⟩ := exists_parts_of_timestamp? h
    exact ⟨p, htext, .inr hp, hinstant⟩

/-- **The forms are complete**: parts in one of them that mean an instant are taken by one. -/
theorem exists_form_of_parts (htrim : trimStart p.text = p.text) (hp : p.IsLocal ∨ p.IsTimestamp)
    (h : p.instant? = some t) : ∃ form ∈ forms, form p.text = some t := by
  rcases hp with hlocal | htimestamp
  · exact exists_form_of_isLocal htrim hlocal h
  · exact ⟨timestamp?, by simp [forms], timestamp?_of_isTimestamp htimestamp h⟩

/-- **What a literal is.**  A text denotes an instant exactly if it has, without the blanks
    around it, parts in one of the forms that mean the instant.  In which order the forms are
    tried makes no difference: the form that takes the text first is sound, so its parts have the
    same text, and they are the same parts. -/
theorem ofLiteral?_eq_some_iff :
    Instant.ofLiteral? s = some t ↔
      ∃ p : Parts, p.text = trim s ∧ (p.IsLocal ∨ p.IsTimestamp) ∧ p.instant? = some t := by
  have htrim : trimStart (trim s) = trim s := trimStart_eq_self fun _ => isBlank_of_head?_trim
  have hsound : ∀ {u}, Instant.ofLiteral? s = some u →
      ∃ p : Parts, p.text = trim s ∧ (p.IsLocal ∨ p.IsTimestamp) ∧ p.instant? = some u := by
    intro u h
    rw [ofLiteral?_eq_findSome?] at h
    obtain ⟨form, hform, hu⟩ := List.exists_of_findSome?_eq_some h
    exact exists_parts_of_form hform htrim hu
  constructor
  · exact hsound
  · rintro ⟨p, htext, hp, hinstant⟩
    obtain ⟨form, hform, ht⟩ := exists_form_of_parts (htext ▸ htrim) hp hinstant
    -- some form takes the text, but an earlier one may be the first that does
    have hsome : (Instant.ofLiteral? s).isSome = true := by
      rw [ofLiteral?_eq_findSome?, List.findSome?_isSome_iff]
      exact ⟨form, hform, by rw [← htext, ht]; rfl⟩
    obtain ⟨u, hu⟩ := Option.isSome_iff_exists.1 hsome
    obtain ⟨q, htext', -, hinstant'⟩ := hsound hu
    rw [Parts.text_injective (htext'.trans htext.symm), hinstant] at hinstant'
    rw [hu, hinstant']

/-- Parts in one of the forms are read as what they mean, whatever blanks surround them. -/
theorem ofLiteral?_margins_text {before after : List Char} (hp : p.IsLocal ∨ p.IsTimestamp)
    (hbefore : ∀ c ∈ before, isBlank c = true) (hafter : ∀ c ∈ after, isBlank c = true) :
    Instant.ofLiteral? (before ++ p.text ++ after) = p.instant? := by
  have htrim : trim (before ++ p.text ++ after) = p.text := by
    rw [trim_margins hbefore hafter, p.trim_text]
  refine Option.ext fun t => ?_
  rw [ofLiteral?_eq_some_iff, htrim]
  constructor
  · rintro ⟨q, htext, -, hinstant⟩
    rwa [Parts.text_injective htext] at hinstant
  · intro hinstant
    exact ⟨p, rfl, hp, hinstant⟩

end GanttChart.Literal
