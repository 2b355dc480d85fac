/-
  What a literal is made of.

  A reader of a literal takes a front of its text and answers with the rest, and the front holds
  digits, blanks and the marks of dates and times, and nothing else (`Reads`).  Each form of literal
  has to use its text up, so a text with any other character denotes no instant
  (`isLiteralChar_of_ofLiteral?`).

  1. **Composition.**  `Reads` is reflexive and transitive, and goes through the binds that the readers
     are built from (`Reads.bind` for a reader of a value, `Reads.skip` for one of a mark).

  2. **Readers.**  One lemma for each reader says that it reads.  A reader made of others follows their
     order: its proof is a chain of binds, one line for each step.

  3. **Literals.**  A form that succeeds has read up to the empty text, and the six forms are six cases
     of one alternative.

  Which characters a literal has, and in which order, is more than is said here; the exact language is
  the subject of `GanttChart.Proofs.Calendar.Form`.
-/
import GanttChart.Calendar.Literal
import GanttChart.Proofs.Text.Trim

namespace GanttChart

open GanttChart.Text

namespace Literal

/-- A digit, a blank or a mark of a date or a time. -/
def isLiteralChar (c : Char) : Bool :=
  c.isDigit || isBlank c || c ∈ "-+\u2212:.TtZz".toList

/-- The first text is the second behind characters of literals. -/
def Reads (text rest : List Char) : Prop :=
  ∃ front, front ++ rest = text ∧ ∀ c ∈ front, isLiteralChar c = true

namespace Reads

/-- Reading nothing. -/
theorem refl (text : List Char) : Reads text text := ⟨[], rfl, by simp⟩

/-- One reader after another reads both fronts. -/
theorem trans {text middle rest : List Char} (h : Reads text middle) (h' : Reads middle rest) :
    Reads text rest := by
  obtain ⟨front, rfl, hfront⟩ := h
  obtain ⟨later, rfl, hlater⟩ := h'
  refine ⟨front ++ later, List.append_assoc front later rest, ?_⟩
  intro c hc
  exact (List.mem_append.1 hc).elim (hfront c) (hlater c)

/-- Reading one character. -/
theorem cons {c : Char} (hc : isLiteralChar c = true) (text : List Char) :
    Reads (c :: text) text :=
  ⟨[c], rfl, by simpa using hc⟩

/-- Reading a front of a known length, the way digits are taken. -/
theorem drop_front {front text : List Char} (h : front <+: text)
    (hfront : ∀ c ∈ front, isLiteralChar c = true) : Reads text (text.drop front.length) :=
  ⟨front, List.prefix_iff_eq_append.1 h, hfront⟩

/-- A reader of a value, and what is done with the rest.  The reading so far goes from `base` to
    `text`; after the bind it reaches the rest that the value left. -/
theorem bind {α β : Type} {base text : List Char} {x : Option (α × List Char)}
    {next : α × List Char → Option β} {b : β} (h : Reads base text)
    (hx : ∀ {a rest}, x = some (a, rest) → Reads text rest) (hb : (x >>= next) = some b) :
    ∃ a rest, Reads base rest ∧ next (a, rest) = some b := by
  obtain ⟨⟨a, rest⟩, ha, hnext⟩ := Option.bind_eq_some_iff.1 hb
  exact ⟨a, rest, h.trans (hx ha), hnext⟩

/-- A reader of a mark, and what is done with the rest. -/
theorem skip {β : Type} {base text : List Char} {x : Option (List Char)}
    {next : List Char → Option β} {b : β} (h : Reads base text)
    (hx : ∀ {rest}, x = some rest → Reads text rest) (hb : (x >>= next) = some b) :
    ∃ rest, Reads base rest ∧ next rest = some b := by
  obtain ⟨rest, hrest, hnext⟩ := Option.bind_eq_some_iff.1 hb
  exact ⟨rest, h.trans (hx hrest), hnext⟩

/-- A text that is read to its end is made of nothing else. -/
theorem all {text : List Char} (h : Reads text []) : ∀ c ∈ text, isLiteralChar c = true := by
  obtain ⟨front, rfl, hfront⟩ := h
  simpa using hfront

end Reads

/-! ## Numbers and marks -/

/-- Digits belong to literals. -/
theorem isLiteralChar_of_isDigit {c : Char} (h : c.isDigit = true) : isLiteralChar c = true := by
  simp [isLiteralChar, h]

/-- Blanks belong to literals. -/
theorem isLiteralChar_of_isBlank {c : Char} (h : isBlank c = true) : isLiteralChar c = true := by
  simp [isLiteralChar, h]

variable {text rest : List Char}

/-- Dropping blanks reads them. -/
theorem reads_trimStart (text : List Char) : Reads text (trimStart text) :=
  ⟨text.takeWhile isBlank, List.takeWhile_append_dropWhile,
    fun _ hc => isLiteralChar_of_isBlank (List.mem_takeWhile_imp hc)⟩

/-- A number is read from its digits. -/
theorem reads_take? {low high n : Nat} (h : Digits.take? low high text = some (n, rest)) :
    Reads text rest := by
  unfold Digits.take? at h
  dsimp only at h
  split at h
  · cases h
  · cases h
    refine .drop_front ((List.takeWhile_prefix _).trans (List.take_prefix high text)) ?_
    exact fun c hc => isLiteralChar_of_isDigit (List.mem_takeWhile_imp hc)

/-- A mark reads itself. -/
theorem reads_char? {c : Char} (hc : isLiteralChar c = true) (h : char? c text = some rest) :
    Reads text rest := by
  cases text with
  | nil => cases h
  | cons d text =>
    rw [char?] at h
    split at h
    · rename_i hd
      cases h
      exact .cons (hd ▸ hc) rest
    · cases h

/-- A short number is read from blanks and digits. -/
theorem reads_shortNumber? {n : Nat} (h : shortNumber? text = some (n, rest)) : Reads text rest :=
  (reads_trimStart text).trans (reads_take? h)

/-- The digits of a fraction are all read, also those that do not count. -/
theorem reads_nanoseconds? {n : Nat} (h : nanoseconds? text = some (n, rest)) :
    Reads text rest := by
  unfold nanoseconds? at h
  dsimp only at h
  split at h
  · cases h
  · cases h
    refine .drop_front (List.takeWhile_prefix _) ?_
    exact fun c hc => isLiteralChar_of_isDigit (List.mem_takeWhile_imp hc)

/-- A fraction is read from a point and digits, or is nothing. -/
theorem reads_fraction? {n : Nat} (h : fraction? text = some (n, rest)) : Reads text rest := by
  unfold fraction? at h
  split at h
  · exact (Reads.cons (by decide) _).trans (reads_nanoseconds? h)
  · -- no point, and nothing is read
    cases h
    exact .refl text

/-! ## Dates and times

  In each chain the binds stand in the order of the reader; the last one builds the date or the
  time and reads nothing more. -/

/-- A year is read from blanks, possibly a sign, and digits. -/
theorem reads_year? {year : Int} (h : year? text = some (year, rest)) : Reads text rest := by
  refine (reads_trimStart text).trans ?_
  unfold year? at h
  -- a minus, a plus, or no sign
  split at h <;> obtain ⟨⟨n, later⟩, hn, hpair⟩ := Option.map_eq_some_iff.1 h <;> cases hpair
  · rename_i hsign
    rw [hsign]
    exact (Reads.cons (by decide) _).trans (reads_take? hn)
  · rename_i hsign
    rw [hsign]
    exact (Reads.cons (by decide) _).trans (reads_take? hn)
  · exact reads_take? hn

/-- A date is read from its three numbers and the hyphens between them. -/
theorem reads_date? {date : Date} (h : date? text = some (date, rest)) : Reads text rest := by
  obtain ⟨year, _, hread, h⟩ := (Reads.refl text).bind reads_year? h
  obtain ⟨_, hread, h⟩ := hread.skip (reads_char? (by decide)) h
  obtain ⟨month, _, hread, h⟩ := hread.bind reads_shortNumber? h
  obtain ⟨_, hread, h⟩ := hread.skip (reads_char? (by decide)) h
  obtain ⟨day, _, hread, h⟩ := hread.bind reads_shortNumber? h
  obtain ⟨_, _, h⟩ := Option.bind_eq_some_iff.1 h
  cases h
  exact hread

/-- A time without seconds is read from two numbers and a colon. -/
theorem reads_minutes? {time : TimeOfDay} (h : minutes? text = some (time, rest)) :
    Reads text rest := by
  obtain ⟨hour, _, hread, h⟩ := (Reads.refl text).bind reads_shortNumber? h
  obtain ⟨_, hread, h⟩ := hread.skip (reads_char? (by decide)) h
  obtain ⟨minute, _, hread, h⟩ := hread.bind reads_shortNumber? h
  obtain ⟨_, _, h⟩ := Option.bind_eq_some_iff.1 h
  cases h
  exact hread

/-- A time with seconds is read from three numbers, two colons and a fraction. -/
theorem reads_seconds? {time : TimeOfDay} (h : seconds? text = some (time, rest)) :
    Reads text rest := by
  obtain ⟨hour, _, hread, h⟩ := (Reads.refl text).bind reads_shortNumber? h
  obtain ⟨_, hread, h⟩ := hread.skip (reads_char? (by decide)) h
  obtain ⟨minute, _, hread, h⟩ := hread.bind reads_shortNumber? h
  obtain ⟨_, hread, h⟩ := hread.skip (reads_char? (by decide)) h
  obtain ⟨second, _, hread, h⟩ := hread.bind reads_shortNumber? h
  obtain ⟨nanosecond, _, hread, h⟩ := hread.bind reads_fraction? h
  obtain ⟨_, _, h⟩ := Option.bind_eq_some_iff.1 h
  cases h
  exact hread

/-! ## Zones -/

/-- A zone is read from its letter, or from a sign and two numbers with a colon. -/
theorem reads_offset? {ahead : Int} (h : offset? text = some (ahead, rest)) : Reads text rest := by
  cases text with
  | nil => cases h
  | cons c text =>
    rw [offset?] at h
    split at h
    · rename_i hc
      cases h
      exact .cons (by rcases hc with rfl | rfl <;> decide) rest
    · split at h
      · rename_i hc
        have hsign : isLiteralChar c = true := by rcases hc with rfl | rfl | rfl <;> decide
        obtain ⟨hour, _, hread, h⟩ := (Reads.cons hsign text).bind reads_take? h
        obtain ⟨_, hread, h⟩ := hread.skip (reads_char? (by decide)) h
        obtain ⟨minute, _, hread, h⟩ := hread.bind reads_take? h
        dsimp only at h
        split at h
        · -- an offset out of range, which is refused
          cases h
        · cases h
          exact hread
      · cases h

/-- The separator of a timestamp is one of three characters. -/
theorem reads_timestampSeparator? (h : timestampSeparator? text = some rest) :
    Reads text rest := by
  cases text with
  | nil => cases h
  | cons c text =>
    rw [timestampSeparator?] at h
    split at h
    · rename_i hc
      cases h
      exact .cons (by rcases hc with rfl | rfl | rfl <;> decide) rest
    · cases h

/-! ## Whole literals

  All forms end with a test that no text is left. -/

variable {t : Instant}

/-- A date that is a whole literal has been read to the end. -/
theorem reads_plainDate? (h : plainDate? text = some t) : Reads text [] := by
  obtain ⟨date, rest, hread, h⟩ := (Reads.refl text).bind reads_date? h
  dsimp only at h
  split at h
  · rename_i hend
    exact List.isEmpty_iff.1 hend ▸ hread
  · cases h

/-- So has a date with a time, for any separator and any time that read. -/
theorem reads_dateTime? {separator : List Char → Option (List Char)}
    {time? : List Char → Option (TimeOfDay × List Char)}
    (hseparator : ∀ {text rest}, separator text = some rest → Reads text rest)
    (htime : ∀ {text time rest}, time? text = some (time, rest) → Reads text rest)
    (h : dateTime? separator time? text = some t) : Reads text [] := by
  obtain ⟨date, _, hread, h⟩ := (Reads.refl text).bind reads_date? h
  obtain ⟨_, hread, h⟩ := hread.skip hseparator h
  obtain ⟨time, rest, hread, h⟩ := hread.bind htime h
  dsimp only at h
  split at h
  · rename_i hend
    exact List.isEmpty_iff.1 hend ▸ hread
  · cases h

/-- And so has a timestamp, whose numbers have their exact widths. -/
theorem reads_timestamp? (h : timestamp? text = some t) : Reads text [] := by
  obtain ⟨year, _, hread, h⟩ := (Reads.refl text).bind reads_take? h
  obtain ⟨_, hread, h⟩ := hread.skip (reads_char? (by decide)) h
  obtain ⟨month, _, hread, h⟩ := hread.bind reads_take? h
  obtain ⟨_, hread, h⟩ := hread.skip (reads_char? (by decide)) h
  obtain ⟨day, _, hread, h⟩ := hread.bind reads_take? h
  obtain ⟨_, hread, h⟩ := hread.skip reads_timestampSeparator? h
  obtain ⟨hour, _, hread, h⟩ := hread.bind reads_take? h
  obtain ⟨_, hread, h⟩ := hread.skip (reads_char? (by decide)) h
  obtain ⟨minute, _, hread, h⟩ := hread.bind reads_take? h
  obtain ⟨_, hread, h⟩ := hread.skip (reads_char? (by decide)) h
  obtain ⟨second, _, hread, h⟩ := hread.bind reads_take? h
  obtain ⟨nanosecond, _, hread, h⟩ := hread.bind reads_fraction? h
  obtain ⟨ahead, rest, hread, h⟩ := hread.bind reads_offset? h
  obtain ⟨date, _, h⟩ := Option.bind_eq_some_iff.1 h
  obtain ⟨time, _, h⟩ := Option.bind_eq_some_iff.1 h
  split at h
  · rename_i hend
    exact List.isEmpty_iff.1 hend ▸ hread
  · cases h

end Literal

namespace Instant

open Literal

variable {text : List Char} {t : Instant}

/-- Whichever form a literal has, it has been read to the end, but for the blanks around it. -/
theorem reads_trim_of_ofLiteral? (h : ofLiteral? text = some t) : Reads (trim text) [] := by
  have hspace : ∀ {text rest}, (some ∘ trimStart) text = some rest → Reads text rest := by
    rintro text rest ⟨⟩
    exact reads_trimStart text
  simp only [ofLiteral?, Option.orElse_eq_orElse, Option.orElse_eq_or, Option.or_eq_some_iff] at h
  -- the six forms in their order
  rcases h with h | ⟨_, h | ⟨_, h | ⟨_, h | ⟨_, h | ⟨_, h⟩⟩⟩⟩⟩
  · exact reads_plainDate? h
  · exact reads_dateTime? (reads_char? (by decide)) reads_seconds? h
  · exact reads_dateTime? hspace reads_seconds? h
  · exact reads_dateTime? (reads_char? (by decide)) reads_minutes? h
  · exact reads_dateTime? hspace reads_minutes? h
  · exact reads_timestamp? h

/-- **Literals are made of digits, blanks and marks**; no other character is in one.  What is not
    blank is left by trimming, and what is left has been read. -/
theorem isLiteralChar_of_ofLiteral? (h : ofLiteral? text = some t) {c : Char} (hc : c ∈ text) :
    isLiteralChar c = true := by
  cases hblank : isBlank c with
  | true => exact isLiteralChar_of_isBlank hblank
  | false => exact (reads_trim_of_ofLiteral? h).all c (mem_trim_of_mem hc hblank)

end Instant

end GanttChart
