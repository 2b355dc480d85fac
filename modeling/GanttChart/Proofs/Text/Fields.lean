/-
  Cutting texts that are put together.

  1. **Fields.**  A comma ends the fields before it and begins those after it
     (`fields_append_comma`), and a text without one is a single field.  So texts without commas are
     read back from the text that joins them, and one with commas falls apart into more fields.

  2. **Words.**  A text that is not empty is read back as one word exactly if it holds no blank
     (`words_eq_singleton_iff`).

  3. **Halves.**  A text can be broken exactly if the marker is somewhere in it
     (`isSome_breakOn?_iff`).
-/
import GanttChart.Proofs.Text.Trim
import GanttChart.Text.Words

namespace GanttChart.Text

/-! ## Fields -/

/-- A comma keeps the fields apart. -/
theorem fields_append_comma (front rest : List Char) :
    fields (front ++ ',' :: rest) = fields front ++ fields rest :=
  List.splitOnP_append_cons front rest (by simp)

/-- A text without commas is a field. -/
theorem fields_eq_singleton {text : List Char} (h : ',' ∉ text) : fields text = [text] :=
  List.splitOn_eq_singleton h

/-- A text with a comma has at least two fields. -/
theorem one_lt_length_fields {text : List Char} (h : ',' ∈ text) : 1 < (fields text).length := by
  obtain ⟨front, rest, rfl⟩ := List.append_of_mem h
  rw [fields_append_comma, List.length_append]
  have hfront := List.length_pos_of_ne_nil (fields_ne_nil front)
  have hrest := List.length_pos_of_ne_nil (fields_ne_nil rest)
  omega

/-- The fields of joined texts are those of each. -/
theorem fields_intercalate {texts : List (List Char)} (hne : texts ≠ []) :
    fields ([','].intercalate texts) = texts.flatMap fields := by
  induction texts with
  | nil => exact absurd rfl hne
  | cons first texts ih =>
    by_cases hrest : texts = []
    · simp [hrest]
    · rw [List.intercalate_cons_of_ne_nil hrest, List.append_assoc, List.singleton_append,
        fields_append_comma, ih hrest, List.flatMap_cons]

/-- Joining texts adds nothing but commas. -/
theorem mem_intercalate_iff {c : Char} (hc : c ≠ ',') {texts : List (List Char)} :
    c ∈ [','].intercalate texts ↔ ∃ text ∈ texts, c ∈ text := by
  induction texts with
  | nil => simp
  | cons first texts ih =>
    by_cases hrest : texts = []
    · simp [hrest]
    · rw [List.intercalate_cons_of_ne_nil hrest]
      simp [hc, ih]

/-- What holds of all characters of texts and of what stands between them holds of them joined. -/
theorem forall_mem_intercalate {p : Char → Prop} {separator : List Char}
    (hseparator : ∀ c ∈ separator, p c) {texts : List (List Char)}
    (h : ∀ text ∈ texts, ∀ c ∈ text, p c) : ∀ c ∈ separator.intercalate texts, p c := by
  induction texts with
  | nil => exact fun _ h => nomatch h
  | cons first texts ih =>
    obtain ⟨hfirst, hrest⟩ := List.forall_mem_cons.1 h
    by_cases hne : texts = []
    · simpa [hne] using hfirst
    · rw [List.intercalate_cons_of_ne_nil hne]
      exact List.forall_mem_append.2
        ⟨List.forall_mem_append.2 ⟨hfirst, hseparator⟩, ih hrest⟩

/-- A field holds only characters of the text. -/
theorem mem_of_mem_fields {c : Char} {field text : List Char} (hfield : field ∈ fields text)
    (h : c ∈ field) : c ∈ text := by
  have hc : c ≠ ',' := by
    rintro rfl
    exact comma_notMem_of_mem_fields hfield h
  rw [← intercalate_fields text]
  exact (mem_intercalate_iff hc).2 ⟨field, hfield, h⟩

/-- Joined texts end like the last of them. -/
theorem getLast?_intercalate_concat (texts : List (List Char)) {last : List Char}
    (hne : last ≠ []) : ([','].intercalate (texts ++ [last])).getLast? = last.getLast? := by
  induction texts with
  | nil => simp
  | cons first texts ih =>
    rw [List.cons_append, List.intercalate_cons_of_ne_nil (by simp),
      List.getLast?_append_of_ne_nil, ih]
    intro hnil
    rw [hnil] at ih
    exact hne (List.getLast?_eq_none_iff.1 ih.symm)

/-- Trimming joined texts of which the last ends without a blank touches only the first. -/
theorem trim_intercalate (first : List Char) (middle : List (List Char)) {last : List Char}
    (hne : last ≠ []) (hlast : ∀ c, last.getLast? = some c → isBlank c = false) :
    trim ([','].intercalate (first :: (middle ++ [last]))) =
      [','].intercalate (trimStart first :: (middle ++ [last])) := by
  have hjoin : ∀ front : List Char, [','].intercalate (front :: (middle ++ [last])) =
      front ++ ',' :: [','].intercalate (middle ++ [last]) := by
    intro front
    rw [List.intercalate_cons_of_ne_nil (by simp), List.append_assoc, List.singleton_append]
  rw [hjoin, hjoin, trim, trimStart_append_cons (by decide), ← hjoin, trimEnd_eq_self]
  rw [← List.cons_append, getLast?_intercalate_concat _ hne]
  exact hlast

/-- So the fields of such a text are those of its parts, with the first part trimmed at its
    start. -/
theorem fields_trim_intercalate (first : List Char) (middle : List (List Char)) {last : List Char}
    (hne : last ≠ []) (hlast : ∀ c, last.getLast? = some c → isBlank c = false) :
    fields (trim ([','].intercalate (first :: (middle ++ [last])))) =
      fields (trimStart first) ++ (middle ++ [last]).flatMap fields := by
  rw [trim_intercalate first middle hne hlast, fields_intercalate (by simp), List.flatMap_cons]

/-! ## Words -/

/-- A text is a word exactly if it has no blank. -/
theorem words_eq_singleton_iff {text : List Char} (hne : text ≠ []) :
    words text = [text] ↔ ∀ c ∈ text, isBlank c = false := by
  constructor
  · intro h c hc
    exact isBlank_of_mem_words (h ▸ List.mem_singleton_self text) hc
  · intro h
    rw [words, List.splitOnP_eq_singleton h]
    simp [hne]

/-! ## Halves -/

/-- A text is broken at the first place where the marker stands, so it is enough that it stands
    somewhere. -/
theorem isSome_breakOn?_iff {marker text : List Char} (hne : marker ≠ []) :
    (breakOn? marker text).isSome = true ↔ marker <:+: text := by
  induction text with
  | nil => simp [breakOn?, hne]
  | cons c text ih =>
    rw [breakOn?, List.infix_cons_iff]
    split
    · rename_i after hafter
      have hstarts : marker <+: c :: text :=
        ⟨after, List.isPrefixOf?_eq_some_iff_append_eq.1 hafter⟩
      simp [hstarts]
    · rename_i hnone
      have hstarts : ¬ marker <+: c :: text := by
        rintro ⟨after, hafter⟩
        rw [List.isPrefixOf?_eq_some_iff_append_eq.2 hafter] at hnone
        cases hnone
      rw [Option.isSome_map, ih]
      simp [hstarts]

end GanttChart.Text
