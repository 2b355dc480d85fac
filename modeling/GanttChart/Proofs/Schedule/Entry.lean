/-
  One more statement of given fields.

  1. **The line.**  `Keyword.line` writes a statement from its fields.  Behind an accepted text it
     is read as that statement, among what the text describes (`ofText_withLine_line`), and fields
     without commas are read back (`fields_bodyOf_of_notMem`).

  2. **The ids.**  An id of an accepted text stands on one line (`newline_notMem_of_mem_items`) and
     is read as itself between commas (`IsId.fieldText_eq`), so it can be written again.

  3. **The readers.**  A click on an item that is there is read as it is written
     (`newEvent_of_fields`); one with another number of fields than three is refused.
-/
import GanttChart.Proofs.Schedule.Source
import GanttChart.Proofs.Text.Fields

namespace GanttChart

open GanttChart.Outcome GanttChart.Text

/-! ## The line

  Fields are joined by commas behind the keyword.  Blanks around the body are cut off before it
  is split, so the first field may lose blanks in front; the last one keeps all if it does not
  end with one. -/

namespace Keyword

variable (keyword : Keyword) (fields : List String)

/-- A statement with the given fields, as a line. -/
def line : String := String.ofList keyword.opening ++ ",".intercalate fields

/-- The characters of the line. -/
theorem toList_line :
    (keyword.line fields).toList =
      keyword.opening ++ [','].intercalate (fields.map String.toList) := by
  rw [line, String.toList_append, String.toList_ofList, String.toList_intercalate]
  rfl

/-- The line is not empty, for no keyword is. -/
theorem line_ne_empty : keyword.line fields ≠ "" := by
  intro h
  have hnil : (keyword.line fields).toList = [] := by
    rw [h]
    rfl
  rw [toList_line, List.append_eq_nil_iff] at hnil
  cases keyword <;> cases hnil.1

/-- Fields on one line make a statement on one line. -/
theorem newline_notMem_line {fields : List String} (h : ∀ field ∈ fields, '\n' ∉ field.toList) :
    '\n' ∉ (keyword.line fields).toList := by
  have hopening : '\n' ∉ keyword.opening := by cases keyword <;> decide
  rw [toList_line, List.mem_append, mem_intercalate_iff (by decide)]
  rintro (hmem | ⟨field, hfield, hmem⟩)
  · exact hopening hmem
  · obtain ⟨text, htext, rfl⟩ := List.mem_map.1 hfield
    exact h text htext hmem

end Keyword

/-- The body of a statement with the given fields. -/
def bodyOf (fields : List String) : List Char := trim ([','].intercalate (fields.map String.toList))

/-- The line is the statement that it was made for. -/
theorem Line.ofText_line (keyword : Keyword) (fields : List String) :
    Line.ofText (keyword.line fields).toList = .statement keyword (bodyOf fields) := by
  rw [keyword.toList_line, Line.ofText_opening, bodyOf]

/-- The fields of the body are the given ones, the first without the blanks in front of it, and a
    field that holds commas is several. -/
theorem fields_bodyOf (first : String) (middle : List String) {last : String} (hne : last ≠ "")
    (hlast : ∀ c, last.toList.getLast? = some c → isBlank c = false) :
    fields (bodyOf (first :: (middle ++ [last]))) =
      fields (trimStart first.toList) ++
        (middle ++ [last]).flatMap fun field => fields field.toList := by
  have hnil : last.toList ≠ [] := by simpa using hne
  rw [bodyOf, List.map_cons, List.map_append, List.map_singleton,
    fields_trim_intercalate first.toList _ hnil hlast, ← List.map_singleton, ← List.map_append,
    List.flatMap_map]

/-- Fields without commas are read back, the first without the blanks in front of it. -/
theorem fields_bodyOf_of_notMem (first : String) (middle : List String) {last : String}
    (hne : last ≠ "") (hlast : ∀ c, last.toList.getLast? = some c → isBlank c = false)
    (hfirst : ',' ∉ first.toList) (hrest : ∀ field ∈ middle ++ [last], ',' ∉ field.toList) :
    fields (bodyOf (first :: (middle ++ [last]))) =
      trimStart first.toList :: (middle ++ [last]).map String.toList := by
  have hstart : ',' ∉ trimStart first.toList :=
    fun hmem => hfirst ((List.dropWhile_sublist isBlank).mem hmem)
  have hsingle : ∀ field ∈ middle ++ [last], fields field.toList = [field.toList] :=
    fun field hfield => fields_eq_singleton (hrest field hfield)
  rw [fields_bodyOf first middle hne hlast, fields_eq_singleton hstart, List.singleton_append,
    List.map_eq_flatMap, List.flatMap_congr hsingle]

example : Keyword.click.line ["a", "goto", "b.co"] = "click a,goto,b.co" := by decide

namespace Schedule

/-- **A statement behind an accepted text** is read among what the text describes. -/
theorem ofText_withLine_line {text : String} {s : Schedule} (h : ofText text = .ok s)
    (keyword : Keyword) {fields : List String} (hn : ∀ field ∈ fields, '\n' ∉ field.toList) :
    ofText (withLine text (keyword.line fields)) =
      (s.addStatement (bodyOf fields) keyword).mapError fun fault =>
        { line := (lines text.toList).length + 1, fault } := by
  rw [ofText_withLine h (keyword.line_ne_empty fields) (keyword.newline_notMem_line hn), addLines,
    addLine, Line.ofText_line]
  dsimp only
  cases s.addStatement (bodyOf fields) keyword <;> rfl

/-- A milestone behind an accepted text is the one that is read from its body. -/
theorem ofText_withLine_milestone {text : String} {s : Schedule} (h : ofText text = .ok s)
    {fields : List String} (hn : ∀ field ∈ fields, '\n' ∉ field.toList) {milestone : Item} :
    ofText (withLine text (Keyword.milestone.line fields)) =
        .ok { s with milestones := s.milestones ++ [milestone] } ↔
      s.newMilestone (bodyOf fields) = .ok milestone := by
  rw [ofText_withLine_line h .milestone hn, mapError_eq_ok_iff, addStatement, map_eq_ok_iff]
  simp

/-- And so is a click. -/
theorem ofText_withLine_click {text : String} {s : Schedule} (h : ofText text = .ok s)
    {fields : List String} (hn : ∀ field ∈ fields, '\n' ∉ field.toList) {event : Event} :
    ofText (withLine text (Keyword.click.line fields)) =
        .ok { s with events := s.events ++ [event] } ↔
      s.newEvent (bodyOf fields) = .ok event := by
  rw [ofText_withLine_line h .click hn, mapError_eq_ok_iff, addStatement, map_eq_ok_iff]
  simp

end Schedule

/-! ## The ids

  An id is a field of some line.  So it can be written in a line again: it holds no comma, no
  line feed and no blanks around it. -/

section Id

variable {id : String} (h : IsId id)

include h

/-- An id has characters. -/
theorem IsId.toList_ne_nil : id.toList ≠ [] := by
  simpa using h.ne_empty

/-- There are no blanks around an id. -/
theorem IsId.trim_eq : trim id.toList = id.toList :=
  trim_eq_self h.head_not_blank h.last_not_blank

/-- An id is read as itself. -/
theorem IsId.fieldText_eq : Schedule.fieldText id.toList = id := by
  rw [Schedule.fieldText, h.trim_eq, String.ofList_toList]

end Id

namespace Line

/-- A statement found among keywords is what stands behind one of them. -/
theorem statement?_eq_some {text : List Char} {keywords : List Keyword} {line : Line}
    (h : statement? text keywords = some line) :
    ∃ keyword rest, keyword.body? text = some rest ∧ line = .statement keyword (trim rest) := by
  induction keywords with
  | nil => cases h
  | cons keyword keywords ih =>
    rw [statement?] at h
    split at h
    · rename_i rest hbody
      cases h
      exact ⟨keyword, rest, hbody, rfl⟩
    · exact ih h

/-- The body of a statement holds only characters of its line. -/
theorem mem_of_mem_body {text body : List Char} {keyword : Keyword}
    (h : ofText text = .statement keyword body) {c : Char} (hc : c ∈ body) : c ∈ text := by
  unfold ofText at h
  dsimp only at h
  cases hfound : statement? (trimStart text) Keyword.all with
  | none =>
    rw [hfound, Option.getD_none, withoutKeyword] at h
    split at h <;> cases h
  | some line =>
    obtain ⟨found, rest, hbody, rfl⟩ := statement?_eq_some hfound
    rw [hfound] at h
    cases h
    obtain ⟨spelling, _, hsplit⟩ := dropFront?_eq_some_iff.1 hbody
    have hstart : c ∈ trimStart text := by
      rw [hsplit]
      exact List.mem_append_right spelling (mem_of_mem_trim hc)
    exact (List.dropWhile_sublist isBlank).mem hstart

/-- The id that a line declares holds only characters of the line. -/
theorem mem_of_mem_declaredId {text : List Char} {id : String}
    (h : (ofText text).declaredId? = some id) {c : Char} (hc : c ∈ id.toList) : c ∈ text := by
  have hfield : ∀ keyword body, ofText text = .statement keyword body →
      (fields body)[1]?.map Schedule.fieldText = some id → c ∈ text := by
    intro keyword body hline hid
    obtain ⟨field, hfield, rfl⟩ := Option.map_eq_some_iff.1 hid
    rw [Schedule.fieldText, String.toList_ofList] at hc
    exact mem_of_mem_body hline
      (mem_of_mem_fields (List.mem_of_getElem? hfield) (mem_of_mem_trim hc))
  cases hline : ofText text with
  | ignored =>
    rw [hline] at h
    cases h
  | unknown =>
    rw [hline] at h
    cases h
  | statement keyword body =>
    rw [hline] at h
    cases keyword with
    | task => exact hfield .task body hline h
    | milestone => exact hfield .milestone body hline h
    | option => cases h
    | click => cases h
    | group => cases h

end Line

namespace Schedule

variable {text : String} {s : Schedule} {item : Item}

/-- The ids of an accepted text are ids. -/
theorem isId_of_mem_items (h : ofText text = .ok s) (hitem : item ∈ s.items) : IsId item.id :=
  (wellFormed_of_addLines h).isId item hitem

/-- A text that is read as one item, of an id that differs from another one. -/
theorem exists_item_of_map (text id other : String)
    (h : ((ofText text).map fun s => (s.items.map Item.id, s.contains other)) = .ok ([id], false)) :
    ∃ s item, ofText text = .ok s ∧ item ∈ s.items ∧ item.id = id ∧ s.contains other = false := by
  obtain ⟨s, hs, hpair⟩ := map_eq_ok_iff.1 h
  obtain ⟨hids, hother⟩ := Prod.mk.inj hpair
  obtain ⟨item, hitems, hid⟩ := List.map_eq_singleton_iff.1 hids
  exact ⟨s, item, hs, by simp [hitems], hid, hother⟩

/-- **No id of an accepted text holds a line feed**, for a line declares it. -/
theorem newline_notMem_of_mem_items (h : ofText text = .ok s) (hitem : item ∈ s.items) :
    '\n' ∉ item.id.toList := by
  obtain ⟨k, _, hdeclares⟩ := (wellFormed_of_addLines h).exists_declares hitem
  obtain ⟨line, hline, hid⟩ := Option.bind_eq_some_iff.1 hdeclares
  rw [List.getElem?_map] at hline
  obtain ⟨chars, hchars, rfl⟩ := Option.map_eq_some_iff.1 hline
  intro hmem
  exact newline_notMem_of_mem_lines (List.mem_of_getElem? hchars)
    (Line.mem_of_mem_declaredId hid hmem)

/-! ## The readers -/

/-- With the right number of fields, a milestone is read from them. -/
theorem newMilestone_eq {body title id style date : List Char} {optional : List (List Char)}
    (hbody : fields body = title :: id :: style :: date :: optional)
    (hlength : optional.length ≤ 2) :
    s.newMilestone body =
      (s.newItem title id style date >>= fun item => s.withOptionalFields item optional) := by
  unfold newMilestone
  rw [hbody]
  dsimp only
  rw [if_neg (by omega)]

/-- A click with more or fewer than three fields is refused. -/
theorem newEvent_eq_error {body : List Char} (h : (fields body).length ≠ 3) :
    s.newEvent body = .error (.clickFields (String.ofList body)) := by
  unfold newEvent
  split
  · rename_i id word url hbody
    rw [hbody] at h
    exact absurd rfl h
  · rfl

/-- **A click on an item that is there** is read as it is written, if its URL has no comma and no
    blanks around it. -/
theorem newEvent_of_fields {id url : String} (kind : EventKind) (hid : IsId id)
    (hthere : s.contains id = true) (hcomma : ',' ∉ url.toList) (hne : url ≠ "")
    (htrim : trim url.toList = url.toList) :
    s.newEvent (bodyOf [id, kind.keyword, url]) = .ok { target := id, kind, url } := by
  have hlast : ∀ c, url.toList.getLast? = some c → isBlank c = false :=
    fun _ => isBlank_of_getLast?_of_trim_eq htrim
  have hword : ',' ∉ kind.keyword.toList := by cases kind <;> decide
  have hkind : EventKind.ofKeyword? (trim kind.keyword.toList) = some kind := by
    cases kind <;> decide
  have hbody : fields (bodyOf [id, kind.keyword, url]) =
      [id.toList, kind.keyword.toList, url.toList] := by
    have hread := fields_bodyOf_of_notMem id [kind.keyword] hne hlast hid.comma_notMem
      (by simpa using ⟨hword, hcomma⟩)
    rwa [trimStart_eq_self hid.head_not_blank] at hread
  refine newEvent_eq_ok_iff.2 ⟨id.toList, _, url.toList, kind, hbody, ?_, hkind, ?_⟩
  · rw [hid.fieldText_eq]
    exact hthere
  · rw [hid.fieldText_eq, fieldText, htrim, String.ofList_toList]

end Schedule

end GanttChart
