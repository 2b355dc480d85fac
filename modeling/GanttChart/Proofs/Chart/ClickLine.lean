/-
  Links on a click line.

  What a link may hold and what a click line can carry are two grammars.  A line is cut at its
  commas into exactly three fields, and a URL cannot quote them, while the tail of a web link may
  hold commas.  So a link can be written on a line exactly if it holds none
  (`ofText_withLine_goTo`); every other character of a link is read back as it is.

  Both directions are about one line behind an accepted text.  Without a comma the line has its three
  fields and is read as an event.  With one it has four or more, and the count of fields is checked
  before anything else is looked at.
-/
import GanttChart.Proofs.Chart.Actions
import GanttChart.Proofs.Chart.Link
import GanttChart.Proofs.Schedule.Entry

namespace GanttChart

open GanttChart.Text

/-- The empty text is no link. -/
theorem Link.ne_empty_of_isValid {scheme url : String} (h : Link.isValid scheme url = true) :
    url ≠ "" := by
  rintro rfl
  rw [isValid, Bool.or_eq_true] at h
  rcases h with h | h
  · exact absurd h (by decide)
  · obtain ⟨rest, hrest, _⟩ := isDeep_iff.1 h
    simp at hrest

namespace Schedule

variable {s : Schedule} {id url : String}

/-- A URL with commas makes too many fields.  The blanks around the line are trimmed with it, but
    neither the id nor the URL has any at the ends, so the body in the message is the line as it
    was written. -/
theorem newEvent_of_comma (hid : IsId id) (hcomma : ',' ∈ url.toList)
    (htrim : trim url.toList = url.toList) :
    s.newEvent (bodyOf [id, "goto", url]) = .error (.clickFields (id ++ ",goto," ++ url)) := by
  have hne : url ≠ "" := by
    rintro rfl
    cases hcomma
  have hlast : ∀ c, url.toList.getLast? = some c → isBlank c = false :=
    fun _ => isBlank_of_getLast?_of_trim_eq htrim
  have hstart : trimStart id.toList = id.toList := trimStart_eq_self hid.head_not_blank
  have hlength : (fields (bodyOf [id, "goto", url])).length ≠ 3 := by
    -- the URL comes last, so all its commas cut it into further fields
    have hbody : fields (bodyOf [id, "goto", url]) =
        [id.toList, "goto".toList] ++ fields url.toList := by
      refine (fields_bodyOf id ["goto"] hne hlast).trans ?_
      rw [hstart, fields_eq_singleton hid.comma_notMem]
      simp [fields_eq_singleton]
    have hmany := one_lt_length_fields hcomma
    rw [hbody, List.length_append]
    show 2 + _ ≠ 3
    omega
  -- the body that the fault repeats
  have htext : bodyOf [id, "goto", url] = (id ++ ",goto," ++ url).toList := by
    have hmiddle := trim_intercalate id.toList ["goto".toList] (by simpa using hne) hlast
    rw [hstart] at hmiddle
    refine hmiddle.trans ?_
    simp [List.intercalate]
  rw [newEvent_eq_error hlength, htext, String.ofList_toList]

/-- **Which links a click line can carry.**  Behind an accepted text, a click on an item of it with
    a link is read with exactly that URL, which the chart then opens, if the link holds no comma;
    otherwise the line has too many fields. -/
theorem ofText_withLine_goTo {text scheme : String} {item : Item} (h : ofText text = .ok s)
    (hitem : item ∈ s.items) (hvalid : Link.isValid scheme url = true) (hn : '\n' ∉ url.toList)
    (htrim : trim url.toList = url.toList) :
    (',' ∉ url.toList →
      ofText (withLine text (Keyword.click.line [item.id, "goto", url])) =
          .ok { s with events := s.events ++ [{ target := item.id, kind := .goTo, url }] } ∧
        Event.action scheme { target := item.id, kind := .goTo, url } = .ok (.navigate url)) ∧
    (',' ∈ url.toList →
      ofText (withLine text (Keyword.click.line [item.id, "goto", url])) =
        .error { line := (lines text.toList).length + 1,
                 fault := .clickFields (item.id ++ ",goto," ++ url) }) := by
  have hid : IsId item.id := isId_of_mem_items h hitem
  have hthere : s.contains item.id = true := contains_iff.2 ⟨item, hitem, rfl⟩
  have hline : ∀ field ∈ [item.id, "goto", url], '\n' ∉ field.toList := by
    simpa using ⟨newline_notMem_of_mem_items h hitem, hn⟩
  constructor
  · intro hcomma
    constructor
    · refine (ofText_withLine_click h hline).2 ?_
      exact newEvent_of_fields .goTo hid hthere hcomma (Link.ne_empty_of_isValid hvalid) htrim
    · rw [Event.action_eq, if_pos hvalid]
      rfl
  · intro hcomma
    rw [ofText_withLine_line h .click hline, addStatement, newEvent_of_comma hid hcomma htrim]
    rfl

/-- A link whose tail has other marks than a comma. -/
theorem ofText_withLine_goTo_task :
    ∃ s item, ofText "task T,a,,2024-01-01,1D" = .ok s ∧ item ∈ s.items ∧ item.id = "a" ∧
      ofText (withLine "task T,a,,2024-01-01,1D"
          (Keyword.click.line [item.id, "goto", "https://example.com/a;b=(1)"])) =
        .ok { s with events := s.events ++
          [{ target := item.id, kind := .goTo, url := "https://example.com/a;b=(1)" }] } ∧
      Event.action "obsidian"
          { target := item.id, kind := .goTo, url := "https://example.com/a;b=(1)" } =
        .ok (.navigate "https://example.com/a;b=(1)") := by
  obtain ⟨s, item, hs, hitem, hid, _⟩ :=
    exists_item_of_map "task T,a,,2024-01-01,1D" "a" "b" (by decide +kernel)
  have hvalid : Link.isValid "obsidian" "https://example.com/a;b=(1)" = true := by decide +kernel
  obtain ⟨hread, haction⟩ :=
    (ofText_withLine_goTo hs hitem hvalid (by decide) (by decide)).1 (by decide)
  exact ⟨s, item, hs, hitem, hid, hread, haction⟩

/-- A link with a comma, on a line that has four fields by it. -/
theorem ofText_refuses_link :
    ∃ s item, ofText "task T,a,,2024-01-01,1D" = .ok s ∧ item ∈ s.items ∧ item.id = "a" ∧
      Link.isValid "obsidian" "https://example.com/a,b" = true ∧
      ofText (withLine "task T,a,,2024-01-01,1D"
          (Keyword.click.line [item.id, "goto", "https://example.com/a,b"])) =
        .error { line := 2, fault := .clickFields "a,goto,https://example.com/a,b" } := by
  obtain ⟨s, item, hs, hitem, hid, _⟩ :=
    exists_item_of_map "task T,a,,2024-01-01,1D" "a" "b" (by decide +kernel)
  refine ⟨s, item, hs, hitem, hid, by decide +kernel, ?_⟩
  rw [hid]
  decide +kernel

end Schedule

end GanttChart
