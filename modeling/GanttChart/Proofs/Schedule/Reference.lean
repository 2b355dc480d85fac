/-
  Which ids can be referred to.

  An id is any text between commas, without blanks around it.  A line refers to an item in three
  places, and each reads ids by its own rule:

  1. **Dependencies** are separated by blanks, so an id can stand there exactly if it holds none
     (`newMilestone_dependency_iff`).

  2. **Dates** are cut at the word `after` between spaces, which may stand only once, so an id can
     be counted from exactly if it does not hold it (`newMilestone_after_iff`).

  3. **Clicks** name their item between commas, so any id will do (`newEvent_of_fields`).

  `ofText_withLine_refers` puts them together for one more line behind an accepted text.
-/
import GanttChart.Proofs.Calendar.Literal
import GanttChart.Proofs.Schedule.Entry

namespace GanttChart

open GanttChart.Outcome GanttChart.Text

/-! ## Moving by nothing -/

/-- No milliseconds later is the same instant, also within a leap second. -/
theorem Instant.addMilliseconds?_zero (t : Instant) : t.addMilliseconds? 0 = some t := by
  obtain ⟨date, second, nanosecond, hsecond, hnanosecond, hleap⟩ := t
  show addNanoseconds? _ 0 = _
  unfold addNanoseconds?
  simp only [Int.zero_tdiv, Int.zero_tmod]
  split
  · -- within a leap second the nanoseconds are past a second, and have to stay so
    rw [dif_neg (by omega), if_neg (by omega)]
    simp
  · have hwhole : (second : Int) + 0 + ((nanosecond : Int) + 0) / 1000000000 = second := by omega
    have hday : date.number + (second : Int) / 86400 = date.number := by omega
    have hleft : ((second : Int) % 86400).toNat = second := by omega
    have hpart : (((nanosecond : Int) + 0) % 1000000000).toNat = nanosecond := by omega
    simp only [carry?, hwhole, hday, date.ofNumber?_number, hleft, hpart, Option.map_some]

/-- A duration of no days leads nowhere else. -/
theorem Duration.after_zero (t : Instant) : Duration.after t "0D".toList = .ok t := by
  have hunit : "0D".toList.getLast?.bind TimeUnit.ofLetter? = some .day := by decide
  have hamount : Duration.amount? "0D".toList.dropLast = some 0 := by decide +kernel
  have hadd : TimeUnit.add? .day t 0 = some t := by
    have hround : ((0 : Binary64) * 86400000).round = 0 := by decide +kernel
    have hnear : (!Binary64.isFinite 0 || Binary64.lt 9e15 (Binary64.abs 0)) = false := by
      decide +kernel
    have hwhole : Binary64.toInt 0 = 0 := by decide +kernel
    rw [TimeUnit.add?, TimeUnit.addRounded?, hround, hnear, if_neg Bool.false_ne_true, hwhole]
    exact Instant.addMilliseconds?_zero t
  unfold Duration.after
  rw [hunit, hamount]
  dsimp only
  rw [hadd]

/-! ## Date fields -/

namespace DateField

/-- A literal is no relative date. -/
theorem ofText_of_ofLiteral? {text : List Char} {t : Instant}
    (h : Instant.ofLiteral? text = some t) : ofText text = .ok (.literal text) := by
  -- Both markers hold a letter that no literal has.
  have hf : 'f' ∉ text := by
    intro hmem
    exact absurd (Instant.isLiteralChar_of_ofLiteral? h hmem) (by decide)
  have hfront : openingMarker.isPrefixOf? text = none := by
    cases hcut : openingMarker.isPrefixOf? text with
    | none => rfl
    | some reference =>
      rw [List.isPrefixOf?_eq_some_iff_append_eq] at hcut
      exact absurd (hcut ▸ List.mem_append_left reference (by decide)) hf
  have hinside : breakOn? marker text = none := by
    rw [← Option.not_isSome_iff_eq_none, isSome_breakOn?_iff (by decide)]
    intro hmarker
    exact hf (hmarker.subset (by decide))
  rw [ofText, hfront, hinside]

/-- A date that counts from an id is cut at the word before it, and refused if the id holds that
    word too. -/
theorem ofText_zero_after (reference : List Char) :
    ofText ("0D after ".toList ++ reference) =
      if (breakOn? marker reference).isSome
      then .error (.relativeDate (String.ofList ("0D after ".toList ++ reference)))
      else .ok (.relative "0D".toList (trim reference)) := by
  rfl

end DateField

namespace Schedule

variable {s : Schedule}

/-- A literal means the same instant in every schedule. -/
theorem instant_of_ofLiteral? {text : List Char} {t : Instant}
    (h : Instant.ofLiteral? text = some t) : s.instant (trim text) = .ok t := by
  have htrim : Instant.ofLiteral? (trim text) = some t := by
    rw [← h, Instant.ofLiteral?, Instant.ofLiteral?, trim_trim]
  rw [instant, DateField.ofText_of_ofLiteral? htrim]
  show Instant.ofLiteral (trim text) = .ok t
  rw [Instant.ofLiteral, htrim]

/-- The date counts from the item exactly if the id does not hold the word before it. -/
theorem instant_zero_after_iff {reference : String} {anchor t : Instant}
    (htrim : trim reference.toList = reference.toList)
    (hanchor : s.anchor? reference = some anchor) :
    s.instant ("0D after " ++ reference).toList = .ok t ↔
      t = anchor ∧ ¬ DateField.marker <:+: reference.toList := by
  rw [String.toList_append, instant, DateField.ofText_zero_after, htrim]
  by_cases hmarker : DateField.marker <:+: reference.toList
  · rw [if_pos ((isSome_breakOn?_iff (by decide)).2 hmarker)]
    constructor
    · intro h
      cases h
    · rintro ⟨_, hnot⟩
      exact absurd hmarker hnot
  · rw [if_neg (by rwa [isSome_breakOn?_iff (by decide)])]
    have hresolve : s.resolve (.relative "0D".toList reference.toList) = .ok anchor := by
      rw [resolve, String.ofList_toList, hanchor]
      exact Duration.after_zero anchor
    show s.resolve (.relative "0D".toList reference.toList) = .ok t ↔ _
    rw [hresolve, Except.ok.injEq]
    constructor
    · rintro rfl
      exact ⟨rfl, hmarker⟩
    · rintro ⟨rfl, _⟩
      rfl

/-! ## Anchors -/

/-- The instant that dates count from at an id: the end of a task or the instant of a milestone. -/
def IsAnchor (s : Schedule) (id : String) (t : Instant) : Prop :=
  (∃ task ∈ s.tasks, task.id = id ∧ task.finish = t) ∨
    ∃ milestone ∈ s.milestones, milestone.id = id ∧ milestone.start = t

/-- Every id that a schedule contains has an anchor. -/
theorem exists_anchor {id : String} (h : s.contains id = true) :
    ∃ t, s.anchor? id = some t ∧ s.IsAnchor id t := by
  rw [← anchor?_isSome] at h
  obtain ⟨t, ht⟩ := Option.isSome_iff_exists.1 h
  refine ⟨t, ht, ?_⟩
  unfold anchor? at ht
  split at ht
  · rename_i task htask
    cases ht
    exact .inl ⟨task, List.mem_of_find?_eq_some htask, by simpa using List.find?_some htask, rfl⟩
  · obtain ⟨milestone, hmilestone, hstart⟩ := Option.map_eq_some_iff.1 ht
    exact .inr ⟨milestone, List.mem_of_find?_eq_some hmilestone,
      by simpa using List.find?_some hmilestone, hstart⟩

/-! ## The three places

  Each place is described by what a milestone line comes to: it is read with the reference as it
  is meant, exactly if the id is fit for the place. -/

/-- What a milestone line says with its first four fields, the last of them meaning `start`. -/
def milestoneOf (s : Schedule) (title id style : String) (start : Instant) : Item :=
  { id := fieldText id.toList, title := fieldText title.toList, style := fieldText style.toList,
    start, group := s.currentGroup? }

section Places

variable {title id style : String} {milestone : Item}

/-- A milestone of a new id is read from its date and its dependencies. -/
theorem newMilestone_of_fields {body date : List Char} {optional : List (List Char)}
    (hbody : fields body = trimStart title.toList :: id.toList :: style.toList :: date :: optional)
    (hlength : optional.length ≤ 1) (hid : fieldText id.toList ≠ "")
    (hfresh : s.contains (fieldText id.toList) = false) :
    s.newMilestone body = .ok milestone ↔
      ∃ start dependencies, s.instant (trim date) = .ok start ∧
        optional.head?.elim (.ok []) s.dependencies = .ok dependencies ∧
        milestone = { s.milestoneOf title id style start with dependencies } := by
  have hne : trim id.toList ≠ [] := by
    intro hnil
    exact hid (by rw [fieldText, hnil])
  have hname : s.freshId id.toList = .ok (fieldText id.toList) :=
    freshId_eq_ok_iff.2 ⟨rfl, hne, hfresh⟩
  -- the blanks in front of the title are cut off in any case
  have htitle : fieldText (trimStart title.toList) = fieldText title.toList := by
    rw [fieldText, fieldText, trim, trimStart_trimStart, trim]
  -- there is no field for the progress
  have hprogress : optional.tail.head? = none := by
    rcases optional with _ | ⟨first, _ | ⟨second, rest⟩⟩
    · rfl
    · rfl
    · simp at hlength
  rw [newMilestone_eq hbody (by omega), bind_eq_ok_iff]
  constructor
  · rintro ⟨item, hitem, hfull⟩
    obtain ⟨name, start, hfound, hstart, rfl⟩ := newItem_eq_ok_iff.1 hitem
    rw [hname] at hfound
    cases hfound
    rw [withOptionalFields_eq, hprogress, bind_eq_ok_iff] at hfull
    obtain ⟨dependencies, hdependencies, hfull⟩ := hfull
    cases hfull
    rw [htitle]
    exact ⟨start, dependencies, hstart, hdependencies, rfl⟩
  · rintro ⟨start, dependencies, hstart, hdependencies, rfl⟩
    refine ⟨s.milestoneOf title id style start, ?_, ?_⟩
    · refine newItem_eq_ok_iff.2 ⟨_, start, hname, hstart, ?_⟩
      rw [htitle]
      rfl
    · rw [withOptionalFields_eq, hprogress, hdependencies]
      rfl

variable {reference date : String} {start anchor : Instant}

/-- An id can stand among dependencies exactly if it holds no blank. -/
theorem newMilestone_dependency_iff (hreference : IsId reference)
    (hthere : s.contains reference = true)
    (hcomma : ∀ field ∈ [title, id, style], ',' ∉ field.toList)
    (hid : fieldText id.toList ≠ "") (hfresh : s.contains (fieldText id.toList) = false)
    (hdate : Instant.ofLiteral? date.toList = some start) :
    s.newMilestone (bodyOf [title, id, style, date, reference]) =
        .ok { s.milestoneOf title id style start with dependencies := [reference] } ↔
      ∀ c ∈ reference.toList, isBlank c = false := by
  obtain ⟨htitle, hidComma, hstyle⟩ :
      ',' ∉ title.toList ∧ ',' ∉ id.toList ∧ ',' ∉ style.toList := by simpa using hcomma
  have hdateComma : ',' ∉ date.toList := by
    intro hmem
    exact absurd (Instant.isLiteralChar_of_ofLiteral? hdate hmem) (by decide)
  have hbody := fields_bodyOf_of_notMem title [id, style, date] hreference.ne_empty
    hreference.last_not_blank htitle
    (by simpa using ⟨hidComma, hstyle, hdateComma, hreference.comma_notMem⟩)
  -- no blank inside means that the id is a single word
  rw [← words_eq_singleton_iff hreference.toList_ne_nil]
  refine (newMilestone_of_fields hbody (by simp) hid hfresh).trans ?_
  constructor
  · rintro ⟨t, dependencies, _, hdependencies, hmilestone⟩
    obtain rfl : [reference] = dependencies := congrArg Item.dependencies hmilestone
    obtain ⟨hids, _⟩ := dependencies_eq_ok_iff.1 hdependencies
    obtain ⟨word, hwords, rfl⟩ := List.map_eq_singleton_iff.1 hids.symm
    rw [hwords, String.toList_ofList]
  · intro hwords
    refine ⟨start, [reference], instant_of_ofLiteral? hdate, ?_, rfl⟩
    refine dependencies_eq_ok_iff.2 ⟨?_, ?_⟩
    · rw [hwords, List.map_singleton, String.ofList_toList]
    · simpa using hthere

/-- An id can be counted from exactly if it does not hold the word that stands before it. -/
theorem newMilestone_after_iff (hreference : IsId reference)
    (hanchor : s.anchor? reference = some anchor)
    (hcomma : ∀ field ∈ [title, id, style], ',' ∉ field.toList)
    (hid : fieldText id.toList ≠ "") (hfresh : s.contains (fieldText id.toList) = false) :
    s.newMilestone (bodyOf [title, id, style, "0D after " ++ reference]) =
        .ok (s.milestoneOf title id style anchor) ↔
      ¬ DateField.marker <:+: reference.toList := by
  obtain ⟨htitle, hidComma, hstyle⟩ :
      ',' ∉ title.toList ∧ ',' ∉ id.toList ∧ ',' ∉ style.toList := by simpa using hcomma
  have hlast : ∀ c, ("0D after " ++ reference).toList.getLast? = some c → isBlank c = false := by
    rw [String.toList_append, List.getLast?_append_of_ne_nil _ hreference.toList_ne_nil]
    exact hreference.last_not_blank
  -- the date has no blanks around it, since it begins with a digit and ends with the id
  have htrim : trim ("0D after " ++ reference).toList = ("0D after " ++ reference).toList := by
    refine trim_eq_self ?_ hlast
    intro c hc
    obtain rfl : '0' = c := by simpa using hc
    decide
  have hbody := fields_bodyOf_of_notMem title [id, style] (by simp) hlast htitle
    (by simpa using ⟨hidComma, hstyle, hreference.comma_notMem⟩)
  refine (newMilestone_of_fields hbody (by simp) hid hfresh).trans ?_
  simp only [htrim, instant_zero_after_iff hreference.trim_eq hanchor]
  constructor
  · rintro ⟨t, dependencies, ⟨_, hmarker⟩, _⟩
    exact hmarker
  · intro hmarker
    exact ⟨anchor, [], ⟨rfl, hmarker⟩, rfl, rfl⟩

end Places

/-! ## One more line -/

/-- **Which ids an additional line can refer to.**  As a dependency, an id of the text is read as it
    is exactly if it holds no blank; after `0D after` it stands for its anchor exactly if it does
    not hold the word `after` between spaces; and a click can always name it. -/
theorem ofText_withLine_refers {text title id style date : String} {item : Item} {start : Instant}
    (h : ofText text = .ok s) (hitem : item ∈ s.items)
    (hcomma : ∀ field ∈ [title, id, style], ',' ∉ field.toList)
    (hline : ∀ field ∈ [title, id, style, date], '\n' ∉ field.toList)
    (hid : fieldText id.toList ≠ "") (hfresh : s.contains (fieldText id.toList) = false)
    (hdate : Instant.ofLiteral? date.toList = some start) :
    (ofText (withLine text (Keyword.milestone.line [title, id, style, date, item.id])) =
        .ok { s with milestones := s.milestones ++
          [{ s.milestoneOf title id style start with dependencies := [item.id] }] } ↔
      ∀ c ∈ item.id.toList, isBlank c = false) ∧
    (∃ anchor, s.IsAnchor item.id anchor ∧
      (ofText (withLine text (Keyword.milestone.line [title, id, style, "0D after " ++ item.id])) =
          .ok { s with milestones := s.milestones ++ [s.milestoneOf title id style anchor] } ↔
        ¬ DateField.marker <:+: item.id.toList)) ∧
    ofText (withLine text (Keyword.click.line [item.id, "popup", "example.com"])) =
      .ok { s with events := s.events ++
        [{ target := item.id, kind := .popup, url := "example.com" }] } := by
  have hreference : IsId item.id := isId_of_mem_items h hitem
  have hthere : s.contains item.id = true := contains_iff.2 ⟨item, hitem, rfl⟩
  have hn : '\n' ∉ item.id.toList := newline_notMem_of_mem_items h hitem
  obtain ⟨htitle, hidLine, hstyle, hday⟩ :
      '\n' ∉ title.toList ∧ '\n' ∉ id.toList ∧ '\n' ∉ style.toList ∧ '\n' ∉ date.toList := by
    simpa using hline
  -- one bullet for each place
  refine ⟨?_, ?_, ?_⟩
  · refine (ofText_withLine_milestone h (by simpa using ⟨htitle, hidLine, hstyle, hday, hn⟩)).trans ?_
    exact newMilestone_dependency_iff hreference hthere hcomma hid hfresh hdate
  · obtain ⟨anchor, hanchor, hmeaning⟩ := exists_anchor hthere
    refine ⟨anchor, hmeaning, ?_⟩
    refine (ofText_withLine_milestone h (by simpa using ⟨htitle, hidLine, hstyle, hn⟩)).trans ?_
    exact newMilestone_after_iff hreference hanchor hcomma hid hfresh
  · refine (ofText_withLine_click h (by simpa using hn)).2 ?_
    exact newEvent_of_fields .popup hreference hthere (by decide) (by decide) (by decide)

/-- A task that all three kinds of line refer to. -/
theorem ofText_withLine_refers_task :
    ∃ s item start finish, ofText "task T,a,,2024-01-01,1D" = .ok s ∧ item ∈ s.items ∧
      item.id = "a" ∧ Instant.ofLiteral? "2024-01-03".toList = some start ∧
      s.IsAnchor "a" finish ∧
      ofText (withLine "task T,a,,2024-01-01,1D"
          (Keyword.milestone.line ["M", "m", "", "2024-01-03", item.id])) =
        .ok { s with milestones := s.milestones ++
          [{ s.milestoneOf "M" "m" "" start with dependencies := [item.id] }] } ∧
      ofText (withLine "task T,a,,2024-01-01,1D"
          (Keyword.milestone.line ["M", "m", "", "0D after " ++ item.id])) =
        .ok { s with milestones := s.milestones ++ [s.milestoneOf "M" "m" "" finish] } ∧
      ofText (withLine "task T,a,,2024-01-01,1D"
          (Keyword.click.line [item.id, "popup", "example.com"])) =
        .ok { s with events := s.events ++
          [{ target := item.id, kind := .popup, url := "example.com" }] } := by
  obtain ⟨s, item, hs, hitem, hid, hfresh⟩ :=
    exists_item_of_map "task T,a,,2024-01-01,1D" "a" (fieldText "m".toList) (by decide +kernel)
  obtain ⟨start, hstart⟩ : ∃ start, Instant.ofLiteral? "2024-01-03".toList = some start :=
    Option.isSome_iff_exists.1 (by decide +kernel)
  have hcomma : ∀ field ∈ ["M", "m", ""], ',' ∉ field.toList := by decide
  obtain ⟨hdependency, ⟨finish, hfinish, hafter⟩, hclick⟩ :=
    ofText_withLine_refers hs hitem hcomma (by decide) (by decide) hfresh hstart
  rw [hid] at hfinish hdependency hafter
  refine ⟨s, item, start, finish, hs, hitem, hid, hstart, hfinish, ?_, ?_, hclick⟩
  · rw [hid]
    exact hdependency.2 (List.forall_mem_singleton.2 (by decide))
  · rw [hid]
    exact hafter.2 (by decide)

/-- An id with a space reads as two as a dependency, and one with the word `after` between spaces
    makes a date that has it twice. -/
theorem ofText_refuses_references :
    (∃ s item, ofText "task T,a b,,2024-01-01,1D" = .ok s ∧ item ∈ s.items ∧ item.id = "a b" ∧
      s.contains "m" = false ∧
      ofText (withLine "task T,a b,,2024-01-01,1D"
          (Keyword.milestone.line ["M", "m", "", "2024-01-03", item.id])) =
        .error { line := 2, fault := .unknownId "a" }) ∧
    ∃ s item, ofText "task T,a after b,,2024-01-01,1D" = .ok s ∧ item ∈ s.items ∧
      item.id = "a after b" ∧ s.contains "m" = false ∧
      ofText (withLine "task T,a after b,,2024-01-01,1D"
          (Keyword.milestone.line ["M", "m", "", "0D after " ++ item.id])) =
        .error { line := 2, fault := .relativeDate "0D after a after b" } := by
  constructor
  · obtain ⟨s, item, hs, hitem, hid, hfresh⟩ :=
      exists_item_of_map "task T,a b,,2024-01-01,1D" "a b" "m" (by decide +kernel)
    refine ⟨s, item, hs, hitem, hid, hfresh, ?_⟩
    rw [hid]
    decide +kernel
  · obtain ⟨s, item, hs, hitem, hid, hfresh⟩ :=
      exists_item_of_map "task T,a after b,,2024-01-01,1D" "a after b" "m" (by decide +kernel)
    refine ⟨s, item, hs, hitem, hid, hfresh, ?_⟩
    rw [hid]
    decide +kernel

end Schedule

end GanttChart
