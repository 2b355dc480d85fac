/-
  Which characters get from a schedule into its document.

  Nothing between a text and its document looks at control characters.  `Schedule.Says` lists what a
  chart shows of a schedule: ids and styles of items, their titles and those of their groups, the URL
  of the first event on an item, the title of the chart, and the pattern of the ticks.

  1. **Layer by layer.**  The instructions of a layer say a character that XML does not allow exactly
     if the part of the schedule that the layer shows does: the grid the pattern of its labels
     (`Plan.says_axis_iff`), the layers of items and connectors the texts of items, the labels of
     groups the titles of groups that have an item.

  2. **Charts.**  So the chart says such a character exactly if the schedule does
     (`Schedule.says_layout_iff`), and then the text of the schedule does, too.
-/
import GanttChart.Drawing
import GanttChart.Proofs.Calendar.Label
import GanttChart.Proofs.Chart.Finding
import GanttChart.Proofs.Schedule.Written
import GanttChart.Proofs.Svg.Contents
import GanttChart.Proofs.Text.Wrap

namespace GanttChart

open GanttChart.Svg GanttChart.Text

/-- A text that the chart of a schedule shows holds the character. -/
inductive Schedule.Says (c : Char) (s : Schedule) : Prop
  | id {item : Item} (hitem : item ∈ s.items) (h : c ∈ item.id.toList)
  | style {item : Item} (hitem : item ∈ s.items) (h : c ∈ item.style.toList)
  /-- Blanks are lost when a title is wrapped. -/
  | title {item : Item} (hitem : item ∈ s.items) (h : c ∈ item.title.toList)
    (hblank : isBlank c = false)
  /-- The group of an item. -/
  | group {g : Nat} {group : Group} {item : Item} (hgroup : s.groups[g]? = some group)
    (hitem : item ∈ s.items) (hin : item.group = some g) (h : c ∈ group.title.toList)
    (hblank : isBlank c = false)
  /-- The first event on an item. -/
  | url {item : Item} {event : Event} (hitem : item ∈ s.items)
    (hevent : s.event? item.id = some event) (h : c ∈ event.url.toList)
  | heading {title : String} (htitle : s.options.title = some title) (h : c ∈ title.toList)
  /-- The pattern of the ticks, if there are any. -/
  | pattern (hticks : 0 < s.options.ticksDrawn) (h : c ∈ s.options.labelPattern.toList)

/-! ## Labels and styles -/

section Says

variable {c : Char} {plan : Plan}

/-- The label of a title says what of it is not blank. -/
theorem mem_lines_wrapped_iff (hc : ¬ IsChar c) {x center : Binary64} {title : String}
    {budget : Nat} {anchor : TextAnchor} :
    (∃ line ∈ (plan.label x center (Label.wrapped title budget) anchor).lines, c ∈ line.toList) ↔
      c ∈ title.toList ∧ isBlank c = false := by
  have hspace : c ≠ ' ' := ne_of_isChar hc (by decide)
  simp [Plan.label, Label.block, Shape.lines, Label.wrapped, exists_mem_wrap_iff hspace]

/-- The styles of bands hold no such character. -/
theorem Band.isClean_styleAt (position : Nat) : IsClean (styleAt position).toList := by
  unfold styleAt
  split
  · decide
  · decide

/-- An instruction without an item and a click says its style and its lines. -/
theorem Instruction.says_iff_of_none {instruction : Instruction} (hitem : instruction.item = none)
    (haction : instruction.action = none) :
    instruction.Says c ↔
      c ∈ instruction.style.toList ∨ ∃ line ∈ instruction.shape.lines, c ∈ line.toList := by
  simp [says_iff, hitem, haction]

/-- If its style is clean, only its lines can say a character that is not allowed. -/
theorem Instruction.Says.exists_line {instruction : Instruction} (h : instruction.Says c)
    (hc : ¬ IsChar c) (hitem : instruction.item = none) (haction : instruction.action = none)
    (hstyle : IsClean instruction.style.toList) :
    ∃ line ∈ instruction.shape.lines, c ∈ line.toList :=
  ((says_iff_of_none hitem haction).1 h).resolve_left (hstyle.notMem hc)

namespace Plan

/-! ## The grid -/

/-- The labels of ticks are written by the pattern, and there are ticks if any are to be drawn. -/
theorem labelledTicks_eq_ok {ticks : List (Instant × List Char)}
    (h : plan.labelledTicks = .ok ticks) :
    (∃ items,
      Pattern.fieldsOfText? (Pattern.directives plan.options.labelPattern.toList) = some items ∧
        ∀ tick ∈ ticks, Pattern.label? tick.1 items = some tick.2) ∧
      (ticks ≠ [] ↔ 0 < plan.options.ticksDrawn) := by
  unfold labelledTicks at h
  obtain ⟨count, hcount, h⟩ := Outcome.bind_eq_ok_iff.1 h
  obtain ⟨items, hitems, h⟩ := Outcome.bind_eq_ok_iff.1 h
  obtain rfl := tickCount_eq_ok hcount
  split at h
  · cases h
  · rename_i instants hinstants
    have hall := Outcome.mapM_eq_ok_iff.1 h
    refine ⟨⟨items, pattern_eq_ok_iff.1 hitems, ?_⟩, ?_⟩
    · intro tick htick
      obtain ⟨i, hi, rfl⟩ := List.getElem_of_mem htick
      have hlabelled := hall.get (by rw [hall.length_eq]; exact hi) hi
      unfold labelled at hlabelled
      split at hlabelled
      · rename_i label hlabel
        have htick : (instants.get ⟨i, _⟩, label) = ticks[i] := Except.ok.inj hlabelled
        rw [← htick]
        exact hlabel
      · cases hlabelled
    · -- there are as many ticks as instants, and these are one for each position
      have hlength : ticks.length = instants.length := hall.length_eq.symm
      rw [← List.length_pos_iff, hlength, List.length_pos_iff]
      constructor
      · intro hne
        obtain ⟨t, ht⟩ := List.exists_mem_of_ne_nil _ hne
        obtain ⟨i, hi, _⟩ := (Scale.mem_ticks_iff hinstants).1 ht
        omega
      · intro hcount
        cases hfirst : plan.scale.tick? plan.options.ticksDrawn 0 with
        | none =>
          rw [Scale.ticks?_eq_none_iff.2 ⟨0, hcount, hfirst⟩] at hinstants
          cases hinstants
        | some t => exact List.ne_nil_of_mem ((Scale.mem_ticks_iff hinstants).2 ⟨0, hcount, hfirst⟩)

/-- The axis says the characters of its pattern. -/
theorem says_axis_iff (hc : ¬ IsChar c) {ticks : List (Instant × List Char)}
    (h : plan.labelledTicks = .ok ticks) :
    (∃ instruction ∈ plan.axis ticks, instruction.Says c) ↔
      0 < plan.options.ticksDrawn ∧ c ∈ plan.options.labelPattern.toList := by
  obtain ⟨⟨items, hitems, hlabels⟩, hcount⟩ := labelledTicks_eq_ok h
  -- the items of a pattern hold the characters of it that are not allowed, as literals
  have hliteral : .literal c ∈ items ↔ c ∈ plan.options.labelPattern.toList := by
    obtain ⟨hpattern, _⟩ := Option.filter_eq_some_iff.1 hitems
    rw [Pattern.literal_mem_iff hc hpattern, Pattern.mem_directives_iff hc]
  -- the lines of the axis say a style only, and these are fixed
  have hline : ¬ plan.axisLine.Says c := by
    intro h
    have hstyle : IsClean "domain".toList := by decide
    obtain ⟨_, hnone, _⟩ := h.exists_line hc rfl rfl hstyle
    cases hnone
  have htick : ∀ t, ¬ (plan.tickLine t).Says c := by
    intro t h
    have hstyle : IsClean "tick".toList := by decide
    obtain ⟨_, hnone, _⟩ := h.exists_line hc rfl rfl hstyle
    cases hnone
  -- a label says such a character exactly if it is a literal of the pattern
  have hlabel : ∀ tick ∈ ticks, (plan.tickLabel tick.1 tick.2).Says c ↔ .literal c ∈ items := by
    intro tick hmem
    have hstyle : IsClean "tick-label".toList := by decide
    have hnone : c ∉ (plan.tickLabel tick.1 tick.2).style.toList := hstyle.notMem hc
    rw [Instruction.says_iff_of_none rfl rfl, or_iff_right hnone,
      ← Pattern.mem_label_iff hc (hlabels tick hmem)]
    simp [tickLabel, Shape.lines]
  rw [← hcount, ← hliteral]
  unfold axis drawTick
  constructor
  · rintro ⟨instruction, hi, hsaid⟩
    rcases List.mem_cons.1 hi with rfl | hi
    · exact absurd hsaid hline
    · obtain ⟨tick, hmem, hi⟩ := List.mem_flatMap.1 hi
      simp only [List.mem_cons, List.not_mem_nil, or_false] at hi
      rcases hi with rfl | rfl
      · exact absurd hsaid (htick tick.1)
      · exact ⟨List.ne_nil_of_mem hmem, (hlabel tick hmem).1 hsaid⟩
  · rintro ⟨hne, hmem⟩
    obtain ⟨tick, htick⟩ := List.exists_mem_of_ne_nil _ hne
    refine ⟨plan.tickLabel tick.1 tick.2, List.mem_cons_of_mem _ ?_, (hlabel tick htick).2 hmem⟩
    exact List.mem_flatMap.2 ⟨tick, htick, by simp⟩

/-! ## Rows -/

/-- An instruction of a row says the id and the style of its item, its URL and its own lines. -/
theorem says_itemInstruction_iff {layer : Layer} {row : Row} {shape : Shape} :
    (plan.itemInstruction layer row shape).Says c ↔
      c ∈ row.style.toList ∨ c ∈ row.id.toList ∨
        (∃ action ∈ plan.action? row.id, c ∈ action.url.toList) ∨
          ∃ line ∈ shape.lines, c ∈ line.toList := by
  rw [Instruction.says_iff]
  simp [itemInstruction]

/-- A connector says the style of its source, with a word behind it. -/
theorem says_of_mem_connector (hc : ¬ IsChar c) {edge : Edge} {instruction : Instruction}
    (hi : instruction ∈ plan.connector edge) (h : instruction.Says c) :
    ∃ row ∈ plan.rows, c ∈ row.style.toList := by
  unfold connector at hi
  split at hi
  · rename_i source target hsource _
    refine ⟨source, List.mem_of_getElem? hsource, ?_⟩
    have hpath : c ∉ " path".toList := IsClean.notMem (by decide) hc
    have hhead : c ∉ " arrow-head".toList := IsClean.notMem (by decide) hc
    split at hi
    · cases hi
    · simp only [List.mem_cons, List.not_mem_nil, or_false] at hi
      rcases hi with rfl | rfl
      · rw [Instruction.says_iff_of_none rfl rfl, String.toList_append, List.mem_append,
          or_iff_left hpath] at h
        exact h.resolve_right fun ⟨_, hnone, _⟩ => nomatch hnone
      · rw [Instruction.says_iff_of_none rfl rfl, String.toList_append, List.mem_append,
          or_iff_left hhead] at h
        exact h.resolve_right fun ⟨_, hnone, _⟩ => nomatch hnone
  · cases hi

end Plan

/-! ## Charts -/

namespace Schedule

variable {s : Schedule} {config : Config} {f : Findings}

/-- An instruction of a row says texts of its item, if its lines do. -/
theorem says_of_itemInstruction (h : s.findings config = .ok f) {layer : Layer} {row : Row}
    {shape : Shape} (hrow : row ∈ s.rows)
    (hlines : ∀ line ∈ shape.lines, c ∈ line.toList → c ∈ row.title.toList ∧ isBlank c = false)
    (hsaid : ((s.planOf config f).itemInstruction layer row shape).Says c) : s.Says c := by
  have hitem : row.toItem ∈ s.items := toItem_mem_items hrow
  rcases Plan.says_itemInstruction_iff.1 hsaid with hstyle | hid | ⟨action, haction, hurl⟩ |
    ⟨line, hline, hmem⟩
  · exact .style hitem hstyle
  · exact .id hitem hid
  · rw [planOf, Plan.action?_assemble (findings_eq_ok h).1, Option.mem_def,
      Option.map_eq_some_iff] at haction
    obtain ⟨event, hevent, rfl⟩ := haction
    rw [Event.url_link] at hurl
    exact .url hitem hevent hurl
  · obtain ⟨htitle, hblank⟩ := hlines line hline hmem
    exact .title hitem htitle hblank

/-- The bands that are shown are those of groups that have an item. -/
theorem mem_shownBands_iff {band : Band} :
    band ∈ (s.planOf config f).shownBands ↔
      ∃ g group, s.groups[g]? = some group ∧ band = Band.ofGroup s.rows g group ∧
        ∃ item ∈ s.items, item.group = some g := by
  have hshown : (s.planOf config f).shownBands =
      (s.bands s.rows).filter fun band => s.rows.any fun row => row.group == some band.group :=
    s.filter_bands s.rows
  -- rows are the items in another order
  have hitems : ∀ g,
      (∃ row ∈ s.rows, row.group = some g) ↔ ∃ item ∈ s.items, item.group = some g := by
    intro g
    simp only [← s.map_toItem_rows.mem_iff, List.mem_map, exists_exists_and_eq_and]
  rw [hshown, List.mem_filter, List.any_eq_true]
  simp only [beq_iff_eq, hitems]
  constructor
  · rintro ⟨hband, hgroup⟩
    obtain ⟨g, group, hg, rfl⟩ := mem_bands_iff.1 hband
    exact ⟨g, group, hg, rfl, hgroup⟩
  · rintro ⟨g, group, hg, rfl, hgroup⟩
    exact ⟨mem_bands_iff.2 ⟨g, group, hg, rfl⟩, hgroup⟩

/-- What is drawn says texts of the schedule.  Each layer is traced back to where its texts come
    from. -/
theorem says_of_mem_drawn (hc : ¬ IsChar c) (h : s.findings config = .ok f) {layer : Layer}
    {instruction : Instruction} (hi : instruction ∈ s.drawn config f layer)
    (hsaid : instruction.Says c) : s.Says c := by
  have hrows : ∀ {row : Row} {kind : RowKind},
      row ∈ (s.planOf config f).rowsOf kind → row ∈ s.rows := fun h => (List.mem_filter.1 h).1
  -- only lines, styles and URLs of items are not fixed, so each layer gives its own kind of text
  cases layer with
  | grid =>
    obtain ⟨hticks, hmem⟩ := (Plan.says_axis_iff hc (findings_eq_ok h).2).1 ⟨instruction, hi, hsaid⟩
    exact .pattern hticks hmem
  | groupBlocks =>
    obtain ⟨band, hband, rfl⟩ := List.mem_map.1 hi
    obtain ⟨g, _, _, rfl, _⟩ := mem_shownBands_iff.1 hband
    obtain ⟨_, hnone, _⟩ := hsaid.exists_line hc rfl rfl (Band.isClean_styleAt g)
    cases hnone
  | groupLabels =>
    obtain ⟨band, hband, rfl⟩ := List.mem_map.1 hi
    obtain ⟨g, group, hg, rfl, item, hitem, hin⟩ := mem_shownBands_iff.1 hband
    have hlines := hsaid.exists_line hc rfl rfl (Band.isClean_styleAt g)
    obtain ⟨htitle, hblank⟩ := (mem_lines_wrapped_iff hc).1 hlines
    exact .group hg hitem hin htitle hblank
  | todayMarker =>
    simp only [drawn, Plan.drawn] at hi
    split at hi
    · rw [List.mem_singleton] at hi
      subst hi
      have hstyle : IsClean "today".toList := by decide
      obtain ⟨_, hnone, _⟩ := hsaid.exists_line hc rfl rfl hstyle
      cases hnone
    · cases hi
  | tasks =>
    obtain ⟨row, hrow, rfl⟩ := List.mem_map.1 hi
    exact says_of_itemInstruction h (hrows hrow) (fun _ hnone => by cases hnone) hsaid
  | taskLabels =>
    obtain ⟨row, hrow, rfl⟩ := List.mem_map.1 hi
    refine says_of_itemInstruction h (hrows hrow) (fun line hline hmem => ?_) hsaid
    exact (mem_lines_wrapped_iff hc).1 ⟨line, hline, hmem⟩
  | milestones =>
    obtain ⟨row, hrow, rfl⟩ := List.mem_map.1 hi
    exact says_of_itemInstruction h (hrows hrow) (fun _ hnone => by cases hnone) hsaid
  | milestoneLabels =>
    obtain ⟨row, hrow, rfl⟩ := List.mem_map.1 hi
    refine says_of_itemInstruction h (hrows hrow) (fun line hline hmem => ?_) hsaid
    exact (mem_lines_wrapped_iff hc).1 ⟨line, hline, hmem⟩
  | dependencies =>
    simp only [drawn, Plan.drawn] at hi
    split at hi
    · obtain ⟨edge, _, hi⟩ := List.mem_flatMap.1 hi
      obtain ⟨row, hrow, hstyle⟩ := Plan.says_of_mem_connector hc hi hsaid
      exact .style (toItem_mem_items hrow) hstyle
    · cases hi
  | title =>
    simp only [drawn, Plan.drawn, Option.mem_toList, Option.map_eq_some_iff] at hi
    obtain ⟨title, htitle, rfl⟩ := hi
    have hstyle : IsClean "title".toList := by decide
    obtain ⟨line, hline, hmem⟩ := hsaid.exists_line hc rfl rfl hstyle
    obtain rfl := List.mem_singleton.1 hline
    exact .heading htitle hmem

/-- Every item has a label, which says all of its texts. -/
theorem exists_label (s : Schedule) (config : Config) (f : Findings) {item : Item}
    (hitem : item ∈ s.items) :
    ∃ layer, ∃ row : Row, ∃ x center budget anchor, row.toItem = item ∧
      (s.planOf config f).itemInstruction layer row
          ((s.planOf config f).label x center (Label.wrapped row.title budget) anchor) ∈
        s.drawn config f layer := by
  obtain ⟨row, hrow, rfl⟩ := exists_row_of_mem_items hitem
  cases hkind : row.kind with
  | task =>
    refine ⟨.taskLabels, row, _, _, _, _, rfl, List.mem_map_of_mem (f := Plan.barLabel _) ?_⟩
    exact List.mem_filter.2 ⟨hrow, by simp [hkind]⟩
  | milestone =>
    refine ⟨.milestoneLabels, row, _, _, _, _, rfl,
      List.mem_map_of_mem (f := Plan.diamondLabel _) ?_⟩
    exact List.mem_filter.2 ⟨hrow, by simp [hkind]⟩

/-- What the label of an item says is said in the chart. -/
theorem exists_mem_drawn_of_label (hc : ¬ IsChar c) (h : s.findings config = .ok f) {item : Item}
    (hitem : item ∈ s.items)
    (hsaid : c ∈ item.style.toList ∨ c ∈ item.id.toList ∨
      (∃ event, s.event? item.id = some event ∧ c ∈ event.url.toList) ∨
        c ∈ item.title.toList ∧ isBlank c = false) :
    ∃ layer, ∃ instruction ∈ s.drawn config f layer, instruction.Says c := by
  obtain ⟨layer, row, x, center, budget, anchor, rfl, hmem⟩ := s.exists_label config f hitem
  refine ⟨layer, _, hmem, ?_⟩
  rw [Plan.says_itemInstruction_iff, mem_lines_wrapped_iff hc, planOf,
    Plan.action?_assemble (findings_eq_ok h).1]
  simpa using hsaid

/-- Every text that the chart shows is drawn.  Ids, styles, titles and URLs of items are on their
    labels; the rest has a layer of its own. -/
theorem exists_mem_drawn_of_says (hc : ¬ IsChar c) (h : s.findings config = .ok f)
    (hsaid : s.Says c) :
    ∃ layer, ∃ instruction ∈ s.drawn config f layer, instruction.Says c := by
  cases hsaid with
  | id hitem hmem => exact exists_mem_drawn_of_label hc h hitem (.inr (.inl hmem))
  | style hitem hmem => exact exists_mem_drawn_of_label hc h hitem (.inl hmem)
  | title hitem hmem hblank =>
    exact exists_mem_drawn_of_label hc h hitem (.inr (.inr (.inr ⟨hmem, hblank⟩)))
  | url hitem hevent hmem =>
    exact exists_mem_drawn_of_label hc h hitem (.inr (.inr (.inl ⟨_, hevent, hmem⟩)))
  | @group g group item hgroup hitem hin hmem hblank =>
    have hband : Band.ofGroup s.rows g group ∈ (s.planOf config f).shownBands :=
      mem_shownBands_iff.2 ⟨g, group, hgroup, rfl, item, hitem, hin⟩
    refine ⟨.groupLabels, _, List.mem_map_of_mem hband, ?_⟩
    rw [Instruction.says_iff_of_none rfl rfl]
    exact .inr ((mem_lines_wrapped_iff hc).2 ⟨hmem, hblank⟩)
  | @heading title htitle hmem =>
    have hdrawn : (s.planOf config f).titleText title ∈ s.drawn config f .title := by
      simp only [drawn, Plan.drawn, Option.mem_toList, Option.map_eq_some_iff]
      exact ⟨title, htitle, rfl⟩
    refine ⟨.title, _, hdrawn, ?_⟩
    rw [Instruction.says_iff_of_none rfl rfl]
    exact .inr ⟨title, List.mem_singleton_self title, hmem⟩
  | pattern hticks hmem =>
    exact ⟨.grid, (Plan.says_axis_iff hc (findings_eq_ok h).2).2 ⟨hticks, hmem⟩⟩

/-- **The chart says what the schedule says.** -/
theorem says_layout_iff (hc : ¬ IsChar c) {g : Geometry} (h : s.layout config = .ok g) :
    (∃ instruction ∈ g.instructions, instruction.Says c) ↔ s.Says c := by
  rw [layout_eq_map] at h
  obtain ⟨f, hf, rfl⟩ := Outcome.map_eq_ok_iff.1 h
  rw [instructions_chart]
  constructor
  · rintro ⟨instruction, hi, hsaid⟩
    obtain ⟨layer, _, hi⟩ := List.mem_flatMap.1 hi
    exact says_of_mem_drawn hc hf hi hsaid
  · intro hsaid
    obtain ⟨layer, instruction, hi, hsaid⟩ := exists_mem_drawn_of_says hc hf hsaid
    have hlayer : layer ∈ Layer.all := by cases layer <;> decide
    exact ⟨instruction, List.mem_flatMap.2 ⟨layer, hlayer, hi⟩, hsaid⟩

/-- What a schedule says is written in it. -/
theorem Says.of_isWrittenIn {p : Char → Prop} (hsaid : s.Says c) (h : s.IsWrittenIn p)
    (hpattern : MadeOf p Plan.defaultPattern) : p c := by
  cases hsaid with
  | id hitem hmem => exact (h.items _ hitem).id c hmem
  | style hitem hmem => exact (h.items _ hitem).style c hmem
  | title hitem hmem _ => exact (h.items _ hitem).title c hmem
  | group hgroup _ _ hmem _ => exact h.groups _ (List.mem_of_getElem? hgroup) c hmem
  | url _ hevent hmem => exact (h.events _ (mem_of_event? hevent).1).2 c hmem
  | heading htitle hmem => exact h.options .title _ htitle c hmem
  | pattern _ hmem =>
    rw [Options.labelPattern] at hmem
    cases hset : s.options.outputDateFormat with
    | none =>
      rw [hset] at hmem
      exact hpattern c hmem
    | some value =>
      rw [hset] at hmem
      exact h.options .outputDateFormat value hset c hmem

end Schedule

end Says

/-- **Which characters that XML does not allow are in a document**: those of the texts that the
    chart shows.  They all come from the text, so the document of a text without any has none.

    Between the chart and the document nothing is lost or added, as the characters of a document
    are those that its instructions say.  Between the text and the chart, blanks at the edges and
    within titles may be lost, and which texts are shown follows from the items. -/
theorem drawText_characters {text : String} {config : Config} {styled : Bool} {document : String}
    (h : drawText text config styled = .ok document) :
    ∃ s, Schedule.ofText text = .ok s ∧
      (∀ c, ¬ IsChar c → (c ∈ document.toList ↔ s.Says c)) ∧
      (∀ c, ¬ IsChar c → s.Says c → c ∈ text.toList) ∧
      ((∀ c ∈ text.toList, IsChar c) → ∀ c ∈ document.toList, IsChar c) := by
  obtain ⟨g, hg, rfl⟩ := Outcome.map_eq_ok_iff.1 h
  obtain ⟨s, hs, hlayout⟩ := layoutText_eq_ok_iff.1 hg
  have hiff : ∀ c, ¬ IsChar c → (c ∈ (Svg.render styled g).toList ↔ s.Says c) := fun c hc =>
    (Svg.mem_render_iff hc).trans (Schedule.says_layout_iff hc hlayout)
  have hfrom : ∀ c, ¬ IsChar c → s.Says c → c ∈ text.toList := by
    intro c hc hsaid
    -- spaces between words and the default pattern do not come from the text, but are allowed
    have hwritten : s.IsWrittenIn fun d => IsChar d ∨ d ∈ text.toList :=
      ofText_isWrittenIn (.inl (by decide)) hs fun d hd => .inr hd
    have hpattern : IsClean Plan.defaultPattern.toList := by decide
    exact (hsaid.of_isWrittenIn hwritten fun d hd => .inl (hpattern d hd)).resolve_left hc
  refine ⟨s, hs, hiff, hfrom, fun htext c hmem => ?_⟩
  by_contra hc
  exact hc (htext c (hfrom c hc ((hiff c hc).1 hmem)))

/-- The title of a milestone is a control character, and the document holds no other. -/
theorem drawText_characters_control :
    ∃ document,
      drawText "milestone \x01,m,,2024-01-01" { now := default } true = .ok document ∧
        ∀ c, ¬ IsChar c → (c ∈ document.toList ↔ c = '\x01') := by
  have hok : ((layoutText "milestone \x01,m,,2024-01-01" { now := default }).map fun _ => ()) =
      .ok () := by decide +kernel
  obtain ⟨g, hg, _⟩ := Outcome.map_eq_ok_iff.1 hok
  have hdraw : drawText "milestone \x01,m,,2024-01-01" { now := default } true =
      .ok (Svg.render true g) := by
    rw [drawText, hg]
    rfl
  obtain ⟨s, hs, hiff, hfrom, _⟩ := drawText_characters hdraw
  refine ⟨_, hdraw, fun c hc => ⟨fun hmem => ?_, ?_⟩⟩
  · have honly : "milestone \x01,m,,2024-01-01".toList.filter (fun d => ¬ IsChar d) = ['\x01'] := by
      decide
    rw [← List.mem_singleton, ← honly]
    exact List.mem_filter.2 ⟨hfrom c hc ((hiff c hc).1 hmem), decide_eq_true hc⟩
  · rintro rfl
    have htitles : ((Schedule.ofText "milestone \x01,m,,2024-01-01").map fun s =>
        s.items.any fun item => item.title == "\x01") = .ok true := by decide +kernel
    obtain ⟨t, ht, hany⟩ := Outcome.map_eq_ok_iff.1 htitles
    obtain rfl : t = s := Except.ok.inj (ht.symm.trans hs)
    obtain ⟨item, hitem, htitle⟩ := List.any_eq_true.1 hany
    refine (hiff _ hc).2 (.title hitem ?_ (by decide))
    rw [eq_of_beq htitle]
    decide

/-- A control character in a title is in the document. -/
theorem drawText_writes_control :
    ¬ ∀ (text : String) (config : Config) (styled : Bool) (document : String),
      drawText text config styled = .ok document → ∀ c ∈ document.toList, IsChar c := by
  intro hall
  have hok : ((layoutText "milestone \x01,m,,2024-01-01" { now := default }).map fun g =>
      g.instructions.any fun instruction => instruction.shape.lines == ["\x01"]) = .ok true := by
    decide +kernel
  obtain ⟨g, hg, hany⟩ := Outcome.map_eq_ok_iff.1 hok
  obtain ⟨instruction, hi, hlines⟩ := List.any_eq_true.1 hany
  have hdraw : drawText "milestone \x01,m,,2024-01-01" { now := default } true =
      .ok (Svg.render true g) := by
    rw [drawText, hg]
    rfl
  have hc : ¬ IsChar '\x01' := by decide
  refine hc (hall _ _ _ _ hdraw _ ((Svg.mem_render_iff hc).2 ⟨instruction, hi, ?_⟩))
  rw [Instruction.says_iff, eq_of_beq hlines]
  exact .inr (.inr (.inr ⟨"\x01", List.mem_singleton_self _, by decide⟩))

end GanttChart
