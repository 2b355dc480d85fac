/-
  Independent lines may trade places.

  Two adjacent lines are independent if they add to different parts of a schedule, neither opens a
  group beside an item, and the second does not refer to the id of the first (`Independent`).  Then
  each is read with the same result without the other (`addition_swap`), and their additions may be
  made in either order.

  The load-bearing fact is that ids are used once: what the first line refers to was there before, so
  it is not what the second line declares, and neither is the id of the first line.
-/
import GanttChart.Proofs.Schedule.Lookup

namespace GanttChart

open GanttChart.Outcome GanttChart.Text

/-! ## Swaps -/

/-- Lines of kinds that may trade places: two different ones of task, milestone, click and option, a
    group beside a click or an option, or two options with different known names. -/
def Line.Tradable : Line → Line → Prop
  | .statement .option body, .statement .option other =>
    ∃ key name, optionKey? body = some key ∧ optionKey? other = some name ∧ key ≠ name
  | .statement .group _, .statement keyword _ => keyword = .click ∨ keyword = .option
  | .statement keyword _, .statement .group _ => keyword = .click ∨ keyword = .option
  | .statement keyword _, .statement other _ => keyword ≠ other
  | _, _ => False

/-- The lines may trade places, and the second does not refer to the id that the first declares. -/
structure Independent (first second : Line) : Prop where
  kinds : first.Tradable second
  free : ∀ id ∈ first.declaredId?, id ∉ second.references

/-- The part that a line adds to shows its kind. -/
theorem Line.keyword_of_part? {keyword : Keyword} {body : List Char} {part : Part}
    (h : part ∈ (Line.statement keyword body).part?) : part.keyword = keyword := by
  cases keyword with
  | option =>
    obtain ⟨key, _, rfl⟩ := Option.map_eq_some_iff.1 h
    rfl
  | _ =>
    cases h
    rfl

/-- Lines that may trade places add to different parts. -/
theorem Line.Tradable.parts {first second : Line} (h : first.Tradable second) :
    ∀ part ∈ first.part?, part ∉ second.part? := by
  intro part hfirst hsecond
  cases first with
  | ignored => cases hfirst
  | unknown => cases hfirst
  | statement keyword body =>
    cases second with
    | ignored => cases hsecond
    | unknown => cases hsecond
    | statement other text =>
      -- Only options have a part in common with a line of the same kind, and not with every one.
      obtain rfl := Line.keyword_of_part? hfirst
      obtain rfl := Line.keyword_of_part? hsecond
      cases part with
      | option key =>
        obtain ⟨key, name, hkey, hname, hne⟩ := h
        rw [Part.keyword, Line.part?, hkey] at hfirst
        rw [Part.keyword, Line.part?, hname] at hsecond
        cases hfirst
        cases hsecond
        exact hne rfl
      | groups => rcases h with h | h <;> cases h
      | tasks => exact h rfl
      | milestones => exact h rfl
      | events => exact h rfl

/-- Lines that may trade places may do so in either order. -/
theorem Line.Tradable.symm {first second : Line} (h : first.Tradable second) :
    second.Tradable first := by
  cases first with
  | ignored => cases h
  | unknown => cases h
  | statement keyword body =>
    cases second with
    | ignored => cases keyword <;> cases h
    | unknown => cases keyword <;> cases h
    | statement other text =>
      -- Two options name each other's options; of other lines only the kinds matter, and what is
      -- asked of them is symmetric.
      cases keyword <;> cases other
      case option.option =>
        obtain ⟨key, name, hkey, hname, hne⟩ := h
        exact ⟨name, key, hname, hkey, hne.symm⟩
      all_goals first | exact h | exact Ne.symm h

/-- Beside a line that opens a group stands no item.  An item looks at the last group, so the
    other line would be read differently. -/
theorem Line.Tradable.groups_notMem {first second : Line} (h : first.Tradable second)
    (hitem : second.isItem = true) : Part.groups ∉ first.part? := by
  intro hgroups
  cases first with
  | ignored => cases hgroups
  | unknown => cases hgroups
  | statement keyword body =>
    obtain rfl := Line.keyword_of_part? hgroups
    cases second with
    | ignored => cases hitem
    | unknown => cases hitem
    | statement other text => rcases h with rfl | rfl <;> cases hitem

/-- A line looks at nothing of an addition if it does not name the new item, and if no group is
    opened where it looks for the last one. -/
theorem Addition.agree {s : Schedule} {x : Addition} {line : Line}
    (hitem : ∀ item ∈ x.item?, item.id ∉ line.references ∧ item.id ∉ line.declaredId?)
    (hgroup : line.isItem = true → Part.groups ∉ x.part?) : Agree s (x.apply s) line where
  anchors id hid := by
    refine (anchor?_apply ?_).symm
    rintro item hmem rfl
    exact (hitem item hmem).1 hid
  declared id hid := by
    refine (contains_apply ?_).symm
    rintro item hmem rfl
    exact (hitem item hmem).2 hid
  group hline := (currentGroup?_apply (hgroup hline)).symm

namespace Schedule

/-- **Independent lines are read the same in either order.**  Each of them sees nothing of the
    other: the schedules with and without the other line agree on all that it looks at. -/
theorem addition_swap {s : Schedule} {first second : Line} {x y : Addition}
    (h : Independent first second) (hx : s.addition first = .ok x)
    (hy : (x.apply s).addition second = .ok y) :
    s.addition second = .ok y ∧ (y.apply s).addition first = .ok x ∧
      x.apply (y.apply s) = y.apply (x.apply s) := by
  have hxpart := part?_of_addition hx
  have hypart := part?_of_addition hy
  -- What the second line declares is not in use even after the first line.
  have hfresh : ∀ item ∈ x.item?, item.id ∉ second.declaredId? := by
    intro item hitem hid
    have hunused := unused_of_addition hy hid
    rw [Addition.contains_apply_self hitem] at hunused
    cases hunused
  have hsecond : Agree s (x.apply s) second := by
    refine Addition.agree (fun item hitem => ⟨?_, hfresh item hitem⟩) fun hline hgroups => ?_
    · exact h.free item.id (mem_declaredId?_of_addition hx hitem)
    · exact h.kinds.groups_notMem hline (hxpart _ hgroups)
  have hfirst : Agree s (y.apply s) first := by
    refine Addition.agree (fun new hnew => ?_) fun hline hgroups => ?_
    · have hid := mem_declaredId?_of_addition hy hnew
      constructor
      · -- The first line refers to what was there, and the new id was not.
        intro hreference
        have hused : s.contains new.id = true := contains_of_mem_references hx hreference
        rw [hsecond.declared _ hid, unused_of_addition hy hid] at hused
        cases hused
      · intro hdeclares
        rw [← map_id_item?_of_addition hx] at hdeclares
        obtain ⟨item, hitem, hsame⟩ := Option.map_eq_some_iff.1 hdeclares
        exact hfresh item hitem (hsame ▸ hid)
    · exact h.kinds.symm.groups_notMem hline (hypart _ hgroups)
  refine ⟨?_, ?_, ?_⟩
  · rw [addition_congr hsecond, hy]
  · rw [← addition_congr hfirst, hx]
  · refine (Addition.apply_comm ?_ s).symm
    intro part hpart hother
    exact h.kinds.parts part (hxpart part hpart) (hypart part hother)

/-- At the front of accepted lines, independent lines may be swapped. -/
theorem addLines_swap {s after : Schedule} {line : Nat} {first second : List Char}
    {rest : List (List Char)} (h : Independent (Line.ofText first) (Line.ofText second))
    (hread : s.addLines line (first :: second :: rest) = .ok after) :
    s.addLines line (second :: first :: rest) = .ok after := by
  rw [addLines] at hread
  -- both lines are accepted; what they add is then added in the other order
  cases hfirst : s.addLine first with
  | error fault =>
    rw [hfirst] at hread
    cases hread
  | ok middle =>
    rw [hfirst] at hread
    change middle.addLines (line + 1) (second :: rest) = .ok after at hread
    rw [addLines] at hread
    cases hsecond : middle.addLine second with
    | error fault =>
      rw [hsecond] at hread
      cases hread
    | ok both =>
      rw [hsecond] at hread
      obtain ⟨x, hx, rfl⟩ := addLine_eq_ok_iff_addition.1 hfirst
      obtain ⟨y, hy, rfl⟩ := addLine_eq_ok_iff_addition.1 hsecond
      obtain ⟨hy', hx', hsame⟩ := addition_swap h hx hy
      rw [addLines, addLine_eq_ok_iff_addition.2 ⟨y, hy', rfl⟩]
      show (y.apply s).addLines (line + 1) (first :: rest) = .ok after
      rw [addLines, addLine_eq_ok_iff_addition.2 ⟨x, hx', rfl⟩, hsame]
      exact hread

/-- **Independent statements commute.**  If two adjacent lines of an accepted text may trade places
    and the second does not refer to the id of the first, the text with the two lines swapped is
    accepted and describes the same schedule. -/
theorem ofText_swap {text swapped : String} {front rest : List Line} {first second : Line}
    {s : Schedule} (htext : sourceOf text = front ++ first :: second :: rest)
    (hswapped : sourceOf swapped = front ++ second :: first :: rest)
    (hindependent : Independent first second) (h : ofText text = .ok s) :
    ofText swapped = .ok s := by
  obtain ⟨before, after, hlines, hbefore, hafter⟩ := List.map_eq_append_iff.1 htext
  obtain ⟨a, _, rfl, rfl, hfrom⟩ := List.map_eq_cons_iff.1 hafter
  obtain ⟨b, later, rfl, rfl, hlater⟩ := List.map_eq_cons_iff.1 hfrom
  have hsame : (lines swapped.toList).map Line.ofText =
      (before ++ b :: a :: later).map Line.ofText := by
    rw [List.map_append, List.map_cons, List.map_cons, hbefore, hlater]
    exact hswapped
  rw [ofText, addLines_congr hsame]
  rw [ofText, hlines] at h
  obtain ⟨middle, hmiddle, hrest⟩ := addLines_append_eq_ok_iff.1 h
  exact addLines_append_eq_ok_iff.2 ⟨middle, hmiddle, addLines_swap hindependent hrest⟩

/-- A task that counts from an earlier one, and a milestone that depends on that one too. -/
theorem ofText_swap_task_milestone :
    ∃ s, ofText "task T,a,,2024-01-01,1D\ntask U,b,,after a,2D\r\nmilestone M,m,,2024-01-03,a" =
        .ok s ∧
      ofText "task T,a,,2024-01-01,1D\nmilestone M,m,,2024-01-03,a\ntask U,b,,after a,2D" = .ok s ∧
      s.items.map (fun item => (item.id, item.dependencies)) =
        [("a", []), ("b", []), ("m", ["a"])] := by
  have hok : ((ofText
      "task T,a,,2024-01-01,1D\ntask U,b,,after a,2D\r\nmilestone M,m,,2024-01-03,a").map
        fun s => s.items.map fun item => (item.id, item.dependencies)) =
      .ok [("a", []), ("b", []), ("m", ["a"])] := by decide +kernel
  obtain ⟨s, hs, hitems⟩ := map_eq_ok_iff.1 hok
  have htext : sourceOf
      "task T,a,,2024-01-01,1D\ntask U,b,,after a,2D\r\nmilestone M,m,,2024-01-03,a" =
      [.statement .task "T,a,,2024-01-01,1D".toList] ++
        .statement .task "U,b,,after a,2D".toList ::
          .statement .milestone "M,m,,2024-01-03,a".toList :: [] := by decide +kernel
  have hswapped : sourceOf
      "task T,a,,2024-01-01,1D\nmilestone M,m,,2024-01-03,a\ntask U,b,,after a,2D" =
      [.statement .task "T,a,,2024-01-01,1D".toList] ++
        .statement .milestone "M,m,,2024-01-03,a".toList ::
          .statement .task "U,b,,after a,2D".toList :: [] := by decide +kernel
  have hkinds : (Line.statement .task "U,b,,after a,2D".toList).Tradable
      (.statement .milestone "M,m,,2024-01-03,a".toList) := by
    show Keyword.task ≠ Keyword.milestone
    decide
  exact ⟨s, hs, ofText_swap htext hswapped ⟨hkinds, by decide +kernel⟩ hs, hitems⟩

end Schedule

end GanttChart
