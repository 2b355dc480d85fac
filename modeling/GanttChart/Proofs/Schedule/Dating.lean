/-
  Dates stay what they are.

  A date is read among the items of the lines before it, which are not yet all.

  1. **Anchors are kept.**  An item joins a schedule at the end and under an id that is not in use,
     so what dates count from at an id does not change any more (`Change.anchor?_eq_some`).

  2. **Dates are kept.**  A date that has a meaning counts from an item that is there, if from any.
     So it means the same among more items (`Change.instant_eq_ok`).

  3. **The run.**  `Dated` says that the start of an item is the meaning of its date in a given
     schedule.  A change of the schedule keeps it, and the item of a new line has it at once, so in
     the end it holds of all items and the last schedule (`Dating.concat`).

  A date without a duration is the anchor itself: moving by nothing leads nowhere else, not even from
  within a leap second (`Duration.after_zero`).
-/
import GanttChart.Proofs.Schedule.Lookup
import GanttChart.Proofs.Schedule.Reference

namespace GanttChart

open GanttChart.Outcome GanttChart.Text

/-! ## Kept by a change -/

section Change

variable {line : Line} {date : List Char} {s after : Schedule} {id : String} {t : Instant}

/-- **Anchors are kept.**  A new item has an id of its own, so whatever is found under an id that
    is in use is found there after the change. -/
theorem Change.anchor?_eq_some (hchange : Change line s after) (h : s.anchor? id = some t) :
    after.anchor? id = some t := by
  have hused : s.contains id = true := by
    rw [← Schedule.anchor?_isSome, h]
    rfl
  have hnew : ∀ item body, s.Admits body item → item.id ≠ id := by
    rintro item body hitem rfl
    rw [hitem.unused] at hused
    cases hused
  cases hchange with
  | @task _ _ task hread =>
    refine (Addition.anchor?_apply (x := .task task) ?_).trans h
    rintro _ ⟨⟩
    exact hnew _ _ (Schedule.admits_of_newTask hread)
  | @milestone _ _ milestone hread =>
    refine (Addition.anchor?_apply (x := .milestone milestone) ?_).trans h
    rintro _ ⟨⟩
    exact hnew _ _ (Schedule.admits_of_newMilestone hread)
  | _ => exact h

/-- **Dates are kept.**  A date that is read counts from an id with an anchor, if from any, and
    this anchor is kept. -/
theorem Change.instant_eq_ok (hchange : Change line s after) (h : s.instant date = .ok t) :
    after.instant date = .ok t := by
  rw [← h]
  apply Schedule.instant_congr
  intro id hid
  obtain ⟨anchor, hanchor, _⟩ := Schedule.exists_anchor (Schedule.contains_of_instant h hid)
  rw [hanchor, hchange.anchor?_eq_some hanchor]

end Change

/-! ## Dates without a duration -/

namespace Schedule

variable {s : Schedule}

/-- The instant is the end of the task with an id, or else that of the milestone. -/
def EndsAt (s : Schedule) (id : String) (t : Instant) : Prop :=
  (∃ task ∈ s.tasks, task.id = id ∧ task.finish = t) ∨
    (∀ task ∈ s.tasks, task.id ≠ id) ∧
      ∃ milestone ∈ s.milestones, milestone.id = id ∧ milestone.start = t

/-- An anchor is the end of a task, or else the instant of a milestone. -/
theorem endsAt_of_anchor? {id : String} {t : Instant} (h : s.anchor? id = some t) :
    s.EndsAt id t := by
  unfold anchor? at h
  split at h
  · rename_i task htask
    cases h
    exact .inl ⟨task, List.mem_of_find?_eq_some htask, by simpa using List.find?_some htask, rfl⟩
  · rename_i hnone
    obtain ⟨milestone, hmilestone, hstart⟩ := Option.map_eq_some_iff.1 h
    exact .inr ⟨by simpa [task?] using hnone, milestone, List.mem_of_find?_eq_some hmilestone,
      by simpa using List.find?_some hmilestone, hstart⟩

/-- **A date without a duration** is the instant that it counts from. -/
theorem endsAt_of_instant {reference : List Char} {t : Instant}
    (h : s.instant (DateField.openingMarker ++ reference) = .ok t) :
    s.EndsAt (fieldText reference) t := by
  obtain ⟨field, hfield, hresolve⟩ := bind_eq_ok_iff.1 h
  obtain rfl : DateField.relative [] (trim reference) = field := Except.ok.inj hfield
  rw [resolve] at hresolve
  split at hresolve
  · cases hresolve
  · rename_i anchor hanchor
    rw [List.isEmpty_nil, if_pos rfl, Duration.after_zero] at hresolve
    cases hresolve
    exact endsAt_of_anchor? hanchor

end Schedule

/-! ## Items and their lines

  The schedule that a date is read in and the source that its line stands in grow together, but
  each may grow on its own; so there is a lemma for either (`Dated.change`, `Dated.concat`). -/

/-- The date field of an item that a line declares. -/
def Line.date? : Line → Option (List Char)
  | .statement .task body => (fields body)[3]?.map trim
  | .statement .milestone body => (fields body)[3]?.map trim
  | _ => none

/-- The line at a position declares the item, which starts when the line's date says among the items
    of a schedule. -/
structure Dated (s : Schedule) (source : List Line) (k : Nat) (item : Item) : Prop where
  declares : Declares source k item.id
  date : ∃ text, source[k]?.bind Line.date? = some text ∧ s.instant text = .ok item.start
  /-- Without a duration, it starts at the very end of the item that its date names. -/
  counted : ∀ reference, source[k]?.bind Line.date? = some (DateField.openingMarker ++ reference) →
    s.EndsAt (Schedule.fieldText reference) item.start

/-- Each task and each milestone is dated on its line. -/
structure Dating (source : List Line) (s : Schedule) : Prop where
  tasks : Linked (fun source k task => Dated s source k task.toItem) .task source s.tasks
  milestones : Linked (Dated s) .milestone source s.milestones

section Dated

variable {source : List Line} {line : Line} {s after : Schedule} {k : Nat} {item : Item}

/-- It is enough that the date means the start; without a duration the rest follows. -/
theorem Dated.of_date (hdeclares : Declares source k item.id) {date : List Char}
    (hline : source[k]?.bind Line.date? = some date) (hdate : s.instant date = .ok item.start) :
    Dated s source k item where
  declares := hdeclares
  date := ⟨date, hline, hdate⟩
  counted reference hreference := by
    rw [hline] at hreference
    cases hreference
    exact Schedule.endsAt_of_instant hdate

/-- A change of the schedule keeps an item dated. -/
theorem Dated.change (h : Dated s source k item) (hchange : Change line s after) :
    Dated after source k item := by
  obtain ⟨date, hline, hdate⟩ := h.date
  exact .of_date h.declares hline (hchange.instant_eq_ok hdate)

/-- So does one more line. -/
theorem Dated.concat (h : Dated s source k item) (line : Line) :
    Dated s (source ++ [line]) k item := by
  obtain ⟨date, hline, hdate⟩ := h.date
  exact .of_date (declares_concat.2 (.inl h.declares))
    ((bind_getElem?_concat Line.date? source line k date).2 (.inl hline)) hdate

/-- A new item starts when the date of its line says. -/
theorem Dated.of_newItem {body title id style start : List Char}
    {rest optional : List (List Char)} {full : Item}
    (hbody : fields body = title :: id :: style :: start :: rest)
    (hitem : s.newItem title id style start = .ok item)
    (hfull : s.withOptionalFields item optional = .ok full)
    (hid : line.declaredId? = (fields body)[1]?.map Schedule.fieldText)
    (hdate : line.date? = (fields body)[3]?.map trim) :
    Dated s (source ++ [line]) source.length full := by
  obtain ⟨name, t, hname, hinstant, rfl⟩ := Schedule.newItem_eq_ok_iff.1 hitem
  obtain ⟨rfl, _⟩ := Schedule.freshId_eq_ok_iff.1 hname
  obtain ⟨dependencies, progress, rfl, _⟩ := Schedule.withOptionalFields_eq_ok hfull
  rw [hbody] at hid hdate
  exact .of_date (declares_concat.2 (.inr ⟨rfl, hid⟩))
    ((bind_getElem?_concat Line.date? source line _ (trim start)).2 (.inr ⟨rfl, hdate⟩)) hinstant

/-! ## The step and the run -/

/-- **Every change keeps all items dated**, and a new item is dated on its line. -/
theorem Dating.concat (h : Dating source s) (hchange : Change line s after) :
    Dating (source ++ [line]) after := by
  -- the old items, after the change of the schedule
  have htasks :
      Linked (fun source k task => Dated after source k task.toItem) .task source s.tasks :=
    h.tasks.imp fun _ _ hold => hold.change hchange
  have hmilestones : Linked (Dated after) .milestone source s.milestones :=
    h.milestones.imp fun _ _ hold => hold.change hchange
  -- and with the new line
  have htask : ∀ k (task : Task), Dated after source k task.toItem →
      Dated after (source ++ [line]) k task.toItem := fun _ _ hold => hold.concat line
  have hmilestone : ∀ k item, Dated after source k item →
      Dated after (source ++ [line]) k item := fun _ _ hold => hold.concat line
  cases hchange with
  | @task _ body task hread =>
    obtain ⟨_, _, _, _, _, _, _, _, _, hbody, _, hitem, _, hfull, rfl⟩ :=
      Schedule.newTask_eq_ok_iff.1 hread
    have hnew : Dated s (source ++ [.statement .task body]) source.length _ :=
      .of_newItem hbody hitem hfull rfl rfl
    exact ⟨htasks.concat_self htask rfl (hnew.change (.task hread)),
      hmilestones.concat_other hmilestone rfl⟩
  | @milestone _ body milestone hread =>
    obtain ⟨_, _, _, _, _, _, hbody, _, hitem, hfull⟩ := Schedule.newMilestone_eq_ok_iff.1 hread
    have hnew : Dated s (source ++ [.statement .milestone body]) source.length _ :=
      .of_newItem hbody hitem hfull rfl rfl
    exact ⟨htasks.concat_other htask rfl,
      hmilestones.concat_self hmilestone rfl (hnew.change (.milestone hread))⟩
  | _ => exact ⟨htasks.concat_other htask rfl, hmilestones.concat_other hmilestone rfl⟩

end Dated

/-- **Dates mean the same in the end.**  For every line of an accepted text that declares an item, the
    date of the line means the item's start among all items of the text, those of later lines
    included.  Without a duration it is, to the nanosecond, the end of the task or else the instant
    of the milestone that the date names. -/
theorem ofText_dating {text : String} {s : Schedule} (h : Schedule.ofText text = .ok s) :
    Dating (sourceOf text) s := by
  have hnil : Dating [] {} := ⟨.nil, .nil⟩
  refine Schedule.addLines_induction (fun texts s => Dating (texts.map Line.ofText) s) hnil ?_ h
  intro front line before after hbefore hchange
  rw [List.map_append]
  exact hbefore.concat hchange

/-- A task after a milestone within a leap second, and a milestone after that task. -/
theorem ofText_dating_leap_second :
    ∃ s, Schedule.ofText
        "milestone L,l,,2016-12-31T23:59:60.5\ntask T,t,,after l,1D\nmilestone M,m,,after t" = .ok s ∧
      s.tasks.map (fun task => (task.start.time.second, task.start.time.nanosecond)) =
        [(86399, 1500000000)] ∧
      Dating (sourceOf
        "milestone L,l,,2016-12-31T23:59:60.5\ntask T,t,,after l,1D\nmilestone M,m,,after t") s := by
  have hok : ((Schedule.ofText
      "milestone L,l,,2016-12-31T23:59:60.5\ntask T,t,,after l,1D\nmilestone M,m,,after t").map
        fun s => s.tasks.map fun task => (task.start.time.second, task.start.time.nanosecond)) =
      .ok [(86399, 1500000000)] := by decide +kernel
  obtain ⟨s, hs, hstarts⟩ := map_eq_ok_iff.1 hok
  exact ⟨s, hs, hstarts, ofText_dating hs⟩

end GanttChart
