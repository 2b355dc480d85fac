/-
  Additions: what a line adds to a schedule.

  Reading a line is taken apart.  `Schedule.addition` says what the line adds, from what is there
  already, and `Addition.apply` adds it (`addLine_eq`).  An addition is made to one part of the
  schedule, that of the line's keyword, and leaves all others alone.  So additions to different parts
  may be made in either order (`Addition.apply_comm`), and whether an id is in use changes for the
  id of the new item only (`Addition.anchor?_apply`).
-/
import GanttChart.Proofs.Schedule.Source

namespace GanttChart

open GanttChart.Outcome GanttChart.Text

/-! ## Additions

  A change relates two schedules, so two of them cannot be compared without the schedules around
  them.  An addition is what is left of a change without the schedules: it can be made to any
  schedule, also to one that the line was not read in. -/

/-- What a line adds to a schedule. -/
inductive Addition where
  | nothing
  | option (key : OptionKey) (value : String)
  | group (group : Group)
  | task (task : Task)
  | milestone (milestone : Item)
  | event (event : Event)

/-- The parts of a schedule that lines add to.  Each option is a part of its own, for two options
    do not get in each other's way. -/
inductive Part where
  | option (key : OptionKey)
  | groups
  | tasks
  | milestones
  | events
  deriving DecidableEq

/-- The keyword of the lines that add to a part. -/
def Part.keyword : Part → Keyword
  | .option _ => .option
  | .groups => .group
  | .tasks => .task
  | .milestones => .milestone
  | .events => .click

namespace Addition

/-- The schedule with the addition. -/
def apply (s : Schedule) : Addition → Schedule
  | .nothing => s
  | .option key value => { s with options := s.options.set key value }
  | .group new => { s with groups := s.groups ++ [new] }
  | .task new => { s with tasks := s.tasks ++ [new] }
  | .milestone new => { s with milestones := s.milestones ++ [new] }
  | .event new => { s with events := s.events ++ [new] }

/-- The part that the addition is made to. -/
def part? : Addition → Option Part
  | .nothing => none
  | .option key _ => some (.option key)
  | .group _ => some .groups
  | .task _ => some .tasks
  | .milestone _ => some .milestones
  | .event _ => some .events

/-- The item that is added. -/
def item? : Addition → Option Item
  | .task new => some new.toItem
  | .milestone new => some new
  | _ => none

end Addition

/-- Different options may be set in either order. -/
theorem Options.set_comm (options : Options) {key other : OptionKey} (h : key ≠ other)
    (value word : String) :
    (options.set key value).set other word = (options.set other word).set key value := by
  apply Options.ext_get
  intro k
  rw [Options.get_set, Options.get_set, Options.get_set, Options.get_set]
  by_cases hk : k = key
  · have hother : k ≠ other := fun he => h (hk.symm.trans he)
    rw [if_neg hother, if_pos hk, if_pos hk]
  · rw [if_neg hk, if_neg hk]

/-- **Additions to different parts** may be made in either order.  For different lists this is
    seen at once; two additions to one list are excluded, and two options have different names. -/
theorem Addition.apply_comm {x y : Addition} (h : ∀ part ∈ x.part?, part ∉ y.part?)
    (s : Schedule) : y.apply (x.apply s) = x.apply (y.apply s) := by
  -- two additions of one kind have a part in common, so the hypothesis excludes them
  cases x with
  | nothing => rfl
  | option key value =>
    cases y with
    | option other word =>
      have hkey : key ≠ other := by
        rintro rfl
        exact h _ rfl rfl
      simp only [apply, Options.set_comm s.options hkey]
    | _ => rfl
  | group group =>
    cases y with
    | group _ => exact absurd rfl (h _ rfl)
    | _ => rfl
  | task task =>
    cases y with
    | task _ => exact absurd rfl (h _ rfl)
    | _ => rfl
  | milestone milestone =>
    cases y with
    | milestone _ => exact absurd rfl (h _ rfl)
    | _ => rfl
  | event event =>
    cases y with
    | event _ => exact absurd rfl (h _ rfl)
    | _ => rfl

namespace Schedule

/-- What a line adds to the schedule. -/
def addition (s : Schedule) : Line → Except LineFault Addition
  | .statement .option body =>
    .ok ((assignment? body).elim .nothing fun pair => .option pair.1 pair.2)
  | .statement .group body => .ok (.group { title := String.ofList body })
  | .statement .task body => (s.newTask body).map .task
  | .statement .milestone body => (s.newMilestone body).map .milestone
  | .statement .click body => (s.newEvent body).map .event
  | .ignored => .ok .nothing
  | .unknown => .error .noKeyword

/-- Reading a line is finding out what it adds and adding it. -/
theorem addLine_eq (s : Schedule) (text : List Char) :
    s.addLine text = (s.addition (Line.ofText text)).map (Addition.apply s) := by
  unfold addLine
  cases Line.ofText text with
  | statement keyword body =>
    cases keyword with
    | option =>
      simp only [addStatement, addition, newOptions_eq, Except.map]
      cases assignment? body <;> rfl
    | group => rfl
    | task =>
      simp only [addStatement, addition]
      cases s.newTask body <;> rfl
    | milestone =>
      simp only [addStatement, addition]
      cases s.newMilestone body <;> rfl
    | click =>
      simp only [addStatement, addition]
      cases s.newEvent body <;> rfl
  | ignored => rfl
  | unknown => rfl

/-- An accepted line makes the addition that is read. -/
theorem addLine_eq_ok_iff_addition {s after : Schedule} {text : List Char} :
    s.addLine text = .ok after ↔
      ∃ x, s.addition (Line.ofText text) = .ok x ∧ x.apply s = after := by
  rw [addLine_eq, map_eq_ok_iff]

end Schedule

/-! ## What an accepted line adds

  What a line adds shows partly on the line alone, whatever the schedule is: the part it adds to
  and the id it declares. -/

namespace Line

/-- The option whose name is the first word of an option line. -/
def optionKey? (body : List Char) : Option OptionKey := (words body).head?.bind OptionKey.ofWord?

/-- The part of a schedule that a line may add to. -/
def part? : Line → Option Part
  | .statement .option body => (optionKey? body).map .option
  | .statement .group _ => some .groups
  | .statement .task _ => some .tasks
  | .statement .milestone _ => some .milestones
  | .statement .click _ => some .events
  | .ignored => none
  | .unknown => none

end Line

namespace Schedule

variable {s : Schedule}

/-- A line adds no item and declares no id, or it adds the checked item whose id it declares. -/
theorem item?_of_addition {line : Line} {x : Addition} (h : s.addition line = .ok x) :
    (x.item? = none ∧ line.declaredId? = none) ∨
      ∃ item body, x.item? = some item ∧ line.declaredId? = some item.id ∧ s.Admits body item := by
  cases line with
  | ignored =>
    cases h
    exact .inl ⟨rfl, rfl⟩
  | unknown => cases h
  | statement keyword body =>
    cases keyword with
    | option =>
      -- options and groups declare nothing
      cases h
      cases assignment? body <;> exact .inl ⟨rfl, rfl⟩
    | group =>
      cases h
      exact .inl ⟨rfl, rfl⟩
    | task =>
      -- tasks and milestones declare what their reader has checked
      obtain ⟨task, hread, rfl⟩ := map_eq_ok_iff.1 h
      have hitem := admits_of_newTask hread
      exact .inr ⟨task.toItem, body, rfl, hitem.declaredId, hitem⟩
    | milestone =>
      obtain ⟨milestone, hread, rfl⟩ := map_eq_ok_iff.1 h
      have hitem := admits_of_newMilestone hread
      exact .inr ⟨milestone, body, rfl, hitem.declaredId, hitem⟩
    | click =>
      obtain ⟨event, _, rfl⟩ := map_eq_ok_iff.1 h
      exact .inl ⟨rfl, rfl⟩

/-- The item that a line adds has the id that the line declares. -/
theorem map_id_item?_of_addition {line : Line} {x : Addition} (h : s.addition line = .ok x) :
    x.item?.map Item.id = line.declaredId? := by
  rcases item?_of_addition h with ⟨hitem, hid⟩ | ⟨item, _, hitem, hid, _⟩
  · rw [hitem, hid]
    rfl
  · rw [hitem, hid]
    rfl

/-- So a line that adds an item declares its id. -/
theorem mem_declaredId?_of_addition {line : Line} {x : Addition} (h : s.addition line = .ok x)
    {item : Item} (hitem : item ∈ x.item?) : item.id ∈ line.declaredId? := by
  rw [← map_id_item?_of_addition h, Option.mem_def.1 hitem]
  rfl

/-- The id that an accepted line declares was not in use. -/
theorem unused_of_addition {line : Line} {x : Addition} (h : s.addition line = .ok x)
    {id : String} (hid : id ∈ line.declaredId?) : s.contains id = false := by
  rcases item?_of_addition h with ⟨_, hnone⟩ | ⟨item, _, _, hsome, hadmits⟩
  · rw [hnone] at hid
    cases hid
  · rw [hsome] at hid
    cases hid
    exact hadmits.unused

/-- A line adds to its part, if to any. -/
theorem part?_of_addition {line : Line} {x : Addition} (h : s.addition line = .ok x) :
    ∀ part ∈ x.part?, part ∈ line.part? := by
  intro part hpart
  cases line with
  | ignored =>
    cases h
    cases hpart
  | unknown => cases h
  | statement keyword body =>
    cases keyword with
    | option =>
      cases h
      cases hassign : assignment? body with
      | none =>
        rw [hassign] at hpart
        cases hpart
      | some pair =>
        -- an assignment is to the option that the first word names
        rw [hassign] at hpart
        obtain rfl : Part.option pair.1 = part := Option.some.inj hpart
        have hkey : Line.optionKey? body = some pair.1 := by
          unfold assignment? at hassign
          split at hassign
          · rename_i key value rest hwords
            obtain ⟨known, hknown, rfl⟩ := Option.map_eq_some_iff.1 hassign
            rw [Line.optionKey?, hwords]
            exact hknown
          · cases hassign
        rw [Line.part?, hkey]
        rfl
    | group =>
      cases h
      exact hpart
    | task =>
      obtain ⟨task, _, rfl⟩ := map_eq_ok_iff.1 h
      exact hpart
    | milestone =>
      obtain ⟨milestone, _, rfl⟩ := map_eq_ok_iff.1 h
      exact hpart
    | click =>
      obtain ⟨event, _, rfl⟩ := map_eq_ok_iff.1 h
      exact hpart

end Schedule

/-! ## What an addition changes

  An addition shows in a later lookup only if it is what is looked for: an item under its own id,
  a group as the last group. -/

/-- An id is in use where dates can count from it. -/
theorem Schedule.contains_congr {s other : Schedule} {id : String}
    (h : s.anchor? id = other.anchor? id) : s.contains id = other.contains id := by
  rw [← anchor?_isSome, ← anchor?_isSome, h]

namespace Addition

variable {x : Addition} {s : Schedule} {id : String}

/-- An item is added at the end, so only its own id can be new. -/
theorem anchor?_apply (h : ∀ item ∈ x.item?, item.id ≠ id) :
    (x.apply s).anchor? id = s.anchor? id := by
  cases x with
  | task new =>
    have hnew : [new].find? (fun task => task.id == id) = none := by simpa using h _ rfl
    simp only [apply, Schedule.anchor?, Schedule.task?, Schedule.milestone?, List.find?_append,
      hnew, Option.or_none]
  | milestone new =>
    have hnew : [new].find? (fun milestone => milestone.id == id) = none := by
      simpa using h _ rfl
    simp only [apply, Schedule.anchor?, Schedule.task?, Schedule.milestone?, List.find?_append,
      hnew, Option.or_none]
  | _ => rfl

/-- Only the id of an added item comes into use. -/
theorem contains_apply (h : ∀ item ∈ x.item?, item.id ≠ id) :
    (x.apply s).contains id = s.contains id :=
  Schedule.contains_congr (anchor?_apply h)

/-- The added item is there. -/
theorem contains_apply_self {item : Item} (h : x.item? = some item) :
    (x.apply s).contains item.id = true := by
  cases x with
  | task new =>
    rw [← Option.some.inj h, Schedule.contains_iff]
    exact ⟨new.toItem, (items_concat_task s new).mem_iff.2 List.mem_cons_self, rfl⟩
  | milestone new =>
    rw [← Option.some.inj h, Schedule.contains_iff]
    exact ⟨new, (items_concat_milestone s new).mem_iff.2 List.mem_cons_self, rfl⟩
  | nothing => cases h
  | option _ _ => cases h
  | group _ => cases h
  | event _ => cases h

/-- Only a new group is the last group instead. -/
theorem currentGroup?_apply (h : Part.groups ∉ x.part?) :
    (x.apply s).currentGroup? = s.currentGroup? := by
  cases x with
  | group new => exact absurd rfl h
  | _ => rfl

end Addition

end GanttChart
