/-
  What one line does to a schedule.

  1. **The readers of statements.**  A task or milestone is read from the fields of its line among
     the items that are there already.  `Schedule.Admits` collects what a reader has checked of a
     new item: its id is a field of the line, is not empty and not in use, its dependencies are
     there, and its group is the last one.

  2. **The change.**  `Change line before after` has one case for each kind of line and says
     exactly which part of the schedule grows and by what.  Everything else is carried over by the
     record update.  `addLine_eq_ok_iff` makes it the whole meaning of an accepted line, so a proof
     about accepted lines is a proof by cases on `Change`.
-/
import GanttChart.Proofs.Outcome
import GanttChart.Schedule.Statement

namespace GanttChart

open GanttChart.Outcome GanttChart.Text

namespace Schedule

/-! ## Fields

  A reader of fields fails or gives a value, and for a value it has checked something.  Each
  lemma says at once what has been checked and that nothing else has, so that the reader need not
  be opened again. -/

/-- The second field gives an id if something is left of it without the blanks around it, and if
    that is not in use. -/
theorem freshId_eq_ok_iff {s : Schedule} {field : List Char} {id : String} :
    s.freshId field = .ok id ↔
      id = fieldText field ∧ trim field ≠ [] ∧ s.contains (fieldText field) = false := by
  unfold freshId
  dsimp only
  -- the two checks, in the order in which they are made
  by_cases hempty : trim field = []
  · simp [hempty]
  · rw [if_neg (by simpa using hempty)]
    by_cases hused : s.contains (fieldText field) = true
    · simp [hused]
    · rw [if_neg hused]
      constructor
      · intro h
        cases h
        exact ⟨rfl, hempty, by simpa using hused⟩
      · rintro ⟨rfl, _⟩
        rfl

/-- The words of the field are dependencies if all of them are ids in use. -/
theorem dependencies_eq_ok_iff {s : Schedule} {field : List Char} {ids : List String} :
    s.dependencies field = .ok ids ↔
      ids = (words field).map String.ofList ∧ ∀ id ∈ ids, s.contains id = true := by
  unfold dependencies
  dsimp only
  cases hfind : ((words field).map String.ofList).find? fun id => !s.contains id with
  | some missing =>
    -- a word that is no id in use refutes both sides
    have hmem := List.mem_of_find?_eq_some hfind
    have hmissing := List.find?_some hfind
    constructor
    · intro h
      cases h
    · rintro ⟨rfl, hall⟩
      rw [hall missing hmem] at hmissing
      cases hmissing
  | none =>
    have hall : ∀ id ∈ (words field).map String.ofList, s.contains id = true := by
      intro id hid
      simpa using List.find?_eq_none.1 hfind id hid
    constructor
    · intro h
      cases h
      exact ⟨rfl, hall⟩
    · rintro ⟨rfl, _⟩
      rfl

/-! ## Items

  Tasks and milestones begin with the same four fields and may end with the same two.  What is
  between is the end field of a task.  So the first four (`newItem`) and the last two
  (`withOptionalFields`) are described once, and the two kinds of line are put together from
  them. -/

/-- The item of the first four fields has the fresh id, the start that its date means, and the
    last group.  The id is checked before the date, which shows in faults only. -/
theorem newItem_eq_ok_iff {s : Schedule} {title id style start : List Char} {item : Item} :
    s.newItem title id style start = .ok item ↔
      ∃ name t, s.freshId id = .ok name ∧ s.instant (trim start) = .ok t ∧
        item = { id := name, title := fieldText title, style := fieldText style, start := t,
                 group := s.currentGroup? } := by
  unfold newItem
  simp only [bind_eq_ok_iff, pure, Except.pure, Except.ok.injEq]
  constructor
  · rintro ⟨name, hname, t, ht, rfl⟩
    exact ⟨name, t, hname, ht, rfl⟩
  · rintro ⟨name, t, hname, ht, rfl⟩
    exact ⟨name, hname, t, ht, rfl⟩

/-- The optional fields are read one after the other, and one that is missing reads as nothing. -/
theorem withOptionalFields_eq (s : Schedule) (item : Item) (optional : List (List Char)) :
    s.withOptionalFields item optional =
      (optional.head?.elim (.ok []) s.dependencies >>= fun dependencies =>
        optional.tail.head?.elim (.ok none) progress >>= fun progress =>
          .ok { item with dependencies, progress }) := by
  unfold withOptionalFields
  cases optional.head? <;> cases optional.tail.head? <;> rfl

/-- The optional fields change the dependencies and the progress, and every dependency is there. -/
theorem withOptionalFields_eq_ok {s : Schedule} {item full : Item} {optional : List (List Char)}
    (h : s.withOptionalFields item optional = .ok full) :
    ∃ dependencies progress, full = { item with dependencies, progress } ∧
      ∀ id ∈ dependencies, s.contains id = true := by
  rw [withOptionalFields_eq] at h
  simp only [bind_eq_ok_iff, Except.ok.injEq] at h
  obtain ⟨ids, hids, progress, _, rfl⟩ := h
  refine ⟨ids, progress, rfl, ?_⟩
  cases hhead : optional.head? with
  | none =>
    rw [hhead] at hids
    cases hids
    simp
  | some field =>
    rw [hhead] at hids
    exact (dependencies_eq_ok_iff.1 hids).2

/-- What has been checked of an item before it joins a schedule. -/
structure Admits (s : Schedule) (body : List Char) (item : Item) : Prop where
  /-- The id is the second field of the statement's body. -/
  field : ∃ field, (fields body)[1]? = some field ∧ item.id = fieldText field ∧ trim field ≠ []
  unused : s.contains item.id = false
  dependencies : ∀ id ∈ item.dependencies, s.contains id = true
  group : item.group = s.currentGroup?

/-- An item of the first four fields of a body and some optional ones is checked. -/
theorem Admits.of_newItem {s : Schedule} {body title id style start : List Char}
    {rest optional : List (List Char)} {item full : Item}
    (hbody : fields body = title :: id :: style :: start :: rest)
    (hitem : s.newItem title id style start = .ok item)
    (hfull : s.withOptionalFields item optional = .ok full) : s.Admits body full := by
  obtain ⟨name, t, hname, _, rfl⟩ := newItem_eq_ok_iff.1 hitem
  obtain ⟨rfl, hne, hunused⟩ := freshId_eq_ok_iff.1 hname
  obtain ⟨ids, progress, rfl, hids⟩ := withOptionalFields_eq_ok hfull
  exact {
    field := ⟨id, by rw [hbody]; rfl, rfl, hne⟩
    unused := hunused
    dependencies := hids
    group := rfl }

/-- A task line has five to seven fields, and each of them is read as what it should be.  The end
    field counts from the start that the field before it has given. -/
theorem newTask_eq_ok_iff {s : Schedule} {body : List Char} {task : Task} :
    s.newTask body = .ok task ↔
      ∃ title id style start finish optional item t full,
        fields body = title :: id :: style :: start :: finish :: optional ∧
          optional.length ≤ 2 ∧ s.newItem title id style start = .ok item ∧
          item.start.ofEndField (trim finish) = .ok t ∧
          s.withOptionalFields item optional = .ok full ∧
          task = { full with finish := t } := by
  unfold newTask
  split
  · rename_i title id style start finish optional hbody
    split
    · -- more than two optional fields are refused
      rename_i hlength
      constructor
      · intro h
        cases h
      · rintro ⟨title', id', style', start', finish', optional', _, _, _, hfields, hle, _⟩
        rw [hfields] at hbody
        cases hbody
        omega
    · rename_i hlength
      simp only [bind_eq_ok_iff, pure, Except.pure, Except.ok.injEq]
      constructor
      · rintro ⟨item, hitem, t, ht, full, hfull, rfl⟩
        exact ⟨title, id, style, start, finish, optional, item, t, full, hbody, by omega, hitem, ht,
          hfull, rfl⟩
      · rintro ⟨title', id', style', start', finish', optional', item, t, full, hfields, _, hitem,
          ht, hfull, rfl⟩
        rw [hfields] at hbody
        cases hbody
        exact ⟨item, hitem, t, ht, full, hfull, rfl⟩
  · -- and so are fewer than five fields in all
    rename_i hshort
    constructor
    · intro h
      cases h
    · rintro ⟨title, id, style, start, finish, optional, _, _, _, hfields, _⟩
      exact absurd hfields (hshort title id style start finish optional)

/-- A milestone line has four to six fields, and each of them is read as what it should be. -/
theorem newMilestone_eq_ok_iff {s : Schedule} {body : List Char} {milestone : Item} :
    s.newMilestone body = .ok milestone ↔
      ∃ title id style date optional item,
        fields body = title :: id :: style :: date :: optional ∧ optional.length ≤ 2 ∧
          s.newItem title id style date = .ok item ∧
          s.withOptionalFields item optional = .ok milestone := by
  unfold newMilestone
  split
  · rename_i title id style date optional hbody
    split
    · -- more than two optional fields are refused
      rename_i hlength
      constructor
      · intro h
        cases h
      · rintro ⟨title', id', style', date', optional', _, hfields, hle, _⟩
        rw [hfields] at hbody
        cases hbody
        omega
    · rename_i hlength
      rw [bind_eq_ok_iff]
      constructor
      · rintro ⟨item, hitem, hfull⟩
        exact ⟨title, id, style, date, optional, item, hbody, by omega, hitem, hfull⟩
      · rintro ⟨title', id', style', date', optional', item, hfields, _, hitem, hfull⟩
        rw [hfields] at hbody
        cases hbody
        exact ⟨item, hitem, hfull⟩
  · -- and so are fewer than four fields in all
    rename_i hshort
    constructor
    · intro h
      cases h
    · rintro ⟨title, id, style, date, optional, _, hfields, _⟩
      exact absurd hfields (hshort title id style date optional)

/-- A task that is read has been checked.  Its end is another field and plays no part in this. -/
theorem admits_of_newTask {s : Schedule} {body : List Char} {task : Task}
    (h : s.newTask body = .ok task) : s.Admits body task.toItem := by
  obtain ⟨title, id, style, start, finish, optional, item, t, full, hbody, _, hitem, _, hfull, rfl⟩ :=
    newTask_eq_ok_iff.1 h
  exact .of_newItem hbody hitem hfull

/-- A milestone that is read has been checked. -/
theorem admits_of_newMilestone {s : Schedule} {body : List Char} {milestone : Item}
    (h : s.newMilestone body = .ok milestone) : s.Admits body milestone := by
  obtain ⟨title, id, style, date, optional, item, hbody, _, hitem, hfull⟩ :=
    newMilestone_eq_ok_iff.1 h
  exact .of_newItem hbody hitem hfull

/-! ## Clicks and options

  Events refer to items that are there.  Options refer to nothing and are never refused: a line
  that names none that is known has no effect. -/

/-- A click has three fields; its item is there and its word is known. -/
theorem newEvent_eq_ok_iff {s : Schedule} {body : List Char} {event : Event} :
    s.newEvent body = .ok event ↔
      ∃ id word url kind, fields body = [id, word, url] ∧ s.contains (fieldText id) = true ∧
        EventKind.ofKeyword? (trim word) = some kind ∧
        event = { target := fieldText id, kind, url := fieldText url } := by
  unfold newEvent
  split
  · rename_i id word url hbody
    dsimp only
    -- with three fields, the item is looked up first and the word after it
    by_cases hid : s.contains (fieldText id) = true
    · rw [if_neg (by simp [hid])]
      cases hkind : EventKind.ofKeyword? (trim word) with
      | none =>
        constructor
        · intro h
          cases h
        · rintro ⟨id', word', url', kind, hfields, _, hword, _⟩
          rw [hfields] at hbody
          cases hbody
          rw [hkind] at hword
          cases hword
      | some kind =>
        constructor
        · intro h
          cases h
          exact ⟨id, word, url, kind, hbody, hid, hkind, rfl⟩
        · rintro ⟨id', word', url', kind', hfields, _, hword, rfl⟩
          rw [hfields] at hbody
          cases hbody
          rw [hkind] at hword
          cases hword
          rfl
    · rw [if_pos (by simp [hid])]
      constructor
      · intro h
        cases h
      · rintro ⟨id', word', url', kind, hfields, hid', _⟩
        rw [hfields] at hbody
        cases hbody
        exact absurd hid' hid
  · -- any other number of fields is refused
    rename_i hshort
    constructor
    · intro h
      cases h
    · rintro ⟨id, word, url, _, hfields, _⟩
      exact absurd hfields (hshort id word url)

/-- The option that a statement sets and its value: the first word names the option and the further
    words, of which there is at least one, are the value. -/
def assignment? (body : List Char) : Option (OptionKey × String) :=
  match words body with
  | key :: value :: rest =>
    (OptionKey.ofWord? key).map fun key => (key, String.ofList (unwords (value :: rest)))
  | _ => none

/-- An option line makes its assignment, if there is one in it. -/
theorem newOptions_eq (options : Options) (body : List Char) :
    newOptions options body =
      match assignment? body with
      | some (key, value) => options.set key value
      | none => options := by
  unfold newOptions assignment?
  rcases words body with _ | ⟨key, _ | ⟨value, rest⟩⟩
  · rfl
  · rfl
  · dsimp only
    cases OptionKey.ofWord? key <;> rfl

end Schedule

/-! ## The change of a line

  `Change` is the step of the whole theory.  Its seven cases are the lines that can be accepted,
  an option line with an effect apart from one without.  The schedule after the line is written
  as an update of the one before, so what a line does not touch needs no clause of its own. -/

/-- The schedules before and after a line: the line adds one thing to one part, or nothing.  The
    condition of each case is what the reader of its kind has checked. -/
inductive Change : Line → Schedule → Schedule → Prop
  /-- A blank line or a comment. -/
  | ignored {s : Schedule} : Change .ignored s s
  /-- An option without a value, or one that is not known. -/
  | noOption {s : Schedule} {body : List Char} (h : Schedule.assignment? body = none) :
    Change (.statement .option body) s s
  | option {s : Schedule} {body : List Char} {key : OptionKey} {value : String}
    (h : Schedule.assignment? body = some (key, value)) :
    Change (.statement .option body) s { s with options := s.options.set key value }
  | group {s : Schedule} {body : List Char} :
    Change (.statement .group body) s
      { s with groups := s.groups ++ [{ title := String.ofList body }] }
  | task {s : Schedule} {body : List Char} {task : Task} (h : s.newTask body = .ok task) :
    Change (.statement .task body) s { s with tasks := s.tasks ++ [task] }
  | milestone {s : Schedule} {body : List Char} {milestone : Item}
    (h : s.newMilestone body = .ok milestone) :
    Change (.statement .milestone body) s { s with milestones := s.milestones ++ [milestone] }
  | click {s : Schedule} {body : List Char} {event : Event} (h : s.newEvent body = .ok event) :
    Change (.statement .click body) s { s with events := s.events ++ [event] }

namespace Schedule

/-- A statement is accepted exactly with the change of its kind. -/
theorem addStatement_eq_ok_iff {s after : Schedule} {body : List Char} {keyword : Keyword} :
    s.addStatement body keyword = .ok after ↔ Change (.statement keyword body) s after := by
  cases keyword with
  | option =>
    -- the only kind with two changes; which one it is shows on the assignment
    simp only [addStatement, newOptions_eq, Except.ok.injEq]
    cases hset : assignment? body with
    | none =>
      constructor
      · rintro rfl
        exact .noOption hset
      · intro h
        cases h with
        | noOption _ => rfl
        | option h => rw [hset] at h; cases h
    | some pair =>
      constructor
      · rintro rfl
        exact .option hset
      · intro h
        cases h with
        | noOption h => rw [hset] at h; cases h
        | option h => rw [hset] at h; cases h; rfl
  | group =>
    constructor
    · intro h
      cases h
      exact .group
    · intro h
      cases h
      rfl
  | task =>
    -- the other kinds add what their reader returns
    simp only [addStatement, map_eq_ok_iff]
    constructor
    · rintro ⟨task, h, rfl⟩
      exact .task h
    · intro h
      cases h with
      | task h => exact ⟨_, h, rfl⟩
  | milestone =>
    simp only [addStatement, map_eq_ok_iff]
    constructor
    · rintro ⟨milestone, h, rfl⟩
      exact .milestone h
    · intro h
      cases h with
      | milestone h => exact ⟨_, h, rfl⟩
  | click =>
    simp only [addStatement, map_eq_ok_iff]
    constructor
    · rintro ⟨event, h, rfl⟩
      exact .click h
    · intro h
      cases h with
      | click h => exact ⟨_, h, rfl⟩

/-- **A line is accepted exactly with its change.**  This is all that the rest needs to know
    about accepted lines; a line without a keyword has no change, for it is refused. -/
theorem addLine_eq_ok_iff {s after : Schedule} {text : List Char} :
    s.addLine text = .ok after ↔ Change (Line.ofText text) s after := by
  unfold addLine
  cases Line.ofText text with
  | statement keyword body => exact addStatement_eq_ok_iff
  | ignored =>
    constructor
    · intro h
      cases h
      exact .ignored
    · intro h
      cases h
      rfl
  | unknown =>
    constructor
    · intro h
      cases h
    · intro h
      cases h

end Schedule

end GanttChart
