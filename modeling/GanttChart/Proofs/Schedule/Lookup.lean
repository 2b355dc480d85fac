/-
  Lookups: what of a schedule a line looks at.

  A line looks at the items whose ids stand in its date, dependency or click field
  (`Line.references`), at whether its own id is in use, and, if it declares an item, at the last
  group.  Schedules that agree on these read the line alike, with the same addition or the same
  fault (`addition_congr`).  An accepted line finds all that it refers to
  (`contains_of_mem_references`).
-/
import GanttChart.Proofs.Schedule.Addition

namespace GanttChart

open GanttChart.Outcome GanttChart.Text

/-! ## What a line looks at

  The congruence is proved from the inside out: for the date, the id and the dependencies, then
  for the items that are made of these, and then for the lines. -/

/-- The id that the text of a date field counts from. -/
def DateField.reference? (text : List Char) : Option String :=
  match ofText text with
  | .ok (.relative _ reference) => some (String.ofList reference)
  | _ => none

namespace Line

/-- The ids in the date field of an item and in its field at the position `k`, its dependencies. -/
def itemReferences (k : Nat) (fields : List (List Char)) : List String :=
  (fields[3]?.bind fun date => DateField.reference? (trim date)).toList ++
    (fields[k]?.toList.flatMap fun field => (words field).map String.ofList)

/-- The ids that a line refers to in its date, dependency or click field. -/
def references : Line → List String
  | .statement .task body => itemReferences 5 (fields body)
  | .statement .milestone body => itemReferences 4 (fields body)
  | .statement .click body => ((fields body)[0]?.map Schedule.fieldText).toList
  | _ => []

/-- The line declares a task or milestone. -/
def isItem (line : Line) : Bool := line.isStatement .task || line.isStatement .milestone

end Line

/-- The schedules are the same as far as the line looks at them.  Anchors cover dates,
    dependencies and clicks, for an id is in use if it has an anchor. -/
structure Agree (s other : Schedule) (line : Line) : Prop where
  anchors : ∀ id ∈ line.references, s.anchor? id = other.anchor? id
  declared : ∀ id ∈ line.declaredId?, s.contains id = other.contains id
  group : line.isItem = true → s.currentGroup? = other.currentGroup?

namespace Schedule

variable {s other : Schedule}

/-- A date looks at the anchor of the id that it counts from, if it does. -/
theorem instant_congr {text : List Char}
    (h : ∀ id ∈ DateField.reference? text, s.anchor? id = other.anchor? id) :
    s.instant text = other.instant text := by
  unfold instant
  cases hfield : DateField.ofText text with
  | error fault => rfl
  | ok field =>
    cases field with
    | literal literal => rfl
    | relative duration reference =>
      have hreference : DateField.reference? text = some (String.ofList reference) := by
        rw [DateField.reference?, hfield]
      show s.resolve (.relative duration reference) = other.resolve (.relative duration reference)
      rw [resolve, resolve, h _ hreference]

/-- The id field looks at whether its id is in use. -/
theorem freshId_congr {field : List Char}
    (h : s.contains (fieldText field) = other.contains (fieldText field)) :
    s.freshId field = other.freshId field := by
  unfold freshId
  dsimp only
  rw [h]

/-- The dependency field looks at whether its words are ids in use. -/
theorem dependencies_congr {field : List Char}
    (h : ∀ id ∈ (words field).map String.ofList, s.contains id = other.contains id) :
    s.dependencies field = other.dependencies field := by
  have hfind : ((words field).map String.ofList).find? (fun id => !s.contains id) =
      ((words field).map String.ofList).find? (fun id => !other.contains id) := by
    rw [← List.head?_filter, ← List.head?_filter, List.filter_congr]
    intro id hid
    rw [h id hid]
  unfold dependencies
  dsimp only
  rw [hfind]

/-- The first four fields look at the id, the anchor of the date and the last group. -/
theorem newItem_congr {title id style start : List Char}
    (hid : s.contains (fieldText id) = other.contains (fieldText id))
    (hstart : ∀ id ∈ DateField.reference? (trim start), s.anchor? id = other.anchor? id)
    (hgroup : s.currentGroup? = other.currentGroup?) :
    s.newItem title id style start = other.newItem title id style start := by
  unfold newItem
  rw [freshId_congr hid, instant_congr hstart, hgroup]

/-- The optional fields look at the dependencies only. -/
theorem withOptionalFields_congr {item : Item} {optional : List (List Char)}
    (h : ∀ field ∈ optional.head?, ∀ id ∈ (words field).map String.ofList,
      s.contains id = other.contains id) :
    s.withOptionalFields item optional = other.withOptionalFields item optional := by
  rw [withOptionalFields_eq, withOptionalFields_eq]
  cases hhead : optional.head? with
  | none => rfl
  | some field =>
    rw [Option.elim_some, Option.elim_some, dependencies_congr (h field hhead)]

section Agree

variable {line : Line} {body : List Char} {k : Nat}

/-- The first four fields of an item that a line declares are read the same. -/
theorem newItem_of_agree {title id style start : List Char} {rest : List (List Char)}
    (h : Agree s other line) (hrefs : line.references = Line.itemReferences k (fields body))
    (hid : line.declaredId? = (fields body)[1]?.map fieldText) (hitem : line.isItem = true)
    (hbody : fields body = title :: id :: style :: start :: rest) :
    s.newItem title id style start = other.newItem title id style start := by
  apply newItem_congr
  · apply h.declared
    rw [hid, hbody]
    rfl
  · intro reference hreference
    apply h.anchors
    rw [hrefs, hbody]
    simp [Line.itemReferences, Option.mem_def.1 hreference]
  · exact h.group hitem

/-- And so are the fields that may follow. -/
theorem withOptionalFields_of_agree {optional : List (List Char)} (h : Agree s other line)
    (hrefs : line.references = Line.itemReferences k (fields body))
    (hfield : (fields body)[k]? = optional.head?) (item : Item) :
    s.withOptionalFields item optional = other.withOptionalFields item optional := by
  apply withOptionalFields_congr
  intro field hhead id hid
  apply contains_congr
  apply h.anchors
  rw [hrefs, Line.itemReferences, hfield, Option.mem_def.1 hhead]
  exact List.mem_append_right _ (by simpa using hid)

end Agree

/-- **Reading a line looks at nothing else** than the items it refers to, its own id and, for an
    item, the last group.  Two schedules that agree on these give the same addition or the same
    fault. -/
theorem addition_congr {line : Line} (h : Agree s other line) :
    s.addition line = other.addition line := by
  cases line with
  | ignored => rfl
  | unknown => rfl
  | statement keyword body =>
    cases keyword with
    -- options and groups are read from the line alone
    | option => rfl
    | group => rfl
    | task =>
      -- tasks and milestones differ in the place of their optional fields only
      have hread : s.newTask body = other.newTask body := by
        unfold newTask
        split
        · rename_i title id style start finish optional hbody
          have hhead : (fields body)[5]? = optional.head? := by
            rw [hbody, List.head?_eq_getElem?]
            rfl
          simp only [newItem_of_agree h rfl rfl rfl hbody,
            withOptionalFields_of_agree h rfl hhead]
        · rfl
      rw [addition, addition, hread]
    | milestone =>
      have hread : s.newMilestone body = other.newMilestone body := by
        unfold newMilestone
        split
        · rename_i title id style date optional hbody
          have hhead : (fields body)[4]? = optional.head? := by
            rw [hbody, List.head?_eq_getElem?]
            rfl
          simp only [newItem_of_agree h rfl rfl rfl hbody,
            withOptionalFields_of_agree h rfl hhead]
        · rfl
      rw [addition, addition, hread]
    | click =>
      -- a click looks at whether its item is there
      have hread : s.newEvent body = other.newEvent body := by
        unfold newEvent
        split
        · rename_i id word url hbody
          have hid : s.contains (fieldText id) = other.contains (fieldText id) := by
            apply contains_congr
            apply h.anchors
            simp [Line.references, hbody]
          dsimp only
          rw [hid]
        · rfl
      rw [addition, addition, hread]

/-! ## What an accepted line says

  Whatever a line refers to is looked up before it is accepted.  This is the reverse of the
  section above: there the lookups decide the outcome, here the outcome says how they went. -/

/-- A date that has a meaning counts from an item that is there. -/
theorem contains_of_instant {text : List Char} {t : Instant} (h : s.instant text = .ok t)
    {id : String} (hid : id ∈ DateField.reference? text) : s.contains id = true := by
  obtain ⟨field, hfield, hresolve⟩ := bind_eq_ok_iff.1 h
  rw [DateField.reference?, hfield] at hid
  cases field with
  | literal literal => cases hid
  | relative duration reference =>
    obtain rfl : String.ofList reference = id := Option.some.inj hid
    rw [resolve] at hresolve
    rw [← anchor?_isSome]
    cases hanchor : s.anchor? (String.ofList reference) with
    | none =>
      rw [hanchor] at hresolve
      cases hresolve
    | some anchor => rfl

/-- The dependencies that are read are ids in use. -/
theorem contains_of_withOptionalFields {item full : Item} {optional : List (List Char)}
    (h : s.withOptionalFields item optional = .ok full) {field : List Char}
    (hfield : optional.head? = some field) :
    ∀ id ∈ (words field).map String.ofList, s.contains id = true := by
  rw [withOptionalFields_eq, hfield, bind_eq_ok_iff] at h
  obtain ⟨ids, hids, _⟩ := h
  obtain ⟨rfl, hall⟩ := dependencies_eq_ok_iff.1 hids
  exact hall

/-- And so is all that an item refers to. -/
theorem contains_of_mem_itemReferences {body title id style start : List Char}
    {rest optional : List (List Char)} {item full : Item} {k : Nat}
    (hbody : fields body = title :: id :: style :: start :: rest)
    (hitem : s.newItem title id style start = .ok item)
    (hfull : s.withOptionalFields item optional = .ok full)
    (hfield : (fields body)[k]? = optional.head?) {reference : String}
    (h : reference ∈ Line.itemReferences k (fields body)) : s.contains reference = true := by
  obtain ⟨_, t, _, hinstant, _⟩ := newItem_eq_ok_iff.1 hitem
  rw [Line.itemReferences, List.mem_append, hfield] at h
  -- from the date field, or from the dependencies
  rcases h with h | h
  · rw [hbody] at h
    exact contains_of_instant hinstant (Option.mem_toList.1 h)
  · obtain ⟨field, hhead, hmem⟩ := List.mem_flatMap.1 h
    exact contains_of_withOptionalFields hfull (Option.mem_toList.1 hhead) reference hmem

/-- **What an accepted line refers to is there.** -/
theorem contains_of_mem_references {line : Line} {x : Addition} (h : s.addition line = .ok x)
    {id : String} (hid : id ∈ line.references) : s.contains id = true := by
  cases line with
  | ignored => cases hid
  | unknown => cases hid
  | statement keyword body =>
    cases keyword with
    -- only items and clicks refer to anything
    | option => cases hid
    | group => cases hid
    | task =>
      obtain ⟨task, hread, _⟩ := map_eq_ok_iff.1 h
      obtain ⟨_, _, _, _, _, optional, item, _, full, hbody, _, hitem, _, hfull, _⟩ :=
        newTask_eq_ok_iff.1 hread
      refine contains_of_mem_itemReferences hbody hitem hfull ?_ hid
      rw [hbody, List.head?_eq_getElem?]
      rfl
    | milestone =>
      obtain ⟨milestone, hread, _⟩ := map_eq_ok_iff.1 h
      obtain ⟨_, _, _, _, optional, item, hbody, _, hitem, hfull⟩ := newMilestone_eq_ok_iff.1 hread
      refine contains_of_mem_itemReferences hbody hitem hfull ?_ hid
      rw [hbody, List.head?_eq_getElem?]
      rfl
    | click =>
      obtain ⟨event, hread, _⟩ := map_eq_ok_iff.1 h
      obtain ⟨target, word, url, _, hbody, htarget, _⟩ := newEvent_eq_ok_iff.1 hread
      rw [Line.references, hbody] at hid
      obtain rfl : id = fieldText target := by simpa using hid
      exact htarget

end Schedule

end GanttChart
