/-
  What a schedule is written in.

  The texts of a schedule are cut from the lines of its source, and nothing is put in but the spaces
  between the words of an option.  So what holds of all characters of a text, and of the space, holds
  of all characters of the schedule that it describes (`ofText_isWrittenIn`).  A change adds texts from
  the body of its line (`Schedule.IsWrittenIn.change`), and the dependencies of a new item are ids
  that are there.
-/
import GanttChart.Proofs.Schedule.Entry
import GanttChart.Proofs.Text.Wrap

namespace GanttChart

open GanttChart.Outcome GanttChart.Text

/-- A line holds only characters of the text. -/
theorem Text.mem_of_mem_lines {c : Char} {text line : List Char} (hline : line ∈ lines text)
    (h : c ∈ line) : c ∈ text := by
  fun_induction lines text generalizing line with
  | case1 => cases hline
  | case2 text ih =>
    rcases List.mem_cons.1 hline with rfl | hline
    · cases h
    · exact List.mem_cons_of_mem _ (ih hline h)
  | case3 text ih =>
    rcases List.mem_cons.1 hline with rfl | hline
    · cases h
    · exact List.mem_cons_of_mem _ (List.mem_cons_of_mem _ (ih hline h))
  | case4 d text _ _ _ _ =>
    obtain rfl := List.mem_singleton.1 hline
    rw [List.mem_singleton.1 h]
    exact List.mem_cons_self
  | case5 d text _ _ first rest hlines ih =>
    rw [hlines] at ih
    rcases List.mem_cons.1 hline with rfl | hline
    · rcases List.mem_cons.1 h with rfl | h
      · exact List.mem_cons_self
      · exact List.mem_cons_of_mem _ (ih List.mem_cons_self h)
    · exact List.mem_cons_of_mem _ (ih (List.mem_cons_of_mem _ hline) h)

/-! ## Texts of a schedule

  The kind of characters is a parameter: the theorem is used for those that a document may hold. -/

section MadeOf

variable (p : Char → Prop)

/-- All characters of the text are of a kind. -/
def MadeOf (text : String) : Prop := ∀ c ∈ text.toList, p c

/-- All texts of the item are written in characters of a kind. -/
structure Item.IsWrittenIn (item : Item) : Prop where
  id : MadeOf p item.id
  title : MadeOf p item.title
  style : MadeOf p item.style
  dependencies : ∀ id ∈ item.dependencies, MadeOf p id

/-- All texts of the schedule are written in characters of a kind. -/
structure Schedule.IsWrittenIn (s : Schedule) : Prop where
  options : ∀ key value, s.options.get key = some value → MadeOf p value
  groups : ∀ group ∈ s.groups, MadeOf p group.title
  items : ∀ item ∈ s.items, item.IsWrittenIn p
  events : ∀ event ∈ s.events, MadeOf p event.target ∧ MadeOf p event.url

end MadeOf

section Change

variable {p : Char → Prop} {s after : Schedule} {line : Line} {body : List Char}

/-- A field is written in the characters of its line. -/
theorem madeOf_fieldText (hbody : ∀ c ∈ body, p c) {field : List Char}
    (hfield : field ∈ fields body) : MadeOf p (Schedule.fieldText field) := by
  intro c hc
  rw [Schedule.fieldText, String.toList_ofList] at hc
  exact hbody c (mem_of_mem_fields hfield (mem_of_mem_trim hc))

/-- The value of an option is written in the characters of its line and spaces. -/
theorem madeOf_assignment? (hspace : p ' ') (hbody : ∀ c ∈ body, p c) {key : OptionKey}
    {value : String} (h : Schedule.assignment? body = some (key, value)) :
    MadeOf p value := by
  unfold Schedule.assignment? at h
  split at h
  · rename_i word first rest hwords
    obtain ⟨_, _, h⟩ := Option.map_eq_some_iff.1 h
    cases h
    unfold MadeOf
    rw [String.toList_ofList, unwords]
    refine forall_mem_intercalate (by simpa using hspace) fun word hword c hc => ?_
    have hmem : word ∈ words body := by
      rw [hwords]
      exact List.mem_cons_of_mem _ hword
    exact hbody c (exists_mem_words_iff.1 ⟨word, hmem, hc⟩).1
  · cases h

/-- A new item is written in the characters of its line and of the items that it depends on. -/
theorem Item.isWrittenIn_of_newItem (h : s.IsWrittenIn p) (hbody : ∀ c ∈ body, p c)
    {title id style start : List Char} {rest optional : List (List Char)} {item full : Item}
    (hfields : fields body = title :: id :: style :: start :: rest)
    (hitem : s.newItem title id style start = .ok item)
    (hfull : s.withOptionalFields item optional = .ok full) : full.IsWrittenIn p := by
  obtain ⟨name, t, hname, _, rfl⟩ := Schedule.newItem_eq_ok_iff.1 hitem
  obtain ⟨rfl, _⟩ := Schedule.freshId_eq_ok_iff.1 hname
  obtain ⟨ids, progress, rfl, hids⟩ := Schedule.withOptionalFields_eq_ok hfull
  have hfield : ∀ field ∈ [title, id, style], MadeOf p (Schedule.fieldText field) := by
    intro field hfield
    apply madeOf_fieldText hbody
    rw [hfields]
    simp only [List.mem_cons, List.not_mem_nil, or_false] at hfield ⊢
    tauto
  exact {
    id := hfield id (by simp)
    title := hfield title (by simp)
    style := hfield style (by simp)
    dependencies := by
      intro dependency hdependency
      obtain ⟨other, hother, rfl⟩ := Schedule.contains_iff.1 (hids dependency hdependency)
      exact (h.items other hother).id }

/-- **A change adds texts of its line.** -/
theorem Schedule.IsWrittenIn.change (h : s.IsWrittenIn p) (hspace : p ' ')
    (hchange : Change line s after)
    (hline : ∀ keyword body, line = .statement keyword body → ∀ c ∈ body, p c) :
    after.IsWrittenIn p := by
  cases hchange with
  | ignored => exact h
  | noOption _ => exact h
  | @option _ body key value hvalue =>
    -- one part changes in each case, so one field of the relation is proved anew
    refine { h with options := ?_ }
    intro other text htext
    rw [Options.get_set] at htext
    split at htext
    · cases htext
      exact madeOf_assignment? hspace (hline _ _ rfl) hvalue
    · exact h.options other text htext
  | @group _ body =>
    refine { h with groups := ?_ }
    refine List.forall_mem_append.2 ⟨h.groups, List.forall_mem_singleton.2 ?_⟩
    unfold MadeOf
    rw [String.toList_ofList]
    exact hline _ _ rfl
  | @task _ body task hread =>
    obtain ⟨_, _, _, _, _, _, _, _, full, hbody, _, hitem, _, hfull, rfl⟩ :=
      newTask_eq_ok_iff.1 hread
    refine { h with items := ?_ }
    intro item hmem
    rcases List.mem_cons.1 ((items_concat_task s _).mem_iff.1 hmem) with rfl | hmem
    · exact Item.isWrittenIn_of_newItem h (hline _ _ rfl) hbody hitem hfull
    · exact h.items item hmem
  | @milestone _ body milestone hread =>
    obtain ⟨_, _, _, _, _, _, hbody, _, hitem, hfull⟩ := newMilestone_eq_ok_iff.1 hread
    refine { h with items := ?_ }
    intro item hmem
    rcases List.mem_cons.1 ((items_concat_milestone s _).mem_iff.1 hmem) with rfl | hmem
    · exact Item.isWrittenIn_of_newItem h (hline _ _ rfl) hbody hitem hfull
    · exact h.items item hmem
  | @click _ body event hread =>
    obtain ⟨id, word, url, kind, hbody, _, _, rfl⟩ := newEvent_eq_ok_iff.1 hread
    refine { h with events := ?_ }
    refine List.forall_mem_append.2 ⟨h.events, List.forall_mem_singleton.2 ⟨?_, ?_⟩⟩
    · exact madeOf_fieldText (hline _ _ rfl) (by simp [hbody])
    · exact madeOf_fieldText (hline _ _ rfl) (by simp [hbody])

end Change

/-- Nothing holds no characters. -/
theorem isWrittenIn_nil (p : Char → Prop) : Schedule.IsWrittenIn p {} where
  options key _ h := by cases key <;> cases h
  groups := by simp
  items := by simp [Schedule.items]
  events := by simp

/-- **A schedule is written in the characters of its text**, and spaces.  The lines of a text
    hold only its characters, so the step `Schedule.IsWrittenIn.change` applies to each. -/
theorem ofText_isWrittenIn {p : Char → Prop} (hspace : p ' ') {text : String} {s : Schedule}
    (h : Schedule.ofText text = .ok s) (htext : ∀ c ∈ text.toList, p c) : s.IsWrittenIn p := by
  have hlines : ∀ line ∈ lines text.toList, ∀ c ∈ line, p c :=
    fun line hline c hc => htext c (mem_of_mem_lines hline hc)
  refine Schedule.addLines_induction
    (fun texts s => (∀ line ∈ texts, ∀ c ∈ line, p c) → s.IsWrittenIn p)
    (fun _ => isWrittenIn_nil p) ?_ h hlines
  intro front line before after hbefore hchange hall
  obtain ⟨hfront, hlast⟩ := List.forall_mem_append.1 hall
  refine (hbefore hfront).change hspace hchange fun keyword body hline c hc => ?_
  exact List.forall_mem_singleton.1 hlast c (Line.mem_of_mem_body hline hc)

end GanttChart
