/-
  Well-formed schedules.

  A text is taken as its lines, each as what it is: `source : List Line`.  Positions in it count
  from 0.  A schedule is well formed for a source when

  1. **Ids.**  The ids of tasks and milestones together are different from each other and usable as
     fields; each is declared on exactly one line (`Named`).

  2. **Links.**  Groups, tasks, milestones and events are, in order, what the lines of their kind
     say (`Linked`), and what such a line refers to stands on earlier lines (`Placed`, `Refers`):
     dependencies and the item of a click are declared before, and the group is that of the last
     group line before.

  The empty schedule is well formed for no lines, and every change keeps it so
  (`WellFormed.concat`).  The load-bearing fact is that a reader checks ids against the schedule of
  the lines before: with `Named`, an id that a schedule contains is one that an earlier line declares
  (`WellFormed.declaredBefore`).
-/
import GanttChart.Proofs.Schedule.Prefix
import GanttChart.Proofs.Text.Trim
import Mathlib.Data.List.Forall2

namespace GanttChart

open GanttChart.Text

/-! ## Lines and their positions

  A line has the same position in a source and in any longer one, so what is known of it stays
  known.  The lemmas of this section say what is added by one more line, for every notion that
  speaks of positions. -/

namespace Line

/-- The line is a statement with the keyword. -/
def isStatement (keyword : Keyword) : Line → Bool
  | .statement other _ => other == keyword
  | _ => false

/-- The id that a task or milestone line declares, its second field. -/
def declaredId? : Line → Option String
  | .statement .task body => (fields body)[1]?.map Schedule.fieldText
  | .statement .milestone body => (fields body)[1]?.map Schedule.fieldText
  | _ => none

/-- The id that a click line refers to, its first field. -/
def clickedId? : Line → Option String
  | .statement .click body => (fields body)[0]?.map Schedule.fieldText
  | _ => none

/-- The group that a group line opens. -/
def group? : Line → Option Group
  | .statement .group body => some { title := String.ofList body }
  | _ => none

end Line

/-- The positions of the statements with a keyword, in order. -/
def positions (keyword : Keyword) (source : List Line) : List Nat :=
  source.findIdxs (Line.isStatement keyword)

/-- One more line has the next position, if it is of the kind. -/
theorem positions_concat (keyword : Keyword) (source : List Line) (line : Line) :
    positions keyword (source ++ [line]) =
      positions keyword source ++ if line.isStatement keyword then [source.length] else [] := by
  simp [positions]

/-- A position before the new line was one of the positions already. -/
theorem mem_positions_of_concat {keyword : Keyword} {source : List Line} {line : Line} {k : Nat}
    (h : k ∈ positions keyword (source ++ [line])) (hk : k < source.length) :
    k ∈ positions keyword source := by
  rw [positions_concat, List.mem_append] at h
  rcases h with h | h
  · exact h
  · split at h
    · rw [List.mem_singleton] at h
      omega
    · cases h

/-- Positions are within the source. -/
theorem lt_of_mem_positions {keyword : Keyword} {source : List Line} {k : Nat}
    (h : k ∈ positions keyword source) : k < source.length :=
  (List.mem_findIdxs_iff_exists_getElem_pos.1 h).1

/-- The line at a position declares the id. -/
def Declares (source : List Line) (k : Nat) (id : String) : Prop :=
  source[k]?.bind Line.declaredId? = some id

/-- A line before the position declares the id. -/
def DeclaredBefore (source : List Line) (k : Nat) (id : String) : Prop :=
  ∃ i < k, Declares source i id

/-- What a line says at a position of the longer source, an old line says or the new one. -/
theorem bind_getElem?_concat {α : Type} (f : Line → Option α) (source : List Line) (line : Line)
    (k : Nat) (a : α) :
    (source ++ [line])[k]?.bind f = some a ↔
      source[k]?.bind f = some a ∨ k = source.length ∧ f line = some a := by
  -- an old position, that of the new line, or one past the end
  rcases Nat.lt_or_ge k source.length with hk | hk
  · rw [List.getElem?_append_left hk]
    constructor
    · exact Or.inl
    · rintro (h | ⟨h, _⟩)
      · exact h
      · omega
  · rw [List.getElem?_append_right hk, List.getElem?_eq_none hk]
    rcases Nat.eq_or_lt_of_le hk with rfl | hlt
    · simp
    · rw [List.getElem?_eq_none (by simp; omega)]
      constructor
      · exact Or.inl
      · rintro (h | ⟨h, _⟩)
        · exact h
        · omega

/-- An id is declared by an old line or by the new one. -/
theorem declares_concat {source : List Line} {line : Line} {k : Nat} {id : String} :
    Declares (source ++ [line]) k id ↔
      Declares source k id ∨ k = source.length ∧ line.declaredId? = some id :=
  bind_getElem?_concat Line.declaredId? source line k id

/-- A line that declares an id is within the source. -/
theorem Declares.lt_length {source : List Line} {k : Nat} {id : String}
    (h : Declares source k id) : k < source.length := by
  rcases Nat.lt_or_ge k source.length with hk | hk
  · exact hk
  · rw [Declares, List.getElem?_eq_none hk] at h
    cases h

/-- An id that is declared before a position stays so. -/
theorem DeclaredBefore.concat {source : List Line} {k : Nat} {id : String}
    (h : DeclaredBefore source k id) (line : Line) : DeclaredBefore (source ++ [line]) k id := by
  obtain ⟨i, hi, hdeclares⟩ := h
  exact ⟨i, hi, declares_concat.2 (.inl hdeclares)⟩

/-! ## Well-formedness

  The relation has two halves.  `Named` is about all items together, whichever lines they come
  from.  `Linked` is about each kind on its own: its values stand in the order of their lines,
  one for each, and each is related to its line. -/

/-- A word that can be the id of an item.  It has no comma and no blanks around it, so it can
    stand in a field again and is read as itself there. -/
structure IsId (id : String) : Prop where
  ne_empty : id ≠ ""
  comma_notMem : ',' ∉ id.toList
  head_not_blank : ∀ c, id.toList.head? = some c → isBlank c = false
  last_not_blank : ∀ c, id.toList.getLast? = some c → isBlank c = false

/-- The group that an item on the line at a position belongs to: none without a group line before
    it, and otherwise the last of them, counted among all group lines. -/
def InLastGroup (source : List Line) (k : Nat) : Option Nat → Prop
  | none => ∀ i ∈ positions .group source, k ≤ i
  | some g => ∃ i < k, (positions .group source)[g]? = some i ∧
      ∀ j ∈ positions .group source, j < k → j ≤ i

/-- The group is the one that the line at the position opens. -/
def Opens (source : List Line) (k : Nat) (group : Group) : Prop :=
  source[k]?.bind Line.group? = some group

/-- The item is declared by the line at a position and refers to earlier lines only.  Positions
    are of the whole source, so that a line of another kind in between makes no difference. -/
structure Placed (source : List Line) (k : Nat) (item : Item) : Prop where
  declares : Declares source k item.id
  dependencies : ∀ id ∈ item.dependencies, DeclaredBefore source k id
  group : InLastGroup source k item.group

/-- The event is on the item that the line at the position names, which an earlier line declares. -/
structure Refers (source : List Line) (k : Nat) (event : Event) : Prop where
  names : source[k]?.bind Line.clickedId? = some event.target
  target : DeclaredBefore source k event.target

/-- The values belong, in order, to the statements with a keyword.  There are as many of them as
    of these. -/
def Linked {α : Type} (R : List Line → Nat → α → Prop) (keyword : Keyword) (source : List Line)
    (values : List α) : Prop :=
  List.Forall₂ (R source) (positions keyword source) values

/-- What holds of all items together. -/
structure Named (source : List Line) (s : Schedule) : Prop where
  ids_nodup : (s.items.map Item.id).Nodup
  isId : ∀ item ∈ s.items, IsId item.id
  /-- An id that a line declares is that of an item. -/
  declared : ∀ k id, Declares source k id → ∃ item ∈ s.items, item.id = id
  declared_once : ∀ i j id, Declares source i id → Declares source j id → i = j
  group_lt : ∀ item ∈ s.items, ∀ g, item.group = some g → g < s.groups.length

/-- The schedule is well formed and is what the lines of the source say. -/
structure WellFormed (source : List Line) (s : Schedule) : Prop extends Named source s where
  groups : Linked Opens .group source s.groups
  tasks : Linked (fun source k task => Placed source k task.toItem) .task source s.tasks
  milestones : Linked Placed .milestone source s.milestones
  events : Linked Refers .click source s.events

/-! ## One more line

  Positions of old lines do not change, and what a line may refer to stands before it.  So each
  relation to an old line holds in the longer source too. -/

/-- The last group before an old line is the same with one more line behind. -/
theorem InLastGroup.concat {source : List Line} {k : Nat} {group : Option Nat}
    (h : InLastGroup source k group) (hk : k < source.length) (line : Line) :
    InLastGroup (source ++ [line]) k group := by
  cases group with
  | none =>
    -- no group line before the old line; the new one comes later
    intro i hi
    rcases Nat.lt_or_ge i k with hik | hik
    · exact h i (mem_positions_of_concat hi (by omega))
    · exact hik
  | some g =>
    obtain ⟨i, hik, hget, hlast⟩ := h
    refine ⟨i, hik, ?_, fun j hj hjk => hlast j (mem_positions_of_concat hj (by omega)) hjk⟩
    rw [positions_concat, List.getElem?_append_left (List.getElem?_eq_some_iff.1 hget).1]
    exact hget

/-- An old line opens the same group. -/
theorem Opens.concat {source : List Line} {k : Nat} {group : Group} (h : Opens source k group)
    (line : Line) : Opens (source ++ [line]) k group :=
  (bind_getElem?_concat Line.group? source line k group).2 (.inl h)

/-- An item stays placed. -/
theorem Placed.concat {source : List Line} {k : Nat} {item : Item} (h : Placed source k item)
    (line : Line) : Placed (source ++ [line]) k item where
  declares := declares_concat.2 (.inl h.declares)
  dependencies id hid := (h.dependencies id hid).concat line
  group := h.group.concat h.declares.lt_length line

/-- An event still refers to an earlier item. -/
theorem Refers.concat {source : List Line} {k : Nat} {event : Event} (h : Refers source k event)
    (line : Line) : Refers (source ++ [line]) k event where
  names := (bind_getElem?_concat Line.clickedId? source line k event.target).2 (.inl h.names)
  target := h.target.concat line

section Linked

variable {α : Type} {R : List Line → Nat → α → Prop} {keyword : Keyword} {source : List Line}
  {values : List α} {line : Line}

/-- A line of another kind leaves the values alone. -/
theorem Linked.concat_other (h : Linked R keyword source values)
    (hR : ∀ k value, R source k value → R (source ++ [line]) k value)
    (hline : line.isStatement keyword = false) : Linked R keyword (source ++ [line]) values := by
  unfold Linked
  rw [positions_concat, hline, if_neg Bool.false_ne_true, List.append_nil]
  exact h.imp hR

/-- A line of the kind stands for one more value, which is related to it. -/
theorem Linked.concat_self (h : Linked R keyword source values)
    (hR : ∀ k value, R source k value → R (source ++ [line]) k value)
    (hline : line.isStatement keyword = true) {value : α}
    (hvalue : R (source ++ [line]) source.length value) :
    Linked R keyword (source ++ [line]) (values ++ [value]) := by
  unfold Linked
  rw [positions_concat, if_pos hline]
  exact List.rel_append (h.imp hR) (.cons hvalue .nil)

/-- Every value has its line. -/
theorem Linked.exists_of_mem (h : Linked R keyword source values) {value : α}
    (hvalue : value ∈ values) : ∃ k ∈ positions keyword source, R source k value := by
  obtain ⟨n, hn, rfl⟩ := List.getElem_of_mem hvalue
  have hlength := h.length_eq
  exact ⟨_, List.getElem_mem (by omega), h.get (by omega) hn⟩

end Linked

/-! ## The items together -/

/-- The id of a checked item is usable: it is a field without the blanks around it, and not
    empty. -/
theorem Schedule.Admits.isId {s : Schedule} {body : List Char} {item : Item}
    (h : s.Admits body item) : IsId item.id := by
  obtain ⟨field, hfield, hid, hne⟩ := h.field
  have hlist : item.id.toList = trim field := by
    rw [hid, Schedule.fieldText, String.toList_ofList]
  have hmem : field ∈ fields body := List.mem_of_getElem? hfield
  refine ⟨?_, ?_, ?_, ?_⟩
  · intro hempty
    rw [hempty] at hlist
    exact hne hlist.symm
  · rw [hlist]
    intro hcomma
    exact comma_notMem_of_mem_fields hmem (mem_of_mem_trim hcomma)
  · rw [hlist]
    exact fun c => isBlank_of_head?_trim
  · rw [hlist]
    exact fun c => isBlank_of_getLast?_trim

section Named

variable {source : List Line} {s after : Schedule} {line : Line}

/-- A line that declares no id, and takes no group away.  Ids are declared where they were, and
    groups that items belong to are still there. -/
theorem Named.concat_other (h : Named source s) (hitems : after.items = s.items)
    (hline : line.declaredId? = none) (hgroups : s.groups.length ≤ after.groups.length) :
    Named (source ++ [line]) after := by
  have hdeclares : ∀ k id, Declares (source ++ [line]) k id → Declares source k id := by
    intro k id hk
    rcases declares_concat.1 hk with hk | ⟨_, hk⟩
    · exact hk
    · rw [hline] at hk
      cases hk
  refine ⟨?_, ?_, ?_, ?_, ?_⟩
  · rw [hitems]
    exact h.ids_nodup
  · rw [hitems]
    exact h.isId
  · rw [hitems]
    exact fun k id hk => h.declared k id (hdeclares k id hk)
  · exact fun i j id hi hj => h.declared_once i j id (hdeclares i id hi) (hdeclares j id hj)
  · rw [hitems]
    intro item hitem g hg
    exact Nat.lt_of_lt_of_le (h.group_lt item hitem g hg) hgroups

/-- A line that declares the id of a new item, which has been checked.  The id is not in use, so
    neither an item nor an earlier line has it already; this keeps the ids apart, and the lines
    that declare them. -/
theorem Named.concat_item {body : List Char} {item : Item} (h : Named source s)
    (hitem : s.Admits body item) (hitems : after.items.Perm (item :: s.items))
    (hline : line.declaredId? = some item.id) (hgroups : after.groups = s.groups) :
    Named (source ++ [line]) after := by
  have hfresh : ∀ other ∈ s.items, other.id ≠ item.id := by
    intro other hother heq
    have hused : s.contains item.id = true := Schedule.contains_iff.2 ⟨other, hother, heq⟩
    rw [hitem.unused] at hused
    cases hused
  -- No line before the new one declares the new id, for its item would be there.
  have hnew : ∀ k, ¬ Declares source k item.id := by
    intro k hk
    obtain ⟨other, hother, heq⟩ := h.declared k item.id hk
    exact hfresh other hother heq
  refine ⟨?_, ?_, ?_, ?_, ?_⟩
  · rw [(hitems.map Item.id).nodup_iff, List.map_cons, List.nodup_cons]
    refine ⟨?_, h.ids_nodup⟩
    intro hmem
    obtain ⟨other, hother, heq⟩ := List.mem_map.1 hmem
    exact hfresh other hother heq
  · intro other hother
    rcases List.mem_cons.1 (hitems.mem_iff.1 hother) with rfl | hother
    · exact hitem.isId
    · exact h.isId other hother
  · intro k id hk
    rcases declares_concat.1 hk with hk | ⟨_, hk⟩
    · obtain ⟨other, hother, heq⟩ := h.declared k id hk
      exact ⟨other, hitems.mem_iff.2 (List.mem_cons_of_mem _ hother), heq⟩
    · rw [hline] at hk
      cases hk
      exact ⟨item, hitems.mem_iff.2 List.mem_cons_self, rfl⟩
  · intro i j id hi hj
    -- two lines that declare one id: both old, one of them new, or both the new one
    rcases declares_concat.1 hi with hi | ⟨hi, hid⟩ <;>
      rcases declares_concat.1 hj with hj | ⟨hj, hjd⟩
    · exact h.declared_once i j id hi hj
    · rw [hline] at hjd
      cases hjd
      exact absurd hi (hnew i)
    · rw [hline] at hid
      cases hid
      exact absurd hj (hnew j)
    · omega
  · intro other hother g hg
    rw [hgroups]
    rcases List.mem_cons.1 (hitems.mem_iff.1 hother) with rfl | hother
    · rw [hitem.group, Schedule.currentGroup?] at hg
      split at hg
      · cases hg
      · rename_i hgroup
        have hpos : 0 < s.groups.length := List.length_pos_iff.2 (by simpa using hgroup)
        cases hg
        omega
    · exact h.group_lt other hother g hg

end Named

/-! ## The links of new values

  A reader knows the schedule, not the source.  What it has checked against the schedule has to
  be said again of the lines: an id in use is one of an earlier line, and the last group is that
  of the last group line. -/

section WellFormed

variable {source : List Line} {s after : Schedule} {line : Line}

/-- The last group of a schedule is the last group line before the next line. -/
theorem Linked.inLastGroup (h : Linked Opens .group source s.groups) (line : Line) :
    InLastGroup (source ++ [line]) source.length s.currentGroup? := by
  have hlength : (positions .group source).length = s.groups.length := h.length_eq
  unfold Schedule.currentGroup?
  split
  · -- no groups, so no group lines among the old ones
    rename_i hnone
    have hnil : positions .group source = [] :=
      List.length_eq_zero_iff.1 (by rw [hlength]; simpa using hnone)
    intro i hi
    rcases Nat.lt_or_ge i source.length with hlt | hge
    · have hmem := mem_positions_of_concat hi hlt
      rw [hnil] at hmem
      cases hmem
    · exact hge
  · -- the last group belongs to the last of the group lines, and positions increase
    rename_i hsome
    have hpos : 0 < s.groups.length := List.length_pos_iff.2 (by simpa using hsome)
    have hlast : s.groups.length - 1 < (positions .group source).length := by omega
    refine ⟨(positions .group source)[s.groups.length - 1], ?_, ?_, ?_⟩
    · exact lt_of_mem_positions (List.getElem_mem hlast)
    · rw [positions_concat, List.getElem?_append_left hlast, List.getElem?_eq_getElem hlast]
    · intro j hj hlt
      obtain ⟨n, hn, rfl⟩ := List.getElem_of_mem (mem_positions_of_concat hj hlt)
      rcases Nat.eq_or_lt_of_le (show n ≤ s.groups.length - 1 by omega) with heq | hless
      · simp only [heq]
        exact Nat.le_refl _
      · exact Nat.le_of_lt (List.pairwise_iff_getElem.1 List.pairwise_findIdxs _ _ hn hlast hless)

/-- Every item has a line that declares it. -/
theorem WellFormed.exists_declares (h : WellFormed source s) {item : Item}
    (hitem : item ∈ s.items) : ∃ k < source.length, Declares source k item.id := by
  rcases List.mem_append.1 hitem with hitem | hitem
  · obtain ⟨task, htask, rfl⟩ := List.mem_map.1 hitem
    obtain ⟨k, hk, hplaced⟩ := h.tasks.exists_of_mem htask
    exact ⟨k, lt_of_mem_positions hk, hplaced.declares⟩
  · obtain ⟨k, hk, hplaced⟩ := h.milestones.exists_of_mem hitem
    exact ⟨k, lt_of_mem_positions hk, hplaced.declares⟩

/-- **An id that a schedule contains is declared before the next line.**  This turns the checks
    of the readers into statements about lines. -/
theorem WellFormed.declaredBefore (h : WellFormed source s) {id : String}
    (hid : s.contains id = true) (line : Line) :
    DeclaredBefore (source ++ [line]) source.length id := by
  obtain ⟨item, hitem, rfl⟩ := Schedule.contains_iff.1 hid
  obtain ⟨k, hk, hdeclares⟩ := h.exists_declares hitem
  exact ⟨k, hk, declares_concat.2 (.inl hdeclares)⟩

/-- A checked item is placed on the line that declares it. -/
theorem WellFormed.placed {body : List Char} {item : Item} (h : WellFormed source s)
    (hitem : s.Admits body item) (hline : line.declaredId? = some item.id) :
    Placed (source ++ [line]) source.length item where
  declares := declares_concat.2 (.inr ⟨rfl, hline⟩)
  dependencies id hid := h.declaredBefore (hitem.dependencies id hid) line
  group := by
    rw [hitem.group]
    exact h.groups.inLastGroup line

/-! ## The step and the run -/

/-- The id of a checked item is the one that its line declares. -/
theorem Schedule.Admits.declaredId {s : Schedule} {body : List Char} {item : Item}
    (h : s.Admits body item) : (fields body)[1]?.map Schedule.fieldText = some item.id := by
  obtain ⟨field, hfield, hid, _⟩ := h.field
  rw [hfield, hid]
  rfl

/-- A new task is one more item, in front of the milestones. -/
theorem items_concat_task (s : Schedule) (task : Task) :
    { s with tasks := s.tasks ++ [task] }.items.Perm (task.toItem :: s.items) := by
  unfold Schedule.items
  rw [List.map_append, List.append_assoc]
  exact List.perm_middle

/-- A new milestone is one more item, behind all others. -/
theorem items_concat_milestone (s : Schedule) (milestone : Item) :
    { s with milestones := s.milestones ++ [milestone] }.items.Perm (milestone :: s.items) := by
  unfold Schedule.items
  rw [← List.append_assoc]
  exact List.perm_append_singleton milestone _

/-- A line that adds to no list keeps a schedule well formed. -/
theorem WellFormed.concat_options (h : WellFormed source s) (options : Options)
    (hid : line.declaredId? = none) (hgroup : line.isStatement .group = false)
    (htask : line.isStatement .task = false) (hmilestone : line.isStatement .milestone = false)
    (hclick : line.isStatement .click = false) :
    WellFormed (source ++ [line]) { s with options } where
  toNamed := h.toNamed.concat_other rfl hid (Nat.le_refl _)
  groups := h.groups.concat_other (fun _ _ hold => hold.concat line) hgroup
  tasks := h.tasks.concat_other (fun _ _ hold => hold.concat line) htask
  milestones := h.milestones.concat_other (fun _ _ hold => hold.concat line) hmilestone
  events := h.events.concat_other (fun _ _ hold => hold.concat line) hclick

/-- **Every change keeps a schedule well formed.**  Of the five lists of links one grows, or
    none; the others are carried over by the lemmas on one more line. -/
theorem WellFormed.concat (h : WellFormed source s) (hchange : Change line s after) :
    WellFormed (source ++ [line]) after := by
  have hopens : ∀ k group, Opens source k group → Opens (source ++ [line]) k group :=
    fun _ _ hold => hold.concat line
  have htasks : ∀ k (task : Task), Placed source k task.toItem →
      Placed (source ++ [line]) k task.toItem := fun _ _ hold => hold.concat line
  have hplaced : ∀ k item, Placed source k item → Placed (source ++ [line]) k item :=
    fun _ _ hold => hold.concat line
  have hrefers : ∀ k event, Refers source k event → Refers (source ++ [line]) k event :=
    fun _ _ hold => hold.concat line
  -- The list of the line's kind gets one more link; the others keep theirs, for a new line after
  -- them changes nothing that they refer to.
  cases hchange with
  | ignored => exact h.concat_options s.options rfl rfl rfl rfl rfl
  | noOption _ => exact h.concat_options s.options rfl rfl rfl rfl rfl
  | option _ => exact h.concat_options _ rfl rfl rfl rfl rfl
  | group =>
    exact {
      toNamed := h.toNamed.concat_other rfl rfl (by simp)
      groups := h.groups.concat_self hopens rfl (by simp [Opens, Line.group?])
      tasks := h.tasks.concat_other htasks rfl
      milestones := h.milestones.concat_other hplaced rfl
      events := h.events.concat_other hrefers rfl }
  | @task _ body task hread =>
    have hitem := Schedule.admits_of_newTask hread
    exact {
      toNamed := h.toNamed.concat_item hitem (items_concat_task s task) hitem.declaredId rfl
      groups := h.groups.concat_other hopens rfl
      tasks := h.tasks.concat_self htasks rfl (h.placed hitem hitem.declaredId)
      milestones := h.milestones.concat_other hplaced rfl
      events := h.events.concat_other hrefers rfl }
  | @milestone _ body milestone hread =>
    have hitem := Schedule.admits_of_newMilestone hread
    exact {
      toNamed :=
        h.toNamed.concat_item hitem (items_concat_milestone s milestone) hitem.declaredId rfl
      groups := h.groups.concat_other hopens rfl
      tasks := h.tasks.concat_other htasks rfl
      milestones := h.milestones.concat_self hplaced rfl (h.placed hitem hitem.declaredId)
      events := h.events.concat_other hrefers rfl }
  | @click _ body event hread =>
    obtain ⟨id, word, url, kind, hbody, hid, _, rfl⟩ := Schedule.newEvent_eq_ok_iff.1 hread
    exact {
      toNamed := h.toNamed.concat_other rfl rfl (Nat.le_refl _)
      groups := h.groups.concat_other hopens rfl
      tasks := h.tasks.concat_other htasks rfl
      milestones := h.milestones.concat_other hplaced rfl
      events := h.events.concat_self hrefers rfl {
        names := by simp [Line.clickedId?, hbody]
        target := h.declaredBefore hid _ } }

end WellFormed

/-- Nothing is well formed for no lines. -/
theorem wellFormed_nil : WellFormed [] {} where
  ids_nodup := List.nodup_nil
  isId := by simp [Schedule.items]
  declared := by simp [Declares]
  declared_once := by simp [Declares]
  group_lt := by simp [Schedule.items]
  groups := .nil
  tasks := .nil
  milestones := .nil
  events := .nil

/-- The lines of a text, each as what it is. -/
def sourceOf (text : String) : List Line := (lines text.toList).map Line.ofText

/-- Accepted lines leave a well-formed schedule: by `addLines_induction`, with
    `WellFormed.concat` as its step. -/
theorem wellFormed_of_addLines {texts : List (List Char)} {s : Schedule}
    (h : Schedule.addLines {} 1 texts = .ok s) : WellFormed (texts.map Line.ofText) s := by
  refine Schedule.addLines_induction (fun texts s => WellFormed (texts.map Line.ofText) s)
    wellFormed_nil ?_ h
  intro front text before after hbefore hchange
  rw [List.map_append]
  exact hbefore.concat hchange

/-- **An accepted text describes a well-formed schedule.**  The ids are usable and different, every
    dependency and every click refers to an item that an earlier line declares, and items belong to
    the last group line before them. -/
theorem ofText_wellFormed {text : String} {s : Schedule} (h : Schedule.ofText text = .ok s) :
    WellFormed (sourceOf text) s :=
  wellFormed_of_addLines h

/-- A chart in two groups, with a dependency and a click on an earlier item. -/
theorem ofText_wellFormed_two_groups :
    ∃ s, Schedule.ofText
        "group A\ntask T,a,,2024-01-01,1D\ngroup B\nmilestone M,m,,2024-01-03,a\nclick m,popup,x.io" =
          .ok s ∧
      s.items.map (fun item => (item.id, item.dependencies, item.group)) =
        [("a", [], some 0), ("m", ["a"], some 1)] ∧
      WellFormed (sourceOf
        "group A\ntask T,a,,2024-01-01,1D\ngroup B\nmilestone M,m,,2024-01-03,a\nclick m,popup,x.io")
        s := by
  have hok : ((Schedule.ofText
      "group A\ntask T,a,,2024-01-01,1D\ngroup B\nmilestone M,m,,2024-01-03,a\nclick m,popup,x.io").map
        fun s => s.items.map fun item => (item.id, item.dependencies, item.group)) =
      .ok [("a", [], some 0), ("m", ["a"], some 1)] := by decide +kernel
  obtain ⟨s, hs, hitems⟩ := Outcome.map_eq_ok_iff.1 hok
  exact ⟨s, hs, hitems, ofText_wellFormed hs⟩

end GanttChart
