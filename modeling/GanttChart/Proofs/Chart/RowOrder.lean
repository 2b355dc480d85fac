/-
  What the rows show, and in which order.

  1. **Contents.**  Beside its number a row says an item, whether that is a task or a milestone, and
     where it ends.  `Schedule.contents` lists what there is to say, straight from the schedule, and
     the rows say it in another order (`Schedule.map_content_rows`).

  2. **Ties.**  A sort that is stable leaves members alone that may stand either way, so among rows
     of one key nothing is moved (`filter_mergeSort`).

  3. **Groups.**  In one group the key is the start times a positive number, and without a group it is
     zero.  So the first go by their starts and the others stay as they are declared.

  `IsOrdered` says all of this of a list of rows, in terms of the items alone.  It determines the rows:
  contents in a given order, stable, and numbered from the top.
-/
import GanttChart.Proofs.Chart.Row

namespace GanttChart

/-! ## Contents -/

/-- The key of an item: its start in milliseconds since the epoch, times the place of its group
    counted from one, or times zero without a group. -/
def Item.sortKey (item : Item) : Int :=
  item.start.timestampMilliseconds * item.group.elim 0 fun position => (position : Int) + 1

/-- What a row says beside its number: its item, what kind that is, and where it ends. -/
abbrev Content := Item × RowKind × Instant

/-- The content of a row. -/
def Row.content (row : Row) : Content := (row.toItem, row.kind, row.finish)

/-- Every task with its end, then every milestone, which ends where it starts. -/
def Schedule.contents (s : Schedule) : List Content :=
  s.tasks.map (fun task => (task.toItem, .task, task.finish)) ++
    s.milestones.map fun milestone => (milestone, .milestone, milestone.start)

/-- A row has the key of its item. -/
theorem Row.sortKey_eq (row : Row) : row.sortKey = row.toItem.sortKey := by
  unfold Row.sortKey Item.sortKey
  cases row.group <;> rfl

namespace Schedule

/-- The declared rows say the contents in their order. -/
theorem map_content_declaredRows (s : Schedule) : s.declaredRows.map Row.content = s.contents := by
  simp only [declaredRows, contents, List.map_append, List.map_map]
  rfl

/-- Numbering the sorted rows leaves what they say alone. -/
theorem map_content_rows (s : Schedule) :
    s.rows.map Row.content = s.sortedRows.map Row.content := by
  rw [← map_unplaced_rows, List.map_map]
  rfl

/-- A part of the contents, picked out by what the rows say. -/
theorem filter_contents (s : Schedule) (p : Content → Bool) :
    s.contents.filter p = (s.declaredRows.filter (p ∘ Row.content)).map Row.content := by
  rw [← map_content_declaredRows, List.filter_map]

/-! ## Ties -/

/-- **A stable sort does not move ties**: members that may stand either way keep their order.
    Picked out of the list they are sorted already, and a sorted sublist stays a sublist of the
    sort. -/
theorem filter_mergeSort {α : Type} {le : α → α → Bool}
    (trans : ∀ a b c, le a b = true → le b c = true → le a c = true)
    (total : ∀ a b, (le a b || le b a) = true) {p : α → Bool} {l : List α}
    (ties : ∀ a b, p a = true → p b = true → le a b = true) :
    (l.mergeSort le).filter p = l.filter p := by
  have hsorted : (l.filter p).Pairwise fun a b => le a b = true :=
    List.pairwise_of_forall_mem_list fun a ha b hb =>
      ties a b (List.mem_filter.1 ha).2 (List.mem_filter.1 hb).2
  have hsub : (l.filter p).Sublist (l.mergeSort le) :=
    List.sublist_mergeSort trans total hsorted List.filter_sublist
  -- what is left of the sort holds what is left of the list, and no more
  have hleft : (l.filter p).Sublist ((l.mergeSort le).filter p) := by
    have h := hsub.filter p
    rwa [List.filter_filter, List.filter_congr fun a _ => Bool.and_self (p a)] at h
  exact (hleft.eq_of_length ((List.mergeSort_perm l le).filter p).length_eq.symm).symm

/-- Rows of equal keys stand as they are declared. -/
theorem filter_map_content_rows {s : Schedule} {p : Content → Bool}
    (h : ∀ a b : Content, p a = true → p b = true → a.1.sortKey = b.1.sortKey) :
    (s.rows.map Row.content).filter p = s.contents.filter p := by
  have hties : ∀ a b : Row, (p ∘ Row.content) a = true → (p ∘ Row.content) b = true →
      Row.precedes a b = true := by
    intro a b ha hb
    rw [Row.precedes_iff, a.sortKey_eq, b.sortKey_eq]
    exact Int.le_of_eq (h a.content b.content ha hb)
  rw [map_content_rows, List.filter_map, filter_contents, sortedRows,
    filter_mergeSort Row.precedes_trans Row.precedes_total hties]

/-! ## Groups -/

/-- In one group the keys order rows as their starts do. -/
theorem timestamp_le_of_sortKey_le {a b : Item} {g : Nat} (ha : a.group = some g)
    (hb : b.group = some g) (h : a.sortKey ≤ b.sortKey) :
    a.start.timestampMilliseconds ≤ b.start.timestampMilliseconds := by
  simp only [Item.sortKey, ha, hb, Option.elim_some] at h
  exact Int.le_of_mul_le_mul_right h (by omega)

/-- The rows are the contents of a schedule in the order of their keys, and numbered. -/
structure IsOrdered (s : Schedule) (rows : List Row) : Prop where
  /-- Nothing is lost, doubled or changed. -/
  contents : (rows.map Row.content).Perm s.contents
  sorted : rows.Pairwise fun a b => a.toItem.sortKey ≤ b.toItem.sortKey
  /-- Equal keys keep the order of declaration, tasks before milestones. -/
  stable : ∀ key, (rows.map Row.content).filter (fun content => content.1.sortKey == key) =
    s.contents.filter fun content => content.1.sortKey == key
  numbered : ∀ i (row : Row), rows[i]? = some row → row.index = i
  /-- The rows of a group go by their starts. -/
  grouped : ∀ g, (rows.filter fun row => row.group == some g).Pairwise fun a b =>
    a.start.timestampMilliseconds ≤ b.start.timestampMilliseconds
  /-- The rows of no group keep the order of declaration. -/
  ungrouped : (rows.map Row.content).filter (fun content => content.1.group == none) =
    s.contents.filter fun content => content.1.group == none

/-- **The rows of every schedule are its contents, sorted by key and stable.**  Rows of one key,
    and rows of no group, are ties, so they stand as declared; the rows of one group go by their
    starts, since the keys do. -/
theorem rows_isOrdered (s : Schedule) : s.IsOrdered s.rows := by
  have hsorted : s.rows.Pairwise fun a b => a.toItem.sortKey ≤ b.toItem.sortKey := by
    simp only [← Row.sortKey_eq]
    exact s.rows_pairwise
  constructor
  case contents =>
    rw [map_content_rows, ← map_content_declaredRows]
    exact s.sortedRows_perm.map Row.content
  case sorted => exact hsorted
  case stable =>
    intro key
    refine filter_map_content_rows fun a b ha hb => ?_
    exact (beq_iff_eq.1 ha).trans (beq_iff_eq.1 hb).symm
  case numbered => exact fun i row hrow => index_of_getElem? hrow
  -- within one group the key goes by the start
  case grouped =>
    intro g
    rw [List.pairwise_filter]
    refine hsorted.imp fun {a b} hkey ha hb => ?_
    exact timestamp_le_of_sortKey_le (beq_iff_eq.1 ha) (beq_iff_eq.1 hb) hkey
  -- without a group it is zero
  case ungrouped =>
    refine filter_map_content_rows fun a b ha hb => ?_
    have hzero : ∀ content : Content, (content.1.group == none) = true →
        content.1.sortKey = 0 := by
      intro content hnone
      rw [Item.sortKey, beq_iff_eq.1 hnone, Option.elim_none, Int.mul_zero]
    rw [hzero a ha, hzero b hb]

end Schedule

end GanttChart
