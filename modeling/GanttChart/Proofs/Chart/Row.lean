/-
  The order of rows.

  1. **Numbers.**  The rows are the declared ones, sorted and then numbered from the top, so a row's
     number is its position (`Schedule.index_of_getElem?`) and, but for the numbers, the rows are
     `Schedule.sortedRows` (`Schedule.map_unplaced_rows`).

  2. **Items.**  The rows show the items of the schedule, each once (`Schedule.map_toItem_rows`).

  3. **Order.**  The keys of the rows never fall from the top to the bottom.  Since the sort is
     stable, two rows of one key keep the order in which they are declared
     (`Schedule.pair_sublist_sortedRows`).  If no row is declared twice, this says for any two rows
     which one stands higher (`Schedule.pair_sublist_sortedRows_iff`).

  "Stands before" is put as a sublist of two: `[a, b].Sublist rows`.  That needs no positions, and the
  library's sort speaks of it too.

  Sorting is by a well-founded recursion and does not evaluate.  Where a chart has to be computed, its
  rows are in order as they are declared, and then sorting is left out (`Schedule.rows_eq_numberedRows`).
-/
import GanttChart.Chart.Row
import Mathlib.Data.List.Nodup

namespace GanttChart

namespace Row

/-- A row as it is before it has a number. -/
def unplaced (row : Row) : Row := { row with index := 0 }

/-- A row may stand before another one: its key is no larger. -/
def precedes (a b : Row) : Bool := a.sortKey ≤ b.sortKey

/-- One row may stand before another one if its key is no larger. -/
theorem precedes_iff {a b : Row} : precedes a b = true ↔ a.sortKey ≤ b.sortKey :=
  decide_eq_true_iff

/-- The order of keys is transitive. -/
theorem precedes_trans (a b c : Row) (hab : precedes a b = true) (hbc : precedes b c = true) :
    precedes a c = true :=
  precedes_iff.2 (Int.le_trans (precedes_iff.1 hab) (precedes_iff.1 hbc))

/-- Any two rows are comparable, so that sorting by the keys is well defined. -/
theorem precedes_total (a b : Row) : (precedes a b || precedes b a) = true := by
  rw [Bool.or_eq_true, precedes_iff, precedes_iff]
  exact Int.le_total _ _

end Row

namespace Schedule

/-- The rows of a schedule in their order, not yet numbered. -/
def sortedRows (s : Schedule) : List Row := s.declaredRows.mergeSort Row.precedes

/-! ## Numbers -/

/-- The row at a position is the sorted one with this number. -/
theorem getElem?_rows (s : Schedule) (i : Nat) :
    s.rows[i]? = s.sortedRows[i]?.map fun row => { row with index := i } := by
  unfold rows sortedRows
  rw [List.getElem?_mapIdx]
  rfl

/-- A row's number is its position. -/
theorem index_of_getElem? {s : Schedule} {i : Nat} {row : Row} (h : s.rows[i]? = some row) :
    row.index = i := by
  rw [getElem?_rows, Option.map_eq_some_iff] at h
  obtain ⟨sorted, _, rfl⟩ := h
  rfl

/-- A row stands at its number. -/
theorem getElem?_index {s : Schedule} {row : Row} (h : row ∈ s.rows) :
    s.rows[row.index]? = some row := by
  obtain ⟨i, hi⟩ := List.getElem?_of_mem h
  rw [index_of_getElem? hi]
  exact hi

/-- Numbers are positions of rows. -/
theorem index_lt_length {s : Schedule} {row : Row} (h : row ∈ s.rows) :
    row.index < s.rows.length :=
  (List.getElem?_eq_some_iff.1 (getElem?_index h)).1

/-- Declared rows have no number yet. -/
theorem unplaced_of_mem_declaredRows {s : Schedule} {row : Row} (h : row ∈ s.declaredRows) :
    row.unplaced = row := by
  rcases List.mem_append.1 h with h | h
  · obtain ⟨task, _, rfl⟩ := List.mem_map.1 h
    rfl
  · obtain ⟨milestone, _, rfl⟩ := List.mem_map.1 h
    rfl

/-- Sorting neither loses nor adds a row. -/
theorem sortedRows_perm (s : Schedule) : s.sortedRows.Perm s.declaredRows :=
  List.mergeSort_perm _ _

/-- Without their numbers the rows are the sorted ones. -/
theorem map_unplaced_rows (s : Schedule) : s.rows.map Row.unplaced = s.sortedRows := by
  apply List.ext_getElem?
  intro i
  rw [List.getElem?_map, getElem?_rows, Option.map_map]
  cases hrow : s.sortedRows[i]? with
  | none => rfl
  | some row =>
    have hmem : row ∈ s.declaredRows := s.sortedRows_perm.mem_iff.1 (List.mem_of_getElem? hrow)
    exact congrArg some (unplaced_of_mem_declaredRows hmem)

/-- What does not depend on numbers holds along the rows if it holds along the sorted ones. -/
theorem pairwise_rows_iff {s : Schedule} {R : Row → Row → Prop}
    (hR : ∀ a b, R a.unplaced b.unplaced ↔ R a b) :
    s.rows.Pairwise R ↔ s.sortedRows.Pairwise R := by
  rw [← map_unplaced_rows, List.pairwise_map]
  simp only [hR]

/-! ## Items -/

/-- The declared rows show the items in their order. -/
theorem map_toItem_declaredRows (s : Schedule) : s.declaredRows.map Row.toItem = s.items := by
  simp only [declaredRows, items, List.map_append, List.map_map]
  congr 1
  exact List.map_id _

/-- The rows show the items, each once. -/
theorem map_toItem_rows (s : Schedule) : (s.rows.map Row.toItem).Perm s.items := by
  have hsorted : s.rows.map Row.toItem = s.sortedRows.map Row.toItem := by
    rw [← map_unplaced_rows, List.map_map]
    rfl
  rw [hsorted, ← map_toItem_declaredRows]
  exact s.sortedRows_perm.map Row.toItem

/-- A row shows an item of the schedule. -/
theorem toItem_mem_items {s : Schedule} {row : Row} (h : row ∈ s.rows) : row.toItem ∈ s.items :=
  s.map_toItem_rows.mem_iff.1 (List.mem_map_of_mem h)

/-- Every item of the schedule has a row. -/
theorem exists_row_of_mem_items {s : Schedule} {item : Item} (h : item ∈ s.items) :
    ∃ row ∈ s.rows, row.toItem = item :=
  List.mem_map.1 (s.map_toItem_rows.mem_iff.2 h)

/-- The ids of rows are the ids of items. -/
theorem exists_row_iff {s : Schedule} {id : String} :
    (∃ row ∈ s.rows, row.id = id) ↔ s.contains id = true := by
  rw [contains_iff]
  constructor
  · rintro ⟨row, hrow, rfl⟩
    exact ⟨row.toItem, toItem_mem_items hrow, rfl⟩
  · rintro ⟨item, hitem, rfl⟩
    obtain ⟨row, hrow, rfl⟩ := exists_row_of_mem_items hitem
    exact ⟨row, hrow, rfl⟩

/-! ## Order -/

/-- **The keys never fall**, from a row to any row below it. -/
theorem sortedRows_pairwise (s : Schedule) :
    s.sortedRows.Pairwise fun a b => a.sortKey ≤ b.sortKey :=
  (List.pairwise_mergeSort Row.precedes_trans Row.precedes_total s.declaredRows).imp
    Row.precedes_iff.1

/-- Numbering changes no key. -/
theorem rows_pairwise (s : Schedule) : s.rows.Pairwise fun a b => a.sortKey ≤ b.sortKey :=
  (pairwise_rows_iff fun _ _ => Iff.rfl).2 s.sortedRows_pairwise

/-- **The sort is stable**: a row declared before another one, whose key is no smaller, stands
    before it. -/
theorem pair_sublist_sortedRows {s : Schedule} {a b : Row} (h : [a, b].Sublist s.declaredRows)
    (hkey : a.sortKey ≤ b.sortKey) : [a, b].Sublist s.sortedRows :=
  List.pair_sublist_mergeSort Row.precedes_trans Row.precedes_total (Row.precedes_iff.2 hkey) h

/-- Of two members of a list one stands before the other. -/
theorem pair_sublist_total {α : Type} {l : List α} {a b : α} (ha : a ∈ l) (hb : b ∈ l)
    (hne : a ≠ b) : [a, b].Sublist l ∨ [b, a].Sublist l := by
  induction l with
  | nil => cases ha
  | cons c l ih =>
    rcases List.mem_cons.1 ha with rfl | hal
    · -- the first member is `a`, so `b` stands behind it
      have hbl : b ∈ l := (List.mem_cons.1 hb).resolve_left hne.symm
      exact .inl ((List.singleton_sublist.2 hbl).cons_cons a)
    · rcases List.mem_cons.1 hb with rfl | hbl
      · exact .inr ((List.singleton_sublist.2 hal).cons_cons b)
      · exact (ih hal hbl).imp (List.Sublist.cons c) (List.Sublist.cons c)

/-- In a list without repetition two members do not stand before each other. -/
theorem pair_sublist_asymm {α : Type} {l : List α} (hnodup : l.Nodup) {a b : α}
    (h : [a, b].Sublist l) : ¬ [b, a].Sublist l := by
  classical
  intro h'
  -- without repetition, standing before is having the smaller index
  have hidx : l.Pairwise fun x y => l.idxOf x < l.idxOf y := by
    rw [List.pairwise_iff_getElem]
    intro i j hi hj hij
    rwa [hnodup.idxOf_getElem, hnodup.idxOf_getElem]
  have hab := List.pairwise_iff_forall_sublist.1 hidx h
  have hba := List.pairwise_iff_forall_sublist.1 hidx h'
  omega

/-- **Which of two rows stands higher**: the one with the smaller key, and of equal keys the one that
    is declared first. -/
theorem pair_sublist_sortedRows_iff {s : Schedule} (hnodup : s.declaredRows.Nodup) {a b : Row}
    (ha : a ∈ s.declaredRows) (hb : b ∈ s.declaredRows) (hne : a ≠ b) :
    [a, b].Sublist s.sortedRows ↔
      a.sortKey < b.sortKey ∨ a.sortKey = b.sortKey ∧ [a, b].Sublist s.declaredRows := by
  have hperm := s.sortedRows_perm
  have hkey : ∀ {x y : Row}, [x, y].Sublist s.sortedRows → x.sortKey ≤ y.sortKey :=
    List.pairwise_iff_forall_sublist.1 s.sortedRows_pairwise
  constructor
  · intro h
    rcases Int.lt_or_eq_of_le (hkey h) with hlt | heq
    · exact .inl hlt
    · -- of equal keys, the order of declaration decides: the sort keeps it, so it is the order of
      -- the rows
      rcases pair_sublist_total ha hb hne with hab | hba
      · exact .inr ⟨heq, hab⟩
      · have hback := pair_sublist_sortedRows hba (by omega)
        exact absurd hback (pair_sublist_asymm (hperm.nodup_iff.2 hnodup) h)
  · rintro (hlt | ⟨heq, hab⟩)
    · -- of different keys, the rows stand in one of two ways, and the keys do not fall
      rcases pair_sublist_total (hperm.mem_iff.2 ha) (hperm.mem_iff.2 hb) hne with h | h
      · exact h
      · have hle := hkey h
        omega
    · exact pair_sublist_sortedRows hab (by omega)

/-! ## Rows in order as declared -/

/-- The rows in the order of declaration, numbered. -/
def numberedRows (s : Schedule) : List Row :=
  s.declaredRows.mapIdx fun index row => { row with index }

/-- The keys do not fall in the order of declaration. -/
def declaredInOrder (s : Schedule) : Bool := s.declaredRows.Pairwise fun a b => a.sortKey ≤ b.sortKey

/-- Sorting leaves rows alone that are in order. -/
theorem rows_eq_numberedRows {s : Schedule} (h : s.declaredInOrder = true) :
    s.rows = s.numberedRows := by
  have hsorted : s.declaredRows.mergeSort (fun a b => a.sortKey ≤ b.sortKey) = s.declaredRows :=
    List.mergeSort_of_pairwise ((of_decide_eq_true h).imp decide_eq_true)
  rw [rows, hsorted, numberedRows]

end Schedule

end GanttChart
