/-
  How bands lie on the rows.

  1. **Tiling.**  `Band.Tiles` says that bands follow each other without a gap from one row to
     another.  Then each row in between lies in a band and no two bands meet (`Band.Tiles.exists_iff`,
     `Band.Tiles.pairwise`).  The bands of groups tile the rows since each begins where the one
     before it ends (`Band.tiles_listFrom`).

  2. **Counting.**  Rows show the items in another order, so counts of rows are counts of items
     (`Schedule.countP_rows`).

  3. **Groups in order.**  If every row is in a group and the groups never fall from row to row,
     then neither do the ranks, and each band covers the rows of its group
     (`Schedule.bandsOwn_of_pairwise`).

  The tiling holds for every schedule; that a band covers its own rows needs the order of groups.  The
  two are kept apart: the first is about lengths, the second about which rows are there.
-/
import GanttChart.Proofs.Chart.Band

namespace GanttChart

/-! ## Tiling -/

namespace Band

/-- The bands follow each other without a gap: the first begins at the row `low`, each other one
    where the band before it ends, and the last ends at the row `high`. -/
def Tiles (low : Nat) : List Band → Nat → Prop
  | [], high => low = high
  | band :: rest, high => band.start = low ∧ band.start ≤ band.finish ∧ Tiles band.finish rest high

namespace Tiles

variable {low high : Nat} {bands : List Band}

/-- A tiling ends no higher than it begins. -/
theorem le (h : Tiles low bands high) : low ≤ high := by
  induction bands generalizing low with
  | nil => exact Nat.le_of_eq h
  | cons band rest ih =>
    obtain ⟨rfl, hle, hrest⟩ := h
    exact Nat.le_trans hle (ih hrest)

/-- No band begins above the first row. -/
theorem le_start (h : Tiles low bands high) {band : Band} (hband : band ∈ bands) :
    low ≤ band.start := by
  induction bands generalizing low with
  | nil => cases hband
  | cons first rest ih =>
    obtain ⟨rfl, hle, hrest⟩ := h
    rcases List.mem_cons.1 hband with rfl | hmem
    · exact Nat.le_refl _
    · exact Nat.le_trans hle (ih hrest hmem)

/-- **There is no gap**: the rows in the bands are those from the first to the last.  The first
    band takes the rows to its end, and the others go on from there. -/
theorem exists_iff (h : Tiles low bands high) {r : Nat} :
    (∃ band ∈ bands, band.start ≤ r ∧ r < band.finish) ↔ low ≤ r ∧ r < high := by
  induction bands generalizing low with
  | nil =>
    obtain rfl := h
    simp
  | cons band rest ih =>
    obtain ⟨rfl, hle, hrest⟩ := h
    have hhigh := hrest.le
    simp only [List.mem_cons, exists_eq_or_imp, ih hrest]
    omega

/-- **There is no overlap**: a band ends before any band below it begins. -/
theorem pairwise (h : Tiles low bands high) : bands.Pairwise fun a b => a.finish ≤ b.start := by
  induction bands generalizing low with
  | nil => exact .nil
  | cons band rest ih =>
    obtain ⟨rfl, _, hrest⟩ := h
    exact .cons (fun other hother => hrest.le_start hother) (ih hrest)

end Tiles

/-- The bands of groups lie on the rows one after another: where one ends are the rows before the
    next. -/
theorem tiles_listFrom (rows : List Row) (position : Nat) (groups : List Group) :
    Tiles (rowsBefore rows position) (listFrom rows position (rowsBefore rows position) groups)
      (rowsBefore rows (position + groups.length)) := by
  induction groups generalizing position with
  | nil => rfl
  | cons group groups ih =>
    have hrest := ih (position + 1)
    rw [rowsBefore_succ, Nat.add_assoc, Nat.add_comm 1] at hrest
    exact ⟨rfl, Nat.le_add_right _ _, hrest⟩

end Band

namespace Schedule

/-! ## Counting -/

/-- A count of rows, by what their items are, is a count of items. -/
theorem countP_rows (s : Schedule) (p : Item → Bool) :
    s.rows.countP (p ∘ Row.toItem) = s.items.countP p := by
  rw [← List.countP_map]
  exact s.map_toItem_rows.countP_eq p

/-- The number of items in a group of the schedule. -/
def groupedCount (s : Schedule) : Nat :=
  s.items.countP fun item => item.group.any (· < s.groups.length)

/-- The rows in groups are as many as the items in them. -/
theorem rowsBefore_length (s : Schedule) :
    Band.rowsBefore s.rows s.groups.length = s.groupedCount :=
  s.countP_rows fun item => item.group.any (· < s.groups.length)

/-- How bands lie on the rows of a schedule. -/
structure IsTiledBy (s : Schedule) (rows : List Row) (bands : List Band) : Prop where
  /-- There is one band for each group, in their order, and the styles alternate. -/
  groups : bands.map (fun band => (band.group, band.title, band.style)) =
    s.groups.mapIdx fun i group => (i, group.title, if i % 2 = 0 then "even" else "odd")
  /-- They follow each other from the first row on, as far as there are items in groups. -/
  tiles : Band.Tiles 0 bands s.groupedCount
  /-- Each is as long as its group has items. -/
  length : ∀ band ∈ bands,
    band.finish = band.start + s.items.countP fun item => item.group == some band.group
  le : s.groupedCount ≤ rows.length
  /-- No row above the last end is left out. -/
  covered : ∀ r, (∃ band ∈ bands, band.start ≤ r ∧ r < band.finish) ↔ r < s.groupedCount
  /-- No two bands meet. -/
  apart : bands.Pairwise fun a b => a.finish ≤ b.start

/-- The bands of a schedule tile its rows. -/
theorem bands_isTiledBy (s : Schedule) : s.IsTiledBy s.rows (s.bands s.rows) := by
  have htiles : Band.Tiles 0 (s.bands s.rows) s.groupedCount := by
    have h := Band.tiles_listFrom s.rows 0 s.groups
    rwa [Band.rowsBefore_zero, Nat.zero_add, rowsBefore_length] at h
  constructor
  case groups =>
    rw [bands_eq]
    apply List.ext_getElem?
    intro i
    rw [List.getElem?_map, List.getElem?_mapIdx, List.getElem?_mapIdx, Option.map_map]
    rfl
  case tiles => exact htiles
  case length =>
    intro band hband
    obtain ⟨g, group, _, rfl⟩ := mem_bands_iff.1 hband
    rw [← countP_rows]
    exact Band.rowsBefore_succ s.rows g
  case le =>
    rw [← rowsBefore_length]
    exact List.countP_le_length
  case covered =>
    intro r
    rw [htiles.exists_iff]
    exact and_iff_right (Nat.zero_le r)
  case apart => exact htiles.pairwise

/-! ## Groups in order -/

/-- The rows stand in the order of their groups, and each of them is in a group of the schedule. -/
structure InGroupOrder (s : Schedule) (rows : List Row) : Prop where
  grouped : ∀ row ∈ rows, ∃ g < s.groups.length, row.group = some g
  sorted : rows.Pairwise fun a b => ∀ g h, a.group = some g → b.group = some h → g ≤ h

/-- Rows in the order of groups have ranks that never fall, since every rank is a group's. -/
theorem InGroupOrder.pairwise_groupRank {s : Schedule} {rows : List Row}
    (h : s.InGroupOrder rows) :
    rows.Pairwise fun a b => a.groupRank s.groups.length ≤ b.groupRank s.groups.length := by
  refine h.sorted.imp_of_mem fun {a b} ha hb hle => ?_
  obtain ⟨g, hg, hag⟩ := h.grouped a ha
  obtain ⟨k, hk, hbk⟩ := h.grouped b hb
  rw [(Row.groupRank_eq_iff hg a).2 hag, (Row.groupRank_eq_iff hk b).2 hbk]
  exact hle g k hag hbk

/-- **The bands of every schedule tile its rows**, and if these stand in the order of their groups,
    none of them outside, each band covers exactly the rows of its group. -/
theorem bands_tile_rows (s : Schedule) :
    s.IsTiledBy s.rows (s.bands s.rows) ∧
      (s.InGroupOrder s.rows → ∀ band ∈ s.bands s.rows, band.Owns s.rows) :=
  ⟨s.bands_isTiledBy, fun h _ hband => bandsOwn_of_pairwise h.pairwise_groupRank hband⟩

/-- Three items in two groups, which the rows show in their order. -/
theorem bands_tile_rows_two_groups :
    ∃ s, Schedule.ofText
        "group A\ntask T,t,,2024-01-01,1D\ntask U,u,,2024-01-03,1D\ngroup B\nmilestone M,m,,2024-01-02" =
          .ok s ∧
      s.InGroupOrder s.rows ∧ s.IsTiledBy s.rows (s.bands s.rows) ∧
      (s.bands s.rows).map (fun band => (band.start, band.finish)) = [(0, 2), (2, 3)] ∧
      ∀ band ∈ s.bands s.rows, band.Owns s.rows := by
  have hok : ((Schedule.ofText
      "group A\ntask T,t,,2024-01-01,1D\ntask U,u,,2024-01-03,1D\ngroup B\nmilestone M,m,,2024-01-02").map
        fun s => (s.declaredInOrder, s.groups.length, s.numberedRows.map fun row => row.group,
          (s.bands s.numberedRows).map fun band => (band.start, band.finish))) =
      .ok (true, 2, [some 0, some 0, some 1], [(0, 2), (2, 3)]) := by decide +kernel
  obtain ⟨s, hs, hresult⟩ := Outcome.map_eq_ok_iff.1 hok
  simp only [Prod.mk.injEq] at hresult
  obtain ⟨horder, hlength, hgroups, hbands⟩ := hresult
  rw [← rows_eq_numberedRows horder] at hgroups hbands
  -- three rows, of the groups 0, 0 and 1
  have hin : s.InGroupOrder s.rows := by
    constructor
    case grouped =>
      intro row hrow
      have hmem := List.mem_map_of_mem (f := fun row : Row => row.group) hrow
      rw [hgroups] at hmem
      rw [hlength]
      simp only [List.mem_cons, List.not_mem_nil, or_false] at hmem
      rcases hmem with h | h | h
      · exact ⟨0, by decide, h⟩
      · exact ⟨0, by decide, h⟩
      · exact ⟨1, by decide, h⟩
    case sorted =>
      have hsorted : (s.rows.map fun row => row.group).Pairwise
          fun a b => ∀ g h, a = some g → b = some h → g ≤ h := by
        rw [hgroups]
        simp
      exact List.pairwise_map.1 hsorted
  exact ⟨s, hs, hin, s.bands_tile_rows.1, hbands, s.bands_tile_rows.2 hin⟩

end Schedule

end GanttChart
