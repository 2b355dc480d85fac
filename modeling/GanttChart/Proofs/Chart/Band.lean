/-
  Which rows a group's band covers.

  1. **Where bands lie.**  The band of a group begins behind as many rows as belong to the groups
     before it and is as long as its own group has rows (`Schedule.bands_eq`).  So every band is of
     the right length, wherever its rows are.

  2. **Which rows are there.**  `Row.groupRank` is the position of a row's group, or the number of
     groups for a row of none.  If the ranks never fall, the rows below a rank are the first ones, and
     each band covers the rows of its group.  Conversely every row above the end of a band lies in
     a band no later, so if the bands cover their rows the ranks cannot fall
     (`Schedule.bandsOwn_iff_pairwise`).

  3. **In the schedule's terms.**  Rows are sorted by key and not by rank.  Ranks and keys agree if,
     of two declared rows, the one of the earlier group also goes first by key
     (`Schedule.pairwise_groupRank_iff`).

  Rows of no group have the key 0, and after the epoch all others have a larger one.  So a chart with
  both kinds of rows has bands that are off: its first band begins at the first row, which is of no
  group (`layout_bands_miss_rows`).
-/
import GanttChart.Proofs.Chart.Plan
import GanttChart.Proofs.Chart.Row
import GanttChart.Proofs.Schedule.WellFormed

namespace GanttChart

/-! ## Where bands lie -/

namespace Band

/-- The number of rows in the groups before a position. -/
def rowsBefore (rows : List Row) (position : Nat) : Nat :=
  rows.countP fun row => row.group.any (· < position)

/-- No rows belong to groups before the first. -/
theorem rowsBefore_zero (rows : List Row) : rowsBefore rows 0 = 0 := by
  simp [rowsBefore]

/-- Behind a group are as many rows more as it has. -/
theorem rowsBefore_succ (rows : List Row) (position : Nat) :
    rowsBefore rows (position + 1) = rowsBefore rows position + size rows position := by
  unfold rowsBefore size
  induction rows with
  | nil => rfl
  | cons row rows ih =>
    simp only [List.countP_cons, ih]
    cases hgroup : row.group with
    | none => simp
    | some g =>
      simp only [Option.any_some, decide_eq_true_eq, beq_iff_eq, Option.some.injEq]
      split <;> split <;> split <;> omega

/-- The band of the group at a position. -/
def ofGroup (rows : List Row) (position : Nat) (group : Group) : Band where
  group := position
  title := group.title
  start := rowsBefore rows position
  finish := rowsBefore rows (position + 1)
  style := styleAt position

/-- The bands from a position on, each where its place puts it. -/
theorem listFrom_eq (rows : List Row) (position : Nat) (groups : List Group) :
    listFrom rows position (rowsBefore rows position) groups =
      groups.mapIdx fun i group => Band.ofGroup rows (position + i) group := by
  induction groups generalizing position with
  | nil => rfl
  | cons group groups ih =>
    rw [listFrom, List.mapIdx_cons]
    simp only [← rowsBefore_succ, ih, Band.ofGroup, Nat.add_zero, Nat.add_assoc, Nat.add_comm 1]

/-- A band is as long as its group has rows. -/
theorem count_ofGroup (rows : List Row) (position : Nat) (group : Group) :
    (Band.ofGroup rows position group).count = size rows position := by
  have hsucc := rowsBefore_succ rows position
  show rowsBefore rows (position + 1) - rowsBefore rows position = size rows position
  omega

/-- A row above the end of a band lies in that band or in one before it. -/
theorem exists_of_lt_rowsBefore {rows : List Row} {position r : Nat}
    (h : r < rowsBefore rows (position + 1)) :
    ∃ g ≤ position, rowsBefore rows g ≤ r ∧ r < rowsBefore rows (g + 1) := by
  induction position with
  | zero => exact ⟨0, Nat.le_refl 0, by rw [rowsBefore_zero]; exact Nat.zero_le r, h⟩
  | succ position ih =>
    rcases Nat.lt_or_ge r (rowsBefore rows (position + 1)) with hr | hr
    · -- above the last of the bands, so in one before it
      obtain ⟨g, hg, hlow, hhigh⟩ := ih hr
      exact ⟨g, by omega, hlow, hhigh⟩
    · exact ⟨position + 1, Nat.le_refl _, hr, h⟩

/-- The band covers the rows of its group and no other. -/
def Owns (rows : List Row) (band : Band) : Prop :=
  ∀ r, (band.start ≤ r ∧ r < band.finish) ↔
    ∃ row, rows[r]? = some row ∧ row.group = some band.group

end Band

/-- The bands, each where its place among the groups puts it. -/
theorem Schedule.bands_eq (s : Schedule) (rows : List Row) :
    s.bands rows = s.groups.mapIdx (Band.ofGroup rows) := by
  have h := Band.listFrom_eq rows 0 s.groups
  simp only [Band.rowsBefore_zero, Nat.zero_add] at h
  exact h

/-- A band is that of a group. -/
theorem Schedule.mem_bands_iff {s : Schedule} {rows : List Row} {band : Band} :
    band ∈ s.bands rows ↔
      ∃ g group, s.groups[g]? = some group ∧ band = Band.ofGroup rows g group := by
  rw [bands_eq, List.mem_mapIdx]
  constructor
  · rintro ⟨g, hg, rfl⟩
    exact ⟨g, s.groups[g], List.getElem?_eq_getElem hg, rfl⟩
  · rintro ⟨g, group, hgroup, rfl⟩
    obtain ⟨hg, rfl⟩ := List.getElem?_eq_some_iff.1 hgroup
    exact ⟨g, hg, rfl⟩

/-! ## Which rows are there -/

namespace Row

/-- The position of a row's group among a number of groups; that number if it is in none of them. -/
def groupRank (groups : Nat) (row : Row) : Nat := min (row.group.getD groups) groups

/-- No rank is beyond the number of groups. -/
theorem groupRank_le (groups : Nat) (row : Row) : row.groupRank groups ≤ groups :=
  Nat.min_le_right _ _

/-- A rank below a position is that of an earlier group. -/
theorem groupRank_lt_iff {groups g : Nat} (hg : g ≤ groups) (row : Row) :
    row.groupRank groups < g ↔ row.group.any (· < g) = true := by
  unfold groupRank
  cases row.group with
  | none => simp; omega
  | some k => simp; omega

/-- A rank that is a position of a group is that of its rows. -/
theorem groupRank_eq_iff {groups g : Nat} (hg : g < groups) (row : Row) :
    row.groupRank groups = g ↔ row.group = some g := by
  unfold groupRank
  cases row.group with
  | none => simp; omega
  | some k => simp; omega

end Row

/-- A property that no row has below one without it is had by the first rows, as many as have it.
    By induction on the rows: once it fails it fails for all that follow. -/
theorem iff_lt_countP {p : Row → Bool} {rows : List Row}
    (h : rows.Pairwise fun a b => p b = true → p a = true) {r : Nat} (hr : r < rows.length) :
    p rows[r] = true ↔ r < rows.countP p := by
  induction rows generalizing r with
  | nil => simp at hr
  | cons row rows ih =>
    obtain ⟨hfirst, hrest⟩ := List.pairwise_cons.1 h
    rw [List.countP_cons]
    cases hrow : p row with
    | true =>
      cases r with
      | zero => simp [hrow]
      | succ r =>
        rw [List.getElem_cons_succ, ih hrest (by simpa using hr)]
        simp
    | false =>
      -- the property has failed, so it is counted no more
      have hnone : ∀ other ∈ rows, p other = false := by
        intro other hother
        cases hp : p other with
        | false => rfl
        | true => rw [hfirst other hother hp] at hrow; cases hrow
      have hzero : rows.countP p = 0 := by simpa [List.countP_eq_zero] using hnone
      cases r with
      | zero => simp [hrow, hzero]
      | succ r =>
        rw [List.getElem_cons_succ, hnone _ (List.getElem_mem _), hzero]
        simp

namespace Schedule

variable {s : Schedule} {rows : List Row}

/-- If the ranks never fall, the rows in the groups before a position are the first ones. -/
theorem groupRank_lt_iff_of_pairwise
    (h : rows.Pairwise fun a b => a.groupRank s.groups.length ≤ b.groupRank s.groups.length)
    {g : Nat} (hg : g ≤ s.groups.length) {r : Nat} (hr : r < rows.length) :
    rows[r].groupRank s.groups.length < g ↔ r < Band.rowsBefore rows g := by
  rw [Row.groupRank_lt_iff hg]
  refine iff_lt_countP (p := fun row => row.group.any (· < g)) (h.imp ?_) hr
  intro a b hab hb
  rw [← Row.groupRank_lt_iff hg] at hb ⊢
  omega

/-- Bands that cover the rows of their groups leave no row of a later group above one of an earlier. -/
theorem pairwise_of_bandsOwn (hown : ∀ band ∈ s.bands rows, band.Owns rows) :
    rows.Pairwise fun a b => a.groupRank s.groups.length ≤ b.groupRank s.groups.length := by
  have hband : ∀ g < s.groups.length, ∀ r, (Band.rowsBefore rows g ≤ r ∧
      r < Band.rowsBefore rows (g + 1)) ↔
        ∃ row, rows[r]? = some row ∧ row.group = some g := by
    intro g hg r
    have hmem : Band.ofGroup rows g s.groups[g] ∈ s.bands rows :=
      mem_bands_iff.2 ⟨g, s.groups[g], List.getElem?_eq_getElem hg, rfl⟩
    exact hown _ hmem r
  rw [List.pairwise_iff_getElem]
  intro i j hi hj hij
  rcases Nat.lt_or_ge (rows[j].groupRank s.groups.length) s.groups.length with hlt | hge
  · -- The band of the lower row ends below the upper one, which lies in it or in an earlier band.
    have hgroup := (Row.groupRank_eq_iff hlt rows[j]).1 rfl
    obtain ⟨_, hend⟩ := (hband _ hlt j).2 ⟨rows[j], List.getElem?_eq_getElem hj, hgroup⟩
    obtain ⟨g, hg, hin⟩ := Band.exists_of_lt_rowsBefore (Nat.lt_trans hij hend)
    obtain ⟨row, hrow, hrank⟩ := (hband g (by omega) i).1 hin
    rw [List.getElem?_eq_getElem hi] at hrow
    cases hrow
    rw [(Row.groupRank_eq_iff (by omega) rows[i]).2 hrank]
    exact hg
  · -- A row of no group may stand below any other.
    exact Nat.le_trans (Row.groupRank_le _ _) hge

/-- Rows in the order of the groups lie in the bands of their groups. -/
theorem bandsOwn_of_pairwise
    (hsorted : rows.Pairwise fun a b =>
      a.groupRank s.groups.length ≤ b.groupRank s.groups.length)
    {band : Band} (hband : band ∈ s.bands rows) : band.Owns rows := by
  obtain ⟨g, group, hgroup, rfl⟩ := mem_bands_iff.1 hband
  have hg : g < s.groups.length := (List.getElem?_eq_some_iff.1 hgroup).1
  intro r
  show (Band.rowsBefore rows g ≤ r ∧ r < Band.rowsBefore rows (g + 1)) ↔
    ∃ row, rows[r]? = some row ∧ row.group = some g
  constructor
  · rintro ⟨hlow, hhigh⟩
    have hr : r < rows.length := Nat.lt_of_lt_of_le hhigh List.countP_le_length
    have hle := (groupRank_lt_iff_of_pairwise hsorted (Nat.le_of_lt hg) hr).not.2 (by omega)
    have hlt := (groupRank_lt_iff_of_pairwise hsorted hg hr).2 hhigh
    exact ⟨rows[r], List.getElem?_eq_getElem hr, (Row.groupRank_eq_iff hg rows[r]).1 (by omega)⟩
  · rintro ⟨row, hrow, hrank⟩
    obtain ⟨hr, rfl⟩ := List.getElem?_eq_some_iff.1 hrow
    have hrank := (Row.groupRank_eq_iff hg rows[r]).2 hrank
    have hlow := (groupRank_lt_iff_of_pairwise hsorted (Nat.le_of_lt hg) hr).not.1 (by omega)
    exact ⟨by omega, (groupRank_lt_iff_of_pairwise hsorted hg hr).1 (by omega)⟩

/-- **Bands cover exactly the rows of their groups if and only if the rows stand in the order of the
    groups**, those of no group last. -/
theorem bandsOwn_iff_pairwise :
    (∀ band ∈ s.bands rows, band.Owns rows) ↔
      rows.Pairwise fun a b => a.groupRank s.groups.length ≤ b.groupRank s.groups.length :=
  ⟨pairwise_of_bandsOwn, fun hsorted _ hband => bandsOwn_of_pairwise hsorted hband⟩

end Schedule

/-! ## In the schedule's terms -/

/-- Of a row and one declared after it, the one of the earlier group goes first by key; with equal
    keys it has to be the row declared first. -/
structure Row.KeepsGroups (groups : Nat) (a b : Row) : Prop where
  le : a.groupRank groups < b.groupRank groups → a.sortKey ≤ b.sortKey
  lt : b.groupRank groups < a.groupRank groups → b.sortKey < a.sortKey

namespace Schedule

/-- The rows stand in the order of the groups exactly if every two declared rows keep it. -/
theorem pairwise_groupRank_iff {s : Schedule} (hnodup : s.declaredRows.Nodup) (groups : Nat) :
    (s.rows.Pairwise fun a b => a.groupRank groups ≤ b.groupRank groups) ↔
      s.declaredRows.Pairwise (Row.KeepsGroups groups) := by
  rw [pairwise_rows_iff fun _ _ => Iff.rfl, List.pairwise_iff_forall_sublist,
    List.pairwise_iff_forall_sublist]
  have hmem : ∀ {a b : Row}, [a, b].Sublist s.declaredRows →
      a ∈ s.declaredRows ∧ b ∈ s.declaredRows := fun h => ⟨h.subset (by simp), h.subset (by simp)⟩
  constructor
  · intro hsorted a b hab
    obtain ⟨ha, hb⟩ := hmem hab
    constructor
    · intro hrank
      -- with a larger key `a` would stand below `b`, against the ranks
      by_contra hkey
      have hne : b ≠ a := by
        rintro rfl
        omega
      have hback := hsorted ((pair_sublist_sortedRows_iff hnodup hb ha hne).2 (.inl (by omega)))
      omega
    · intro hrank
      -- otherwise `a`, declared first, would stay above `b`, since the sort is stable
      by_contra hkey
      have hfront := hsorted (pair_sublist_sortedRows hab (by omega))
      omega
  · intro hkeeps a b hab
    by_contra hrank
    have hsub : ∀ c ∈ [a, b], c ∈ s.declaredRows := fun c hc =>
      s.sortedRows_perm.mem_iff.1 (hab.subset hc)
    have ha := hsub a (by simp)
    have hb := hsub b (by simp)
    have hne : a ≠ b := by
      rintro rfl
      omega
    -- `a` stands above `b` but has the larger rank, whichever of them is declared first
    have hkey := (pair_sublist_sortedRows_iff hnodup ha hb hne).1 hab
    rcases pair_sublist_total ha hb hne with hdeclared | hdeclared
    · have hlt := (hkeeps hdeclared).lt (by omega)
      omega
    · have hle := (hkeeps hdeclared).le (by omega)
      rcases hkey with hlt | ⟨_, hother⟩
      · omega
      · exact pair_sublist_asymm hnodup hother hdeclared

/-- With different ids no row is declared twice. -/
theorem nodup_declaredRows {s : Schedule} (h : (s.items.map Item.id).Nodup) :
    s.declaredRows.Nodup := by
  rw [← map_toItem_declaredRows] at h
  exact h.of_map _ |>.of_map _

/-- In the order of groups, a row of a group stands above one of none, so by its key it does not
    start after the epoch. -/
theorem timestamp_le_of_pairwise {s : Schedule}
    (hgroup : ∀ item ∈ s.items, ∀ g, item.group = some g → g < s.groups.length)
    (h : s.rows.Pairwise fun a b => a.groupRank s.groups.length ≤ b.groupRank s.groups.length)
    {a b : Row} (ha : a ∈ s.rows) (hb : b ∈ s.rows) {g : Nat} (hag : a.group = some g)
    (hbg : b.group = none) : a.start.timestampMilliseconds ≤ 0 := by
  have hg : g < s.groups.length := hgroup _ (Schedule.toItem_mem_items ha) g hag
  have hrank : a.groupRank s.groups.length < b.groupRank s.groups.length := by
    simp [Row.groupRank, hag, hbg, hg, Nat.le_of_lt hg]
  obtain ⟨i, hi, rfl⟩ := List.getElem_of_mem ha
  obtain ⟨j, hj, rfl⟩ := List.getElem_of_mem hb
  -- the row of the group stands higher, for it has the smaller rank
  have hij : i < j := by
    by_contra hnot
    rcases Nat.lt_or_eq_of_le (Nat.le_of_not_lt hnot) with hji | rfl
    · have hle := List.pairwise_iff_getElem.1 h j i hj hi hji
      omega
    · omega
  have hkey := List.pairwise_iff_getElem.1 s.rows_pairwise i j hi hj hij
  simp only [Row.sortKey, hag, hbg, Int.mul_zero] at hkey
  by_contra hpos
  have hprod := Int.mul_pos (Int.not_le.1 hpos) (show (0 : Int) < (g : Int) + 1 by omega)
  omega

end Schedule

/-! ## Charts -/

/-- Every band of the chart covers the rows of its group and no other. -/
def Geometry.BandsOwnRows (g : Geometry) : Prop := ∀ band ∈ g.bands, band.Owns g.rows

/-- A chart has the rows and bands of its schedule. -/
theorem Schedule.rows_eq_of_layout {s : Schedule} {config : Config} {g : Geometry}
    (h : s.layout config = .ok g) : g.rows = s.rows ∧ g.bands = s.bands s.rows := by
  obtain ⟨plan, grid, hplan, _, rfl⟩ := layout_eq_ok_iff.1 h
  obtain ⟨scale, edges, actions, _, _, _, rfl⟩ := Plan.ofSchedule_eq_ok_iff.1 hplan
  exact ⟨rfl, rfl⟩

/-- **When the bands of a text's chart cover the rows of their groups.**  A band is always as long as
    its group has rows.  It covers these very rows, for all bands, exactly if the rows stand in the
    order of the groups with those of no group last; that is, if the items' keys agree with the
    order of their groups.  A chart with items of a group after the epoch and items of none is
    never of this kind. -/
theorem bands_own_rows_iff {text : String} {config : Config} {s : Schedule} {g : Geometry}
    (hs : Schedule.ofText text = .ok s) (hg : s.layout config = .ok g) :
    (∀ band ∈ g.bands, band.count = Band.size g.rows band.group) ∧
    (g.BandsOwnRows ↔ g.rows.Pairwise fun a b =>
      a.groupRank s.groups.length ≤ b.groupRank s.groups.length) ∧
    (g.BandsOwnRows ↔ s.declaredRows.Pairwise (Row.KeepsGroups s.groups.length)) ∧
    (g.BandsOwnRows → ∀ a ∈ g.rows, ∀ b ∈ g.rows, a.group ≠ none → b.group = none →
      a.start.timestampMilliseconds ≤ 0) := by
  obtain ⟨hrows, hbands⟩ := Schedule.rows_eq_of_layout hg
  have hwell := wellFormed_of_addLines hs
  have hown : g.BandsOwnRows ↔ s.rows.Pairwise fun a b =>
      a.groupRank s.groups.length ≤ b.groupRank s.groups.length := by
    unfold Geometry.BandsOwnRows
    rw [hrows, hbands]
    exact Schedule.bandsOwn_iff_pairwise
  have hnodup := Schedule.nodup_declaredRows hwell.ids_nodup
  rw [hrows, hown, hbands]
  refine ⟨?_, Iff.rfl, Schedule.pairwise_groupRank_iff hnodup _, ?_⟩
  · -- the length of a band is the number of its group's rows, wherever they are
    intro band hband
    obtain ⟨position, group, _, rfl⟩ := Schedule.mem_bands_iff.1 hband
    exact Band.count_ofGroup s.rows position group
  · intro hsorted a ha b hb hag hbg
    obtain ⟨k, hk⟩ := Option.ne_none_iff_exists'.1 hag
    exact Schedule.timestamp_le_of_pairwise hwell.group_lt hsorted ha hb hk hbg

/-- Two groups whose rows stand in their order, although the second one starts earlier. -/
theorem bands_own_rows_two_groups :
    ∃ s g, Schedule.ofText "group A\ntask T,a,,2024-01-02,1D\ngroup B\nmilestone M,m,,2024-01-01" =
        .ok s ∧
      s.layout { now := default } = .ok g ∧
      g.bands.map (fun band => (band.start, band.finish)) = [(0, 1), (1, 2)] ∧
      g.BandsOwnRows := by
  have hok : ((Schedule.ofText
      "group A\ntask T,a,,2024-01-02,1D\ngroup B\nmilestone M,m,,2024-01-01").map fun s =>
        (s.declaredInOrder, (s.layoutAsDeclared { now := default }).map fun g =>
          (g.rows.map (Row.groupRank s.groups.length),
            g.bands.map fun band => (band.start, band.finish)))) =
      .ok (true, .ok ([0, 1], [(0, 1), (1, 2)])) := by decide +kernel
  obtain ⟨s, g, hs, hg, hresult⟩ := Schedule.layout_of_layoutAsDeclared hok
  obtain ⟨hranks, hbands⟩ := Prod.mk.inj hresult
  refine ⟨s, g, hs, hg, hbands, (bands_own_rows_iff hs hg).2.1.2 ?_⟩
  have hsorted : (g.rows.map (Row.groupRank s.groups.length)).Pairwise (· ≤ ·) := by
    rw [hranks]
    decide
  exact List.pairwise_map.1 hsorted

/-- A chart whose band begins at a row that is in no group. -/
theorem layout_bands_miss_rows :
    ¬ ∀ (text : String) (config : Config) (s : Schedule) (g : Geometry),
      Schedule.ofText text = .ok s → s.layout config = .ok g → g.BandsOwnRows := by
  intro hall
  have hok : ((Schedule.ofText
      "task U,u,,2024-01-01,1D\ngroup G\ntask A,a,,2024-01-02,1D").map fun s =>
        (s.declaredInOrder, (s.layoutAsDeclared { now := default }).map fun g =>
          (g.rows.map fun row => row.group,
            g.bands.map fun band => [band.group, band.start, band.finish]))) =
      .ok (true, .ok ([none, some 0], [[0, 0, 1]])) := by decide +kernel
  obtain ⟨s, g, hs, hg, hresult⟩ := Schedule.layout_of_layoutAsDeclared hok
  obtain ⟨hgroups, hbands⟩ := Prod.mk.inj hresult
  obtain ⟨band, hlist, hband⟩ := List.map_eq_singleton_iff.1 hbands
  simp only [List.cons.injEq] at hband
  have hown := hall _ _ s g hs hg band (by rw [hlist]; exact List.mem_singleton_self band) 0
  -- the band begins at row 0, so that row would have to be of the group
  obtain ⟨row, hrow, hgroup⟩ := hown.1 (by omega)
  have hnone : (g.rows.map fun row => row.group)[0]? = some none := by
    rw [hgroups]
    rfl
  rw [List.getElem?_map, hrow, Option.map_some, hgroup] at hnone
  cases hnone

end GanttChart
