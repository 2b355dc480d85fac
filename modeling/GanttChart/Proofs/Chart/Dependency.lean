/-
  The graph of dependencies.

  1. **Any rows.**  The dependencies are taken in one list, row by row (`Edge.listings`).  The first
     of them that no row has is the fault; if there is none, each gives one edge between the last
     rows with the two ids (`Edge.ofRows_eq`).  Ids may repeat.

  2. **Rows of a schedule.**  A row's number is its position, so both ends of an edge are positions
     of rows.  If no id repeats, the edges are exactly the pairs of a row and one that depends on it
     (`Schedule.mem_edges_iff`).
-/
import GanttChart.Proofs.Chart.Plan
import Mathlib.Logic.Relation

namespace GanttChart

/-! ## Any rows -/

namespace Row

/-- The last row with an id is one of the rows and has it. -/
theorem mem_of_last? {rows : List Row} {id : String} {row : Row} (h : last? rows id = some row) :
    row ∈ rows ∧ row.id = id :=
  ⟨List.mem_reverse.1 (List.mem_of_find?_eq_some h), by simpa using List.find?_some h⟩

/-- There is a last row with an id if there is any. -/
theorem last?_isSome_iff {rows : List Row} {id : String} :
    (last? rows id).isSome = true ↔ ∃ row ∈ rows, row.id = id := by
  simp [last?, List.find?_isSome]

end Row

namespace Edge

/-- The dependencies of some rows, each with the row that lists it, in the order of the rows. -/
def listings (rows : List Row) : List (Row × String) :=
  rows.flatMap fun row => row.dependencies.map (row, ·)

/-- The listings are the dependencies of the rows. -/
theorem mem_listings_iff {rows : List Row} {row : Row} {dependency : String} :
    (row, dependency) ∈ listings rows ↔ row ∈ rows ∧ dependency ∈ row.dependencies := by
  simp [listings]

/-- Something holds of all listings if it does row by row. -/
theorem forall_listings_iff {rows : List Row} {p : Row × String → Prop} :
    (∀ listing ∈ listings rows, p listing) ↔
      ∀ row ∈ rows, ∀ dependency ∈ row.dependencies, p (row, dependency) := by
  constructor
  · intro h row hrow dependency hdependency
    exact h _ (mem_listings_iff.2 ⟨hrow, hdependency⟩)
  · rintro h ⟨row, dependency⟩ hlisting
    obtain ⟨hrow, hdependency⟩ := mem_listings_iff.1 hlisting
    exact h row hrow dependency hdependency

/-- No row has the listed id. -/
def dangles (rows : List Row) (listing : Row × String) : Bool := (Row.last? rows listing.2).isNone

/-- A listing does not dangle if some row has its id. -/
theorem dangles_eq_false_iff {rows : List Row} {listing : Row × String} :
    dangles rows listing = false ↔ ∃ row ∈ rows, row.id = listing.2 := by
  rw [dangles, Option.isNone_eq_false_iff, Row.last?_isSome_iff]

/-- The number of the last row with an id. -/
def lastIndex (rows : List Row) (id : String) : Nat :=
  ((Row.last? rows id).map fun row => row.index).getD 0

/-- The edge from the last row with the listed id to the last row with the id of the row. -/
def ofListing (rows : List Row) (listing : Row × String) : Edge where
  source := lastIndex rows listing.2
  target := lastIndex rows listing.1.id

/-- A dependency of a row fails only because the listed id has no row. -/
theorem ofDependency_eq {rows : List Row} {row : Row} (hrow : row ∈ rows) (dependency : String) :
    ofDependency rows row dependency =
      if dangles rows (row, dependency) then .error (.unknownDependency dependency row.id)
      else .ok (ofListing rows (row, dependency)) := by
  unfold ofDependency dangles ofListing lastIndex
  cases hsource : Row.last? rows dependency with
  | none => rfl
  | some source =>
    -- the row has its own id, so a target is found as well
    obtain ⟨target, htarget⟩ := Option.isSome_iff_exists.1 (Row.last?_isSome_iff.2 ⟨row, hrow, rfl⟩)
    simp [htarget]

/-- **The graph of any rows**: the first listed dependency that no row has is the fault, and without
    one every listed dependency gives its edge. -/
theorem ofRows_eq (rows : List Row) :
    ofRows rows =
      ((listings rows).find? (dangles rows)).elim (.ok ((listings rows).map (ofListing rows)))
        fun listing => .error (.unknownDependency listing.2 listing.1.id) := by
  have hlisting : ∀ listing ∈ listings rows, ofDependency rows listing.1 listing.2 =
      if dangles rows listing then .error (.unknownDependency listing.2 listing.1.id)
      else .ok (ofListing rows listing) := fun listing hlisting =>
    ofDependency_eq (mem_listings_iff.1 hlisting).1 listing.2
  unfold ofRows
  rw [Outcome.mapM_mapM (ofDependency rows) fun row => row.dependencies]
  exact Outcome.mapM_checked hlisting

/-- The edges are there exactly if every listed id has a row, and are those of the listings. -/
theorem ofRows_eq_ok_iff {rows : List Row} {edges : List Edge} :
    ofRows rows = .ok edges ↔
      (∀ row ∈ rows, ∀ dependency ∈ row.dependencies, ∃ other ∈ rows, other.id = dependency) ∧
        edges = (listings rows).map (ofListing rows) := by
  have hnone : (listings rows).find? (dangles rows) = none ↔
      ∀ row ∈ rows, ∀ dependency ∈ row.dependencies, ∃ other ∈ rows, other.id = dependency := by
    simp only [List.find?_eq_none, Bool.not_eq_true, dangles_eq_false_iff]
    exact forall_listings_iff
  rw [ofRows_eq, ← hnone]
  cases hfind : (listings rows).find? (dangles rows) with
  | none => simp [eq_comm]
  | some listing => simp

/-- The fault names the first listing that dangles. -/
theorem ofRows_eq_error_iff {rows : List Row} {fault : LayoutFault} :
    ofRows rows = .error fault ↔
      ∃ row dependency, (listings rows).find? (dangles rows) = some (row, dependency) ∧
        fault = .unknownDependency dependency row.id := by
  rw [ofRows_eq]
  cases hfind : (listings rows).find? (dangles rows) with
  | none => simp
  | some listing =>
    constructor
    · intro h
      cases h
      exact ⟨listing.1, listing.2, rfl, rfl⟩
    · rintro ⟨row, dependency, hpair, rfl⟩
      cases hpair
      rfl

/-- There is an edge from one position to another. -/
def Joins (edges : List Edge) (source target : Nat) : Prop := { source, target } ∈ edges

/-- No path along edges returns to where it began. -/
def Acyclic (edges : List Edge) : Prop := ∀ r, ¬ Relation.TransGen (Joins edges) r r

/-- A rank that grows along every edge rules out cycles. -/
theorem acyclic_of_rank {edges : List Edge} (rank : Nat → Nat)
    (h : ∀ edge ∈ edges, rank edge.source < rank edge.target) : Acyclic edges := by
  have hpath : ∀ {a b : Nat}, Relation.TransGen (Joins edges) a b → rank a < rank b := by
    intro a b hab
    -- by induction on the path, which is extended by one edge at its end
    induction hab with
    | single hedge => exact h _ hedge
    | tail _ hedge ih => exact Nat.lt_trans ih (h _ hedge)
  intro r hr
  exact Nat.lt_irrefl _ (hpath hr)

end Edge

/-! ## Rows of a schedule -/

namespace Schedule

variable {s : Schedule}

/-- An id that a row has leads to a position of the rows. -/
theorem lastIndex_lt {id : String} (h : ∃ row ∈ s.rows, row.id = id) :
    Edge.lastIndex s.rows id < s.rows.length := by
  obtain ⟨row, hrow⟩ := Option.isSome_iff_exists.1 (Row.last?_isSome_iff.2 h)
  rw [Edge.lastIndex, hrow]
  exact index_lt_length (Row.mem_of_last? hrow).1

/-- Both ends of an edge are positions of rows. -/
theorem lt_length_of_mem_edges {edges : List Edge} (h : Edge.ofRows s.rows = .ok edges)
    {edge : Edge} (hedge : edge ∈ edges) :
    edge.source < s.rows.length ∧ edge.target < s.rows.length := by
  obtain ⟨hknown, rfl⟩ := Edge.ofRows_eq_ok_iff.1 h
  obtain ⟨⟨row, dependency⟩, hlisting, rfl⟩ := List.mem_map.1 hedge
  obtain ⟨hrow, hdependency⟩ := Edge.mem_listings_iff.1 hlisting
  exact ⟨lastIndex_lt (hknown row hrow dependency hdependency), lastIndex_lt ⟨row, hrow, rfl⟩⟩

/-- Rows repeat no id if the items do not. -/
theorem nodup_ids_rows (h : (s.items.map Item.id).Nodup) :
    (s.rows.map fun row => row.id).Nodup := by
  have hperm := (s.map_toItem_rows.map Item.id).nodup_iff.2 h
  rwa [List.map_map] at hperm

/-- Without repetition an id leads back to the position of its row. -/
theorem lastIndex_eq (hnodup : (s.items.map Item.id).Nodup) {r : Nat} {row : Row}
    (h : s.rows[r]? = some row) : Edge.lastIndex s.rows row.id = r := by
  obtain ⟨other, hother⟩ := Option.isSome_iff_exists.1
    (Row.last?_isSome_iff.2 ⟨row, List.mem_of_getElem? h, rfl⟩)
  obtain ⟨hmem, hid⟩ := Row.mem_of_last? hother
  have hsame : other = row :=
    List.inj_on_of_nodup_map (nodup_ids_rows hnodup) hmem (List.mem_of_getElem? h) hid
  rw [Edge.lastIndex, hother, hsame]
  exact index_of_getElem? h

/-- **The edges are the dependencies**, if no id repeats: they join the positions of a row and of one
    that lists its id. -/
theorem mem_edges_iff (hnodup : (s.items.map Item.id).Nodup) {edges : List Edge}
    (h : Edge.ofRows s.rows = .ok edges) {a b : Nat} :
    Edge.Joins edges a b ↔
      ∃ source target, s.rows[a]? = some source ∧ s.rows[b]? = some target ∧
        source.id ∈ target.dependencies := by
  obtain ⟨hknown, rfl⟩ := Edge.ofRows_eq_ok_iff.1 h
  unfold Edge.Joins
  rw [List.mem_map]
  -- an edge is made of a listing; both directions name the rows of its two ids by their positions
  constructor
  · rintro ⟨⟨target, dependency⟩, hlisting, hedge⟩
    obtain ⟨htarget, hdependency⟩ := Edge.mem_listings_iff.1 hlisting
    obtain ⟨source, hsource, rfl⟩ := hknown target htarget dependency hdependency
    obtain ⟨i, hi⟩ := List.getElem?_of_mem hsource
    obtain ⟨j, hj⟩ := List.getElem?_of_mem htarget
    simp only [Edge.ofListing, lastIndex_eq hnodup hi, lastIndex_eq hnodup hj, Edge.mk.injEq] at hedge
    obtain ⟨rfl, rfl⟩ := hedge
    exact ⟨source, target, hi, hj, hdependency⟩
  · rintro ⟨source, target, hsource, htarget, hdependency⟩
    refine ⟨(target, source.id),
      Edge.mem_listings_iff.2 ⟨List.mem_of_getElem? htarget, hdependency⟩, ?_⟩
    rw [Edge.ofListing, lastIndex_eq hnodup hsource, lastIndex_eq hnodup htarget]

end Schedule

end GanttChart
