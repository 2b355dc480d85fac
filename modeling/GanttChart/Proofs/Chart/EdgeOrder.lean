/-
  Edges in the order of the listed dependencies.

  The rows here are any rows: ids may repeat, and their numbers need not be their positions.

  1. **The last row.**  An id means the row that has it and that no row with it follows
     (`Row.last?_eq_some_iff`), whether it stands above or below the row that names it.

  2. **One dependency.**  A row that lists a dependency has its own id, so only the id that it lists
     can be missing; if it is not, the edge is known (`Edge.isOf_iff`).

  3. **All dependencies.**  The fault is that of the first listed dependency whose id is missing, and
     without one there is one edge for each listed dependency, repeated ones included
     (`Edge.ofRows_outcome`).
-/
import GanttChart.Proofs.Chart.Dependency
import Mathlib.Algebra.GroupWithZero.Nat

namespace GanttChart

/-! ## The last row -/

/-- The row has the id, and no row after it has. -/
def Row.IsLast (rows : List Row) (id : String) (row : Row) : Prop :=
  ∃ before after, rows = before ++ row :: after ∧ row.id = id ∧ ∀ other ∈ after, other.id ≠ id

/-- The search from the end finds the last row with an id. -/
theorem Row.last?_eq_some_iff {rows : List Row} {id : String} {row : Row} :
    last? rows id = some row ↔ IsLast rows id row := by
  unfold last? IsLast
  rw [List.find?_eq_some_iff_append]
  constructor
  · rintro ⟨hid, after, before, hrows, hafter⟩
    -- read from the end, the rows that are passed over are those behind the one that is found
    refine ⟨before.reverse, after.reverse, ?_, by simpa using hid, ?_⟩
    · rw [← List.reverse_reverse rows, hrows]
      simp
    · intro other hother
      simpa using hafter other (List.mem_reverse.1 hother)
  · rintro ⟨before, after, rfl, hid, hafter⟩
    refine ⟨by simpa using hid, after.reverse, before.reverse, by simp, ?_⟩
    intro other hother
    simpa using hafter other (List.mem_reverse.1 hother)

namespace Edge

/-! ## One dependency -/

/-- A row has the id. -/
def IsKnown (rows : List Row) (id : String) : Prop := ∃ row ∈ rows, row.id = id

/-- The edge leads from the last row with the listed id to the last row with the id of the row that
    lists it. -/
def IsOf (rows : List Row) (listing : Row × String) (edge : Edge) : Prop :=
  ∃ source target, Row.IsLast rows listing.2 source ∧ Row.IsLast rows listing.1.id target ∧
    edge = { source := source.index, target := target.index }

variable {rows : List Row} {listing : Row × String}

/-- The edge of a dependency is known if the listed id is. -/
theorem isOf_iff (hrow : listing.1 ∈ rows) {edge : Edge} :
    IsOf rows listing edge ↔ IsKnown rows listing.2 ∧ edge = ofListing rows listing := by
  have hown : (Row.last? rows listing.1.id).isSome = true :=
    Row.last?_isSome_iff.2 ⟨listing.1, hrow, rfl⟩
  obtain ⟨target, htarget⟩ := Option.isSome_iff_exists.1 hown
  unfold IsOf IsKnown ofListing lastIndex
  simp only [← Row.last?_eq_some_iff, ← Row.last?_isSome_iff, htarget]
  cases Row.last? rows listing.2 with
  | none => simp
  | some source => simp

/-- Edges for some listed dependencies: their ids are known, and the edges are theirs. -/
theorem forall₂_isOf_iff {listings : List (Row × String)}
    (hrows : ∀ listing ∈ listings, listing.1 ∈ rows) {edges : List Edge} :
    List.Forall₂ (IsOf rows) listings edges ↔
      (∀ listing ∈ listings, IsKnown rows listing.2) ∧ edges = listings.map (ofListing rows) := by
  induction listings generalizing edges with
  | nil => simp
  | cons listing listings ih =>
    have hfirst : ∀ edge, IsOf rows listing edge ↔
        IsKnown rows listing.2 ∧ edge = ofListing rows listing :=
      fun _ => isOf_iff (hrows listing List.mem_cons_self)
    have hrest : ∀ edges, List.Forall₂ (IsOf rows) listings edges ↔
        (∀ other ∈ listings, IsKnown rows other.2) ∧ edges = listings.map (ofListing rows) :=
      fun _ => ih fun other hother => hrows other (List.mem_cons_of_mem listing hother)
    rw [List.forall₂_cons_left_iff, List.forall_mem_cons, List.map_cons]
    -- the first edge belongs to the first listing, and the rest to the rest by induction
    constructor
    · rintro ⟨edge, rest, hedge, hedges, rfl⟩
      obtain ⟨hknown, rfl⟩ := (hfirst edge).1 hedge
      obtain ⟨hall, rfl⟩ := (hrest rest).1 hedges
      exact ⟨⟨hknown, hall⟩, rfl⟩
    · rintro ⟨⟨hknown, hall⟩, rfl⟩
      exact ⟨_, _, (hfirst _).2 ⟨hknown, rfl⟩, (hrest _).2 ⟨hall, rfl⟩, rfl⟩

/-! ## All dependencies -/

/-- The row lists the dependency, no row has it as its id, and the ids of all dependencies that are
    listed before it are known. -/
def IsFirstDangling (rows : List Row) (row : Row) (dependency : String) : Prop :=
  ∃ before after, listings rows = before ++ (row, dependency) :: after ∧
    ¬IsKnown rows dependency ∧ ∀ listing ∈ before, IsKnown rows listing.2

/-- The first listing that dangles is the first listed dependency without a row. -/
theorem find?_dangles_eq_some_iff {row : Row} {dependency : String} :
    (listings rows).find? (dangles rows) = some (row, dependency) ↔
      IsFirstDangling rows row dependency := by
  have hknown : ∀ listing : Row × String, dangles rows listing = false ↔
      IsKnown rows listing.2 := fun _ => dangles_eq_false_iff
  rw [List.find?_eq_some_iff_append]
  constructor
  · rintro ⟨hdangles, before, after, hlistings, hbefore⟩
    refine ⟨before, after, hlistings, ?_, ?_⟩
    · rw [← hknown (row, dependency), hdangles]
      decide
    · intro listing hlisting
      exact (hknown listing).1 (by simpa using hbefore listing hlisting)
  · rintro ⟨before, after, hlistings, hmissing, hbefore⟩
    refine ⟨?_, before, after, hlistings, ?_⟩
    · rw [← Bool.not_eq_false, hknown (row, dependency)]
      exact hmissing
    · intro listing hlisting
      simpa using (hknown listing).2 (hbefore listing hlisting)

/-- The edges of some rows: one for each listed dependency, in the order in which they are listed,
    repeated ones included. -/
structure AreOf (rows : List Row) (edges : List Edge) : Prop where
  follow : List.Forall₂ (IsOf rows) (listings rows) edges
  length : edges.length = (rows.map fun row => row.dependencies.length).sum

/-- There are as many listings as the rows have dependencies. -/
theorem length_listings (rows : List Row) :
    (listings rows).length = (rows.map fun row => row.dependencies.length).sum := by
  unfold listings
  rw [List.length_flatMap]
  congr 1
  exact List.map_congr_left fun row _ => List.length_map ..

/-- The edges of some rows are what is built from them. -/
theorem areOf_iff {edges : List Edge} : AreOf rows edges ↔ ofRows rows = .ok edges := by
  have hrows : ∀ listing ∈ listings rows, listing.1 ∈ rows :=
    fun listing hlisting => (mem_listings_iff.1 hlisting).1
  have hedges : List.Forall₂ (IsOf rows) (listings rows) edges ↔ ofRows rows = .ok edges := by
    rw [forall₂_isOf_iff hrows, ofRows_eq_ok_iff]
    exact and_congr_left fun _ => forall_listings_iff
  constructor
  · intro h
    exact hedges.1 h.follow
  · intro h
    have hfollow := hedges.2 h
    exact ⟨hfollow, hfollow.length_eq.symm.trans (length_listings rows)⟩

/-- **The edges of any rows.**  They are refused exactly if some listed dependency is no row's id, and
    the fault names the first such dependency with the id of its row.  Otherwise there is one edge
    for each listed dependency, in their order, between the last rows with the two ids. -/
theorem ofRows_outcome (rows : List Row) :
    ((∃ fault, ofRows rows = .error fault) ↔
        ∃ row ∈ rows, ∃ dependency ∈ row.dependencies, ∀ other ∈ rows, other.id ≠ dependency) ∧
      (∀ fault, ofRows rows = .error fault ↔
        ∃ row dependency, IsFirstDangling rows row dependency ∧
          fault = .unknownDependency dependency row.id) ∧
      ∀ edges, ofRows rows = .ok edges ↔ AreOf rows edges := by
  have hfault : ∀ fault, ofRows rows = .error fault ↔
      ∃ row dependency, IsFirstDangling rows row dependency ∧
        fault = .unknownDependency dependency row.id := by
    intro fault
    simp only [ofRows_eq_error_iff, find?_dangles_eq_some_iff]
  refine ⟨?_, hfault, fun edges => areOf_iff.symm⟩
  constructor
  · rintro ⟨fault, h⟩
    obtain ⟨row, dependency, ⟨before, after, hlistings, hmissing, _⟩, rfl⟩ := (hfault fault).1 h
    have hlisting : (row, dependency) ∈ listings rows := by
      rw [hlistings]
      exact List.mem_append_right before List.mem_cons_self
    obtain ⟨hrow, hdependency⟩ := mem_listings_iff.1 hlisting
    exact ⟨row, hrow, dependency, hdependency, fun other hother hid => hmissing ⟨other, hother, hid⟩⟩
  · rintro ⟨row, hrow, dependency, hdependency, hmissing⟩
    -- with edges there would be a row with the id
    cases h : ofRows rows with
    | error fault => exact ⟨fault, rfl⟩
    | ok edges =>
      obtain ⟨other, hother, hid⟩ := (ofRows_eq_ok_iff.1 h).1 row hrow dependency hdependency
      exact absurd hid (hmissing other hother)

/-- The id `b` means its second row, which stands below the row that names it twice. -/
example :
    let row (id : String) (dependencies : List String) (index : Nat) : Row :=
      { id, start := default, dependencies, kind := .task, finish := default, index }
    ofRows [row "b" [] 4, row "a" ["b", "a", "b"] 7, row "b" ["a"] 9] =
      .ok [⟨9, 7⟩, ⟨7, 7⟩, ⟨9, 7⟩, ⟨7, 9⟩] := by decide

end Edge

end GanttChart
