/-
  The dependencies of a text.

  A line refers only to ids that earlier lines declare.  So the line that declares a row is a rank of
  the graph: every edge leads to a later line (`declaringLine_lt`), whatever the order of the rows,
  and no path comes back.  All ids that are listed are there, and so a chart of the text is never
  refused for a dependency (`ofText_edges_acyclic`).
-/
import GanttChart.Proofs.Chart.Refusal
import GanttChart.Proofs.Schedule.WellFormed

namespace GanttChart

/-- The line that declares the row at a position. -/
def declaringLine (source : List Line) (rows : List Row) (r : Nat) : Nat :=
  source.findIdx fun line => line.declaredId? == rows[r]?.map fun row => row.id

section WellFormed

variable {source : List Line} {s : Schedule}

/-- Every item has a line on which it is placed. -/
theorem WellFormed.exists_placed (h : WellFormed source s) {item : Item} (hitem : item ∈ s.items) :
    ∃ k, Placed source k item := by
  rcases List.mem_append.1 hitem with hitem | hitem
  · obtain ⟨task, htask, rfl⟩ := List.mem_map.1 hitem
    obtain ⟨k, _, hplaced⟩ := h.tasks.exists_of_mem htask
    exact ⟨k, hplaced⟩
  · obtain ⟨k, _, hplaced⟩ := h.milestones.exists_of_mem hitem
    exact ⟨k, hplaced⟩

/-- An id that is declared on a line is declared there only, so the search finds this line. -/
theorem declaringLine_eq (h : WellFormed source s) {r k : Nat} {row : Row}
    (hrow : s.rows[r]? = some row) (hk : Declares source k row.id) :
    declaringLine source s.rows r = k := by
  have hlt := hk.lt_length
  rw [Declares, List.getElem?_eq_getElem hlt, Option.bind_some] at hk
  unfold declaringLine
  rw [hrow, Option.map_some]
  have hfound := List.findIdx_lt_length_of_exists (p := fun line : Line =>
    line.declaredId? == some row.id) ⟨source[k], List.getElem_mem hlt, by simp [hk]⟩
  have hdeclares := List.findIdx_getElem (w := hfound)
  -- an id is declared on one line only, so the first line found is that one
  refine h.declared_once _ k row.id ?_ ?_
  · rw [Declares, List.getElem?_eq_getElem hfound, Option.bind_some]
    exact eq_of_beq hdeclares
  · rw [Declares, List.getElem?_eq_getElem hlt, Option.bind_some, hk]

/-- **Edges lead to later lines.** -/
theorem declaringLine_lt (h : WellFormed source s) {edges : List Edge}
    (hedges : Edge.ofRows s.rows = .ok edges) {edge : Edge} (hedge : edge ∈ edges) :
    declaringLine source s.rows edge.source < declaringLine source s.rows edge.target := by
  obtain ⟨before, after, hbefore, hafter, hdependency⟩ :=
    (Schedule.mem_edges_iff h.ids_nodup hedges).1 hedge
  have hitem : after.toItem ∈ s.items :=
    Schedule.toItem_mem_items (List.mem_of_getElem? hafter)
  -- the target stands on line `k`, and whatever it depends on is declared on a line `i` before it
  obtain ⟨k, hplaced⟩ := h.exists_placed hitem
  obtain ⟨i, hik, hdeclares⟩ := hplaced.dependencies before.id hdependency
  rw [declaringLine_eq h hbefore hdeclares, declaringLine_eq h hafter hplaced.declares]
  exact hik

/-- What an item depends on is an item. -/
theorem WellFormed.exists_dependency (h : WellFormed source s) {item : Item} (hitem : item ∈ s.items)
    {id : String} (hid : id ∈ item.dependencies) : s.contains id = true := by
  obtain ⟨k, hplaced⟩ := h.exists_placed hitem
  obtain ⟨i, _, hdeclares⟩ := hplaced.dependencies id hid
  exact Schedule.contains_iff.2 (h.declared i id hdeclares)

end WellFormed

/-- Edges that are the dependencies between some rows, and lead in no circle. -/
structure AcyclicGraph (rows : List Row) (edges : List Edge) : Prop where
  built : Edge.ofRows rows = .ok edges
  joins_iff : ∀ a b, Edge.Joins edges a b ↔
    ∃ source target, rows[a]? = some source ∧ rows[b]? = some target ∧
      source.id ∈ target.dependencies
  lt_length : ∀ edge ∈ edges, edge.source < rows.length ∧ edge.target < rows.length
  acyclic : Edge.Acyclic edges

/-- **The dependencies of a text form an acyclic graph**, and no chart of the text is refused for
    one of them. -/
theorem ofText_edges_acyclic {text : String} {s : Schedule} (h : Schedule.ofText text = .ok s) :
    (∃ edges, AcyclicGraph s.rows edges) ∧
      ∀ config dependency dependent,
        s.layout config ≠ .error (.unknownDependency dependency dependent) := by
  have hwell := wellFormed_of_addLines h
  -- every listed id has a row, so the edges are there
  have hknown : ∀ row ∈ s.rows, ∀ dependency ∈ row.dependencies,
      ∃ other ∈ s.rows, other.id = dependency := by
    intro row hrow dependency hdependency
    have hitem : row.toItem ∈ s.items :=
      s.map_toItem_rows.mem_iff.1 (List.mem_map_of_mem hrow)
    exact Schedule.exists_row_iff.2 (hwell.exists_dependency hitem hdependency)
  have hedges := Edge.ofRows_eq_ok_iff.2 ⟨hknown, rfl⟩
  constructor
  · exact ⟨_, {
      built := hedges
      joins_iff := fun _ _ => Schedule.mem_edges_iff hwell.ids_nodup hedges
      lt_length := fun _ hedge => Schedule.lt_length_of_mem_edges hedges hedge
      acyclic := Edge.acyclic_of_rank (declaringLine (sourceOf text) s.rows) fun _ hedge =>
        declaringLine_lt hwell hedges hedge }⟩
  · intro config dependency dependent hlayout
    obtain ⟨item, hitem, _, hlisted, hmissing⟩ := Schedule.exists_dangling_of_layout hlayout
    rw [hwell.exists_dependency hitem hlisted] at hmissing
    cases hmissing

/-- Three items, of which the first stands below the others. -/
theorem ofText_edges_acyclic_three :
    ∃ s, Schedule.ofText
        "group B\ntask T,a,,2024-01-01,1D\nmilestone M,m,,1960-01-01,a\ntask U,u,,1950-01-01,1D,a m" =
          .ok s ∧
      s.items.map (fun item => (item.id, item.dependencies)) =
        [("a", []), ("u", ["a", "m"]), ("m", ["a"])] ∧
      (∃ edges, AcyclicGraph s.rows edges) ∧
      ∀ config dependency dependent,
        s.layout config ≠ .error (.unknownDependency dependency dependent) := by
  have hok : ((Schedule.ofText
      "group B\ntask T,a,,2024-01-01,1D\nmilestone M,m,,1960-01-01,a\ntask U,u,,1950-01-01,1D,a m").map
        fun s => s.items.map fun item => (item.id, item.dependencies)) =
      .ok [("a", []), ("u", ["a", "m"]), ("m", ["a"])] := by decide +kernel
  obtain ⟨s, hs, hitems⟩ := Outcome.map_eq_ok_iff.1 hok
  exact ⟨s, hs, hitems, ofText_edges_acyclic hs⟩

end GanttChart
