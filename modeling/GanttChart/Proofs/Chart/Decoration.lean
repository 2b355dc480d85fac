/-
  Decorations: the layers that are drawn when an option says so.

  The today marker, the connectors and the title have an option each (`Layer.option?`).  These three
  options, the format of dates that are read and the business days have no part in the findings of a
  layout, and every layer without an option is drawn the same whatever they are
  (`Schedule.drawn_decorated`).  So decorations are put on a chart that is otherwise left alone
  (`layout_decorations`).
-/
import GanttChart.Proofs.Chart.Finding

namespace GanttChart

/-- The option that a layer is drawn by, if it is not always drawn. -/
def Layer.option? : Layer → Option OptionKey
  | .todayMarker => some .todayMarker
  | .dependencies => some .dependencies
  | .title => some .title
  | _ => none

/-- The layers but these three are drawn without an option. -/
theorem Layer.option?_eq_none {layer : Layer}
    (h : layer ∉ [Layer.todayMarker, .dependencies, .title]) : layer.option? = none := by
  revert h
  cases layer <;> decide

/-- The instructions that are on none of some layers. -/
def Geometry.without (g : Geometry) (layers : List Layer) : List Instruction :=
  g.instructions.filter fun instruction => instruction.layer ∉ layers

/-- Two charts, of schedules with the first and the second options, differ in decorations only. -/
structure SameUndecorated (options other : Options) (g h : Geometry) : Prop where
  width : g.width = h.width
  height : g.height = h.height
  start : g.start = h.start
  finish : g.finish = h.finish
  rows : g.rows = h.rows
  bands : g.bands = h.bands
  /-- Without the decorations the charts paint the same in the same order. -/
  base : g.without [.todayMarker, .dependencies, .title] =
    h.without [.todayMarker, .dependencies, .title]
  /-- A layer is the same if its option has the same value in both, or if it has no option. -/
  layers : ∀ layer : Layer, (∀ key ∈ layer.option?, options.get key = other.get key) →
    g.layer layer = h.layer layer

/-- Whether an option is on depends on its value. -/
theorem Options.isOn_congr {options other : Options} {key : OptionKey}
    (h : options.get key = other.get key) : options.isOn key = other.isOn key := by
  unfold isOn
  rw [h]

/-- Values of the options that a layout cannot fail by. -/
structure Decorations where
  title : Option String
  todayMarker : Option String
  dependencies : Option String
  inputDateFormat : Option String
  businessDays : Option String

namespace Schedule

/-- The schedule with these options, and the others as they are. -/
def decorated (s : Schedule) (d : Decorations) : Schedule :=
  { s with
    options :=
      { s.options with
        title := d.title
        todayMarker := d.todayMarker
        dependencies := d.dependencies
        inputDateFormat := d.inputDateFormat
        businessDays := d.businessDays } }

section Decorated

variable {s : Schedule} {config : Config} {first second : Decorations}

/-- **Decorations have no part in the findings.** -/
theorem findings_decorated (s : Schedule) (config : Config) (d : Decorations) :
    (s.decorated d).findings config = s.findings config := rfl

/-- A layer whose option has the same value is drawn the same. -/
theorem drawn_decorated (f : Findings) {layer : Layer}
    (h : ∀ key ∈ layer.option?,
      (s.decorated first).options.get key = (s.decorated second).options.get key) :
    (s.decorated first).drawn config f layer = (s.decorated second).drawn config f layer := by
  -- only the three optional layers look at an option that may differ, and each at its own one
  cases layer with
  | todayMarker =>
    have hon := Options.isOn_congr (h .todayMarker rfl)
    show (if (s.decorated first).options.isOn .todayMarker then _ else []) = if _ then _ else []
    rw [hon]
    rfl
  | dependencies =>
    have hon := Options.isOn_congr (h .dependencies rfl)
    show (if (s.decorated first).options.isOn .dependencies then _ else []) = if _ then _ else []
    rw [hon]
    rfl
  | title =>
    have htitle : first.title = second.title := h .title rfl
    show (first.title.map _).toList = (second.title.map _).toList
    rw [htitle]
    rfl
  | _ => rfl

end Decorated

end Schedule

/-- **Decorations are additive**: whatever their options are, a layout succeeds or fails with the same
    fault, and the chart is the same but for the layers whose options have other values. -/
theorem layout_decorations (s : Schedule) (config : Config) (first second : Decorations) :
    Outcome.Alike (SameUndecorated (s.decorated first).options (s.decorated second).options)
      ((s.decorated first).layout config) ((s.decorated second).layout config) := by
  have hsame : (s.decorated second).findings config = (s.decorated first).findings config := by
    rw [Schedule.findings_decorated, Schedule.findings_decorated]
  -- the findings are the same, so both charts are drawn from one and the same `f`
  refine Schedule.layout_alike hsame fun f h => ?_
  have h' := hsame.trans h
  constructor
  case base =>
    have hshown := Schedule.filter_chart h fun layer =>
      layer ∉ [Layer.todayMarker, .dependencies, .title]
    have hshown' := Schedule.filter_chart h' fun layer =>
      layer ∉ [Layer.todayMarker, .dependencies, .title]
    unfold Geometry.without
    rw [hshown, hshown']
    refine List.flatMap_congr fun layer hlayer => Schedule.drawn_decorated f fun key hkey => ?_
    -- a layer that is left has no option that could have another value
    have hnone := Layer.option?_eq_none (of_decide_eq_true (List.mem_filter.1 hlayer).2)
    rw [hnone] at hkey
    cases hkey
  case layers =>
    intro layer hoption
    rw [Schedule.layer_chart h, Schedule.layer_chart h']
    exact Schedule.drawn_decorated f hoption
  all_goals rfl

end GanttChart
