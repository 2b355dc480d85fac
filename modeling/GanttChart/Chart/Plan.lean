/-
  The plan of a chart: everything that its drawing refers to.

  `Plan.of` works out the time scale, the rows with their metrics and bands, the edges of the
  dependencies and the actions of the click events, and is where a schedule that cannot be drawn
  is refused.  Of several faults the one of the time range comes first, then that of a
  dependency, then that of a URL, in the order of the events.
-/
import GanttChart.Chart.Connector
import GanttChart.Chart.Row
import GanttChart.Chart.Link

namespace GanttChart

/-- A schedule with what has been worked out for its chart. -/
structure Plan where
  options : Options
  config : Config
  scale : Scale
  rows : List Row
  metrics : Metrics Binary64
  bands : List Band
  edges : List Edge
  /-- The actions of the events, with the ids of their items. -/
  actions : List (String × Action)

namespace Plan

/-- The metrics of a number of rows under a configuration. -/
def metricsOf (config : Config) (rows : Nat) : Metrics Binary64 :=
  .ofRows rows config.rowHeight config.heightPadding config.taskPadding

/-- The time scale of a schedule under a configuration. -/
def scaleOf (s : Schedule) (config : Config) : Except LayoutFault Scale :=
  match s.range? config.now with
  | none => .error .dateOutOfRange
  | some (start, finish) => .ok (.ofSpan config start finish)

/-- The actions of events, with the ids of their items. -/
def actionsOf (scheme : String) (events : List Event) :
    Except LayoutFault (List (String × Action)) :=
  events.mapM fun event => do return (event.target, ← event.action scheme)

/-- The plan of a schedule's chart. -/
def ofSchedule (s : Schedule) (config : Config) : Except LayoutFault Plan := do
  let scale ← scaleOf s config
  let rows := s.rows
  let edges ← Edge.ofRows rows
  let actions ← actionsOf config.deepLinkScheme s.events
  return {
    options := s.options
    config
    scale
    rows
    metrics := metricsOf config rows.length
    bands := s.bands rows
    edges
    actions }

/-- The action of an item: that of the first event on it. -/
def action? (plan : Plan) (id : String) : Option Action := plan.actions.lookup id

end Plan

end GanttChart
