/-
  The drawing model: shapes, layers and the instructions of a finished chart.

  A chart is a list of instructions in the order of painting.  Each has a shape with its position,
  the layer it belongs to and its style, and, for tasks and milestones, the id, the progress and
  what a click does.
-/
import GanttChart.Chart.Row

namespace GanttChart

/-- A place on the canvas. -/
structure Point where
  x : Binary64
  y : Binary64
  deriving DecidableEq

/-- The point moved by two distances. -/
def Point.offset (p : Point) (dx dy : Binary64) : Point := ⟨p.x + dx, p.y + dy⟩

/-- A piece of a path. -/
inductive PathStep where
  | moveTo (p : Point)
  | lineTo (p : Point)
  /-- A cubic curve with two control points. -/
  | curveTo (control₁ control₂ p : Point)
  | close
  deriving DecidableEq

/-- The part of a text that stands at its position. -/
inductive TextAnchor where
  | start
  | middle
  deriving DecidableEq

/-- What is drawn. -/
inductive Shape where
  | rect (x y width height cornerRadius : Binary64)
  /-- A square standing on a corner. -/
  | diamond (center : Point) (size : Binary64)
  | line (source target : Point)
  /-- Lines of text, the first with its baseline at `y`. -/
  | text (x y : Binary64) (lines : List String) (lineHeight : Binary64) (anchor : TextAnchor)
  | path (steps : List PathStep)
  deriving DecidableEq

/-- The layers in the order of painting. -/
inductive Layer where
  | grid
  | groupBlocks
  | groupLabels
  | todayMarker
  | tasks
  | taskLabels
  | milestones
  | milestoneLabels
  | dependencies
  | title
  deriving DecidableEq

namespace Layer

/-- All layers, the lowest first. -/
def all : List Layer :=
  [.grid, .groupBlocks, .groupLabels, .todayMarker, .tasks, .taskLabels, .milestones,
    .milestoneLabels, .dependencies, .title]

/-- The class of the element that holds a layer. -/
def className : Layer → String
  | .grid => "x grid"
  | .groupBlocks => "group-block"
  | .groupLabels => "group-block-label"
  | .todayMarker => "today-marker"
  | .tasks => "tasks"
  | .taskLabels => "tasks-labels"
  | .milestones => "milestones"
  | .milestoneLabels => "milestones-labels"
  | .dependencies => "dependencies"
  | .title => "title-block"

end Layer

/-- What a click on a shape does. -/
inductive Action where
  | navigate (url : String)
  | popup (url : String)
  deriving DecidableEq

/-- A shape with everything that its drawing needs. -/
structure Instruction where
  layer : Layer
  shape : Shape
  style : String
  action : Option Action := none
  /-- The id of the task or milestone. -/
  item : Option String := none
  progress : Option Binary64 := none
  deriving DecidableEq

/-- A chart, laid out. -/
structure Geometry where
  width : Binary64
  height : Binary64
  start : Instant
  finish : Instant
  rows : List Row
  bands : List Band
  instructions : List Instruction
  deriving DecidableEq

/-- The instructions of one layer. -/
def Geometry.layer (g : Geometry) (layer : Layer) : List Instruction :=
  g.instructions.filter fun instruction => instruction.layer == layer

end GanttChart
