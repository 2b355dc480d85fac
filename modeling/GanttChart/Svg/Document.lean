/-
  Charts as SVG documents.

  The root holds, each on a line of its own, the style sheet if one is wanted and one group
  element for every run of instructions on the same layer, which holds the elements of the run.
  An instruction becomes one element; a link is an element around it, and a popup is an attribute
  and a tooltip in it.  Numbers have at most two decimals.
-/
import GanttChart.Binary64.Bits
import GanttChart.Chart.Shape
import GanttChart.Svg.Markup

namespace GanttChart.Svg

/-- The style sheet that makes a document legible on its own. -/
def styleSheet : String :=
  ".x.grid .tick \x7b stroke: #ddd; stroke-width: 1; \x7d\n" ++
  ".x.grid .domain \x7b stroke: #888; stroke-width: 1; \x7d\n" ++
  ".x.grid .tick-label \x7b fill: #444; \x7d\n" ++
  ".group-block .even \x7b fill: #f4f4f8; \x7d\n" ++
  ".group-block .odd \x7b fill: #ffffff; \x7d\n" ++
  ".group-block-label text \x7b fill: #333; font-weight: bold; \x7d\n" ++
  ".today-marker .today \x7b stroke: #d33; stroke-width: 2; \x7d\n" ++
  ".tasks rect \x7b fill: #8a90dd; stroke: #534fbc; \x7d\n" ++
  ".tasks-labels text, .milestones-labels text \x7b fill: #222; \x7d\n" ++
  ".milestones rect \x7b fill: #e0a030; stroke: #a06010; \x7d\n" ++
  ".dependencies path \x7b fill: none; stroke: #555; stroke-width: 1.5; \x7d\n" ++
  ".dependencies path.arrow-head \x7b fill: #555; \x7d\n" ++
  ".title-block .title \x7b font-size: 18px; fill: #111; \x7d\n"

/-! ## Values of attributes -/

/-- A number. -/
def number (x : Binary64) : String := String.ofList x.toText

/-- A point in path data. -/
def pointText (p : Point) : String := number p.x ++ " " ++ number p.y

/-- A piece of a path in path data. -/
def stepText : PathStep → String
  | .moveTo p => "M " ++ pointText p
  | .lineTo p => "L " ++ pointText p
  | .curveTo control₁ control₂ p =>
    "C " ++ pointText control₁ ++ " " ++ pointText control₂ ++ " " ++ pointText p
  | .close => "Z"

/-- The data of a path. -/
def pathText (steps : List PathStep) : String := " ".intercalate (steps.map stepText)

/-- The name of a text anchor. -/
def anchorText : TextAnchor → String
  | .start => "start"
  | .middle => "middle"

/-! ## Shapes -/

/-- The tag of a shape's element. -/
def shapeTag : Shape → String
  | .rect .. => "rect"
  | .diamond .. => "rect"
  | .line .. => "line"
  | .text .. => "text"
  | .path .. => "path"

/-- The attributes that say where and how large a shape is. -/
def shapeAttributes : Shape → List (String × String)
  | .rect x y width height cornerRadius =>
    [("x", number x), ("y", number y), ("width", number width), ("height", number height),
      ("rx", number cornerRadius), ("ry", number cornerRadius)]
  | .diamond center size =>
    [("x", number (center.x - size / 2)), ("y", number (center.y - size / 2)),
      ("width", number size), ("height", number size),
      ("transform", "rotate(45 " ++ pointText center ++ ")")]
  | .line source target =>
    [("x1", number source.x), ("y1", number source.y), ("x2", number target.x),
      ("y2", number target.y)]
  | .text x y _ _ anchor =>
    [("x", number x), ("y", number y), ("text-anchor", anchorText anchor),
      ("font-family", "sans-serif"), ("font-size", "12")]
  | .path steps => [("d", pathText steps)]

/-- The children of a shape's element: a text has one for each of its lines. -/
def shapeChildren : Shape → List Markup
  | .text x y lines lineHeight _ =>
    lines.mapIdx fun i line =>
      .textElement "tspan" [("x", number x), ("y", number (y + .ofNat i * lineHeight))] line
  | _ => []

/-! ## Instructions -/

/-- The attributes of an instruction beside those of its shape. -/
def itemAttributes (instruction : Instruction) : List (String × String) :=
  (if instruction.style.isEmpty then [] else [("class", instruction.style)]) ++
    (instruction.item.map fun id => ("data-id", id)).toList ++
    (instruction.progress.map fun progress => ("data-progress", number progress)).toList

/-- The element of an instruction, with further attributes and children. -/
def shapeElement (instruction : Instruction) (attributes : List (String × String))
    (children : List Markup) : Markup :=
  .element (shapeTag instruction.shape)
    (shapeAttributes instruction.shape ++ itemAttributes instruction ++ attributes)
    (children ++ shapeChildren instruction.shape)

/-- The markup of an instruction, with what a click does. -/
def instructionMarkup (instruction : Instruction) : Markup :=
  match instruction.action with
  | none => shapeElement instruction [] []
  | some (.navigate url) => .element "a" [("href", url)] [shapeElement instruction [] []]
  | some (.popup url) =>
    shapeElement instruction [("data-popup", url)] [.textElement "title" [] url]

/-! ## Documents -/

/-- The maximal runs of instructions on the same layer. -/
def layerRuns : List Instruction → List (Layer × List Instruction)
  | [] => []
  | instruction :: rest =>
    match layerRuns rest with
    | [] => [(instruction.layer, [instruction])]
    | (layer, run) :: runs =>
      if layer = instruction.layer then (layer, instruction :: run) :: runs
      else (instruction.layer, [instruction]) :: (layer, run) :: runs

/-- The group element of a run of instructions. -/
def layerMarkup (run : Layer × List Instruction) : Markup :=
  .block "g" [("class", run.1.className)] (run.2.map instructionMarkup)

/-- The element that holds the style sheet. -/
def styleMarkup : Markup := .element "defs" [] [.textElement "style" [] ("\n" ++ styleSheet)]

/-- The document of a chart, with or without the style sheet. -/
def document (styled : Bool) (g : Geometry) : Markup :=
  let width := number g.width
  let height := number g.height
  .block "svg"
    [("xmlns", "http://www.w3.org/2000/svg"), ("width", width), ("height", height),
      ("viewBox", "0 0 " ++ width ++ " " ++ height)]
    ((if styled then [styleMarkup] else []) ++ (layerRuns g.instructions).map layerMarkup)

/-- The text of a chart's document. -/
def render (styled : Bool) (g : Geometry) : String := String.ofList (document styled g).render

/-- Joining the runs gives the instructions again. -/
theorem flatMap_layerRuns (instructions : List Instruction) :
    (layerRuns instructions).flatMap Prod.snd = instructions := by
  induction instructions with
  | nil => rfl
  | cons instruction rest ih =>
    unfold layerRuns
    split
    · rename_i h
      simp [h] at ih
      simp [ih]
    · rename_i layer run runs h
      rw [h] at ih
      split <;> simp_all

end GanttChart.Svg
