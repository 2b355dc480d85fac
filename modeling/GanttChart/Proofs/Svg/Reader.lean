/-
  A plain reader of markup.

  The reader knows tags, attributes in double quotes and the four entities, and nothing else.  It goes
  through a text character by character, with the elements that are open on a stack.

  1. **Nodes.**  What is read is a list of nodes: characters and elements.  Nothing is merged or
     dropped, so a text of markup is as many nodes as it has characters.

  2. **The automaton.**  `Place` says where in the markup the reader is, and `step` reads one more
     character, or gives up: on a closing tag that does not match the open element, on a bare `<` in a
     value, on an unknown entity and on anything else that is no part of a tag.

  3. **The outcome.**  `read?` accepts a text that consists of exactly one element, with every tag
     closed.
-/
import GanttChart.Svg.Markup

namespace GanttChart.Svg

/-- A character or an element, as it is read. -/
inductive Node where
  | char (c : Char)
  | element (tag : String) (attributes : List (String × String)) (children : List Node)

namespace Node

/-- The characters directly among some nodes. -/
def text (nodes : List Node) : List Char :=
  nodes.filterMap fun
    | .char c => some c
    | .element .. => none

/-- The elements directly among some nodes. -/
def elements (nodes : List Node) : List Node :=
  nodes.filter fun
    | .char _ => false
    | .element .. => true

/-- No element has two attributes of the same name. -/
inductive Distinct : Node → Prop
  | char (c : Char) : Distinct (.char c)
  | element {tag : String} {attributes : List (String × String)} {children : List Node}
    (names : (attributes.map Prod.fst).Nodup) (inner : ∀ child ∈ children, Distinct child) :
    Distinct (.element tag attributes children)

/-- The characters of two lists of nodes, one after the other. -/
@[simp] theorem text_append (a b : List Node) : text (a ++ b) = text a ++ text b := by
  simp [text]

/-- The elements of two lists of nodes, one after the other. -/
@[simp] theorem elements_append (a b : List Node) : elements (a ++ b) = elements a ++ elements b := by
  simp [elements]

/-- A character in front is the first one. -/
@[simp] theorem text_cons_char (c : Char) (nodes : List Node) :
    text (.char c :: nodes) = c :: text nodes :=
  rfl

/-- A character is no element. -/
@[simp] theorem elements_cons_char (c : Char) (nodes : List Node) :
    elements (.char c :: nodes) = elements nodes :=
  rfl

end Node

/-! ## The automaton

  The reader holds what it has read at every place, so a state says all that matters for the rest
  of the text.  It never looks ahead: each character leads from one state to the next, or to
  none. -/

/-- A tag's name and the attributes that are read so far. -/
structure Tag where
  name : String
  attributes : List (String × String) := []

/-- The tag with one more attribute. -/
def Tag.push (tag : Tag) (name value : List Char) : Tag :=
  { tag with attributes := tag.attributes ++ [(String.ofList name, String.ofList value)] }

/-- Where in the markup the reader is; what is read of a name, a value or an entity is kept. -/
inductive Place where
  /-- Between tags. -/
  | content
  | entity (seen : List Char)
  /-- After the character that opens a tag. -/
  | opening
  | tagName (name : List Char)
  /-- After the name of a tag or the value of an attribute. -/
  | tagRest (tag : Tag)
  | attribute (tag : Tag) (name : List Char)
  /-- After the sign between an attribute and its value. -/
  | quote (tag : Tag) (name : List Char)
  | value (tag : Tag) (name text : List Char)
  | valueEntity (tag : Tag) (name text seen : List Char)
  /-- After the slash of a tag without content. -/
  | emptyTag (tag : Tag)
  | closingName (name : List Char)

/-- An element that is not closed yet, and the nodes that stand before it in the enclosing one. -/
structure OpenElement where
  tag : Tag
  before : List Node

/-- The state of reading: the place, the nodes of the innermost element, and the open elements, the
    innermost first. -/
structure Reader where
  place : Place := .content
  nodes : List Node := []
  opened : List OpenElement := []

namespace Reader

/-- The characters of names. -/
def isNameChar (c : Char) : Bool := c.isAlphanum || c == '-'

/-- The character that an entity stands for. -/
def entity? (name : List Char) : Option Char :=
  if name = "amp".toList then some '&'
  else if name = "lt".toList then some '<'
  else if name = "gt".toList then some '>'
  else if name = "quot".toList then some '"'
  else none

/-- One more node between tags. -/
def push (r : Reader) (node : Node) : Reader :=
  { r with place := .content, nodes := r.nodes ++ [node] }

/-- Opens an element. -/
def enter (r : Reader) (tag : Tag) : Reader :=
  { place := .content, nodes := [], opened := ⟨tag, r.nodes⟩ :: r.opened }

/-- Closes the innermost element, if it has the name. -/
def leave? (r : Reader) (name : List Char) : Option Reader :=
  match r.opened with
  | [] => none
  | ⟨tag, before⟩ :: outer =>
    if tag.name.toList = name then
      some {
        place := .content
        nodes := before ++ [.element tag.name tag.attributes r.nodes]
        opened := outer }
    else none

/-- One character after a tag's name or an attribute. -/
def afterTag (r : Reader) (tag : Tag) (c : Char) : Option Reader :=
  if c = ' ' then some { r with place := .attribute tag [] }
  else if c = '/' then some { r with place := .emptyTag tag }
  else if c = '>' then some (r.enter tag)
  else none

/-- One character. -/
def step (r : Reader) (c : Char) : Option Reader :=
  match r.place with
  | .content =>
    if c = '<' then some { r with place := .opening }
    else if c = '&' then some { r with place := .entity [] }
    else some (r.push (.char c))
  | .entity seen =>
    if c = ';' then (entity? seen).map fun d => r.push (.char d)
    else some { r with place := .entity (seen ++ [c]) }
  | .opening =>
    if c = '/' then some { r with place := .closingName [] }
    else if isNameChar c then some { r with place := .tagName [c] }
    else none
  | .tagName name =>
    if isNameChar c then some { r with place := .tagName (name ++ [c]) }
    else r.afterTag { name := String.ofList name } c
  | .tagRest tag => r.afterTag tag c
  | .attribute tag name =>
    if isNameChar c then some { r with place := .attribute tag (name ++ [c]) }
    else if c = '=' && !name.isEmpty then some { r with place := .quote tag name }
    else none
  | .quote tag name => if c = '"' then some { r with place := .value tag name [] } else none
  | .value tag name text =>
    if c = '"' then some { r with place := .tagRest (tag.push name text) }
    else if c = '<' then none
    else if c = '&' then some { r with place := .valueEntity tag name text [] }
    else some { r with place := .value tag name (text ++ [c]) }
  | .valueEntity tag name text seen =>
    if c = ';' then
      (entity? seen).map fun d => { r with place := .value tag name (text ++ [d]) }
    else some { r with place := .valueEntity tag name text (seen ++ [c]) }
  | .emptyTag tag =>
    if c = '>' then some (r.push (.element tag.name tag.attributes [])) else none
  | .closingName name =>
    if c = '>' then r.leave? name
    else if isNameChar c then some { r with place := .closingName (name ++ [c]) }
    else none

/-- Several characters. -/
def run (r : Reader) (text : List Char) : Option Reader := text.foldlM step r

/-- The element that a whole text consists of. -/
def read? (text : List Char) : Option Node :=
  match run {} text with
  | some { place := .content, nodes := [.element tag attributes children], opened := [] } =>
    some (.element tag attributes children)
  | _ => none

/-- Nothing changes nothing. -/
@[simp] theorem run_nil (r : Reader) : run r [] = some r := rfl

/-- The first character is read before the rest. -/
@[simp] theorem run_cons (r : Reader) (c : Char) (text : List Char) :
    run r (c :: text) = (step r c).bind fun next => run next text := by
  simp [run, List.foldlM_cons]

/-- Reading goes on where it stopped. -/
theorem run_append (r : Reader) (front rest : List Char) :
    run r (front ++ rest) = (run r front).bind fun next => run next rest := by
  simp [run, List.foldlM_append]

example : (read? "<a b=\"&lt;\">c<d/></a>".toList).isSome = true := by decide +kernel

example : (read? "<a><b></a></b>".toList).isSome = false := by decide +kernel

end Reader

end GanttChart.Svg
