/-
  Markup: elements with attributes and children, and texts.

  `Markup.render` writes a tree.  An element without children is closed in its own tag; one with
  an empty text is not.  In texts and attribute values the four characters that markup uses itself
  are written as entities.
-/
namespace GanttChart

/-- A piece of markup. -/
inductive Markup where
  | text (content : String)
  | element (tag : String) (attributes : List (String × String)) (children : List Markup)

namespace Markup

/-- A character of a text or an attribute value. -/
def escapeChar (c : Char) : List Char :=
  if c = '&' then "&amp;".toList
  else if c = '<' then "&lt;".toList
  else if c = '>' then "&gt;".toList
  else if c = '"' then "&quot;".toList
  else [c]

/-- A text or an attribute value. -/
def escape (text : List Char) : List Char := text.flatMap escapeChar

/-- The attributes of a tag, each after a space. -/
def renderAttributes (attributes : List (String × String)) : List Char :=
  attributes.flatMap fun (name, value) =>
    ' ' :: name.toList ++ "=\"".toList ++ escape value.toList ++ ['"']

mutual

/-- A piece of markup as text. -/
def render : Markup → List Char
  | .text content => escape content.toList
  | .element tag attributes [] => '<' :: tag.toList ++ renderAttributes attributes ++ "/>".toList
  | .element tag attributes (child :: children) =>
    '<' :: tag.toList ++ renderAttributes attributes ++ ['>'] ++
      (render child ++ renderAll children) ++ "</".toList ++ tag.toList ++ ['>']

/-- Several pieces of markup in a row. -/
def renderAll : List Markup → List Char
  | [] => []
  | piece :: rest => render piece ++ renderAll rest

end

/-- An element whose children stand on lines of their own. -/
def block (tag : String) (attributes : List (String × String)) (children : List Markup) : Markup :=
  .element tag attributes (children.flatMap (fun child => [.text "\n", child]) ++ [.text "\n"])

/-- An element that holds a text. -/
def textElement (tag : String) (attributes : List (String × String)) (content : String) : Markup :=
  .element tag attributes [.text content]

example : escape "a<\"&".toList = "a&lt;&quot;&amp;".toList := by decide

example : (block "g" [("class", "a")] [.element "b" [] []]).render =
    "<g class=\"a\">\n<b/>\n</g>".toList := by decide

end Markup

end GanttChart
