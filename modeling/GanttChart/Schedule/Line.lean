/-
  Lines of a schedule's text.

  A line is read from its first character that is not blank.  If it begins with one of five
  keywords and a space, in any case, it is a statement, and the rest without the blanks around it
  is the body.  A line that begins with `%%` is a comment and counts, like a blank one, for
  nothing.  Any other line is unknown.
-/
import GanttChart.Text.Words
import GanttChart.Text.Casing

namespace GanttChart

open GanttChart.Text

/-- The keywords of statements. -/
inductive Keyword where
  | option
  | click
  | group
  | task
  | milestone
  deriving DecidableEq

namespace Keyword

/-- All keywords. -/
def all : List Keyword := [.option, .click, .group, .task, .milestone]

/-- A keyword with the space after it. -/
def opening : Keyword → List Char
  | .option => "option ".toList
  | .click => "click ".toList
  | .group => "group ".toList
  | .task => "task ".toList
  | .milestone => "milestone ".toList

/-- The text after the keyword, if a text begins with it. -/
def body? (keyword : Keyword) (text : List Char) : Option (List Char) :=
  dropFront? keyword.opening text

end Keyword

/-- What a line is. -/
inductive Line where
  | statement (keyword : Keyword) (body : List Char)
  | ignored
  | unknown
  deriving DecidableEq

namespace Line

/-- The statement that a text without leading blanks begins with, among some keywords. -/
def statement? (text : List Char) : List Keyword → Option Line
  | [] => none
  | keyword :: rest =>
    match keyword.body? text with
    | some body => some (.statement keyword (trim body))
    | none => statement? text rest

/-- A text of no statement: a comment, a blank line or something unknown. -/
def withoutKeyword (text : List Char) : Line :=
  if ("%%".toList.isPrefixOf text) || text.isEmpty then .ignored else .unknown

/-- What a text is as a line. -/
def ofText (text : List Char) : Line :=
  let text := trimStart text
  (statement? text Keyword.all).getD (withoutKeyword text)

/-- Blanks in front of a line do not change it. -/
theorem ofText_append_of_blank {margin : List Char} (h : ∀ c ∈ margin, isBlank c = true)
    (text : List Char) : ofText (margin ++ text) = ofText text := by
  simp only [ofText, trimStart_append_of_blank h]

example : ofText "  TASK  a,b ".toList = .statement .task "a,b".toList := by decide

example : ofText "%% task a".toList = .ignored ∧ ofText "tasks a".toList = .unknown := by decide

end Line

end GanttChart
