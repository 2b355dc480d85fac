/-
  Links: the two forms of URL that a click may carry.

  A web link is an optional scheme, `http://` or `https://` with one character more, an optional
  `www.`, a host of 2 to 256 characters, a point, a domain of 2 to 6 small letters, and a tail.
  A deep link is a given scheme, `://open`, and a tail.  A tail is empty or begins with a
  character that continues no word, and each form has its own characters for it.

  The parts of a web link can overlap, for a host may hold points and begin with `www.`; the link
  is accepted if any way of dividing it fits, and `isWeb` tries them all.
-/
import GanttChart.Schedule.Fault
import GanttChart.Chart.Shape

namespace GanttChart.Link

/-! ## Characters -/

/-- The letters a to z. -/
def isSmall (c : Char) : Bool := 'a' ≤ c && c ≤ 'z'

/-- An ASCII letter or digit. -/
def isAlphanumeric (c : Char) : Bool := isSmall c || ('A' ≤ c && c ≤ 'Z') || ('0' ≤ c && c ≤ '9')

/-- A character that would continue a word. -/
def isWordChar (c : Char) : Bool := isAlphanumeric c || c == '_'

/-- The characters of a host. -/
def isHostChar (c : Char) : Bool := isAlphanumeric c || c ∈ "-@:%._+~#=".toList

/-- The characters of a web link's tail. -/
def isPathChar (c : Char) : Bool := isAlphanumeric c || c ∈ "-@:%_+.~#?&/=!$'()*,;[]".toList

/-- The characters of a deep link's tail. -/
def isDeepChar (c : Char) : Bool := isAlphanumeric c || c ∈ "-()!@:%_+.~#?&/=".toList

/-! ## Parts -/

/-- A tail over some characters. -/
def isTail (allowed : Char → Bool) (text : List Char) : Bool :=
  text.all allowed && !text.head?.any isWordChar

/-- A domain and a tail. -/
def isDomain (text : List Char) : Bool :=
  [2, 3, 4, 5, 6].any fun n =>
    n ≤ text.length && (text.take n).all isSmall && isTail isPathChar (text.drop n)

/-- The rest of a host of which `seen` characters are read, then a point, a domain and a tail. -/
def isHostAfter (seen : Nat) : List Char → Bool
  | [] => false
  | c :: text =>
    (2 ≤ seen && c == '.' && isDomain text) ||
      (seen < 256 && isHostChar c && isHostAfter (seen + 1) text)

/-- A web link without its scheme. -/
def isSchemeless (text : List Char) : Bool :=
  isHostAfter 0 text || ("www.".toList.isPrefixOf? text).any (isHostAfter 0)

/-- A scheme, one character more, and the rest of a web link. -/
def isWebWith (scheme text : List Char) : Bool :=
  match scheme.isPrefixOf? text with
  | some (c :: rest) => c != '\n' && isSchemeless rest
  | _ => false

/-! ## Links -/

/-- A web link. -/
def isWeb (text : List Char) : Bool :=
  isSchemeless text || isWebWith "http://".toList text || isWebWith "https://".toList text

/-- A deep link of a scheme. -/
def isDeep (scheme text : List Char) : Bool :=
  ((scheme ++ "://open".toList).isPrefixOf? text).any (isTail isDeepChar)

/-- A link that a click may carry, where deep links have the given scheme. -/
def isValid (scheme url : String) : Bool := isWeb url.toList || isDeep scheme.toList url.toList

example : isWeb "https://www.example.com/a?b=c".toList = true := by decide +kernel

example : isWeb "not a url".toList = false ∧ isWeb "example.comx1".toList = false := by
  decide +kernel

example : isDeep "obsidian".toList "obsidian://open?vault=a".toList = true := by decide +kernel

end GanttChart.Link

namespace GanttChart

/-- The action of an event, if its URL is a link. -/
def Event.action (scheme : String) (event : Event) : Except LayoutFault Action :=
  if !Link.isValid scheme event.url then .error (.invalidUrl event.url)
  else
    match event.kind with
    | .goTo => .ok (.navigate event.url)
    | .popup => .ok (.popup event.url)

end GanttChart
