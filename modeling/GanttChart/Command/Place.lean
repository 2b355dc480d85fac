/-
  Places in a tree of directories, and the paths that lead to them.

  A place is named from the root or from a directory some levels above the working directory,
  which itself is no level above.  The directories above the working directory have no names here,
  so two places that start differently count as different.

  A path is the text form.  It is cut at slashes, and empty names do not count, but a slash at its
  end asks for a directory.  A name has at most 255 bytes, and a path less than 4096.
-/
namespace GanttChart.Command

/-- A name in a directory. -/
abbrev Name := List Char

/-- Where the names of a place or a path start. -/
inductive Start where
  | root
  /-- So many levels above the working directory. -/
  | above (levels : Nat)
  deriving DecidableEq

/-- A file or directory, whether it exists or not; the names lead to it from the start. -/
structure Place where
  start : Start
  names : List Name := []
  deriving DecidableEq

namespace Place

/-- The working directory. -/
def here : Place := { start := .above 0 }

/-- The place of a name in a directory. -/
def child (place : Place) (name : Name) : Place := { place with names := place.names ++ [name] }

/-- The directory that a place is in; the root is in itself. -/
def parent (place : Place) : Place :=
  match place.names, place.start with
  | _ :: _, _ => { place with names := place.names.dropLast }
  | [], .above levels => { start := .above (levels + 1) }
  | [], .root => place

/-- The second place is below the first. -/
def isAbove (place other : Place) : Bool :=
  place.start == other.start && place.names.isPrefixOf other.names && place.names != other.names

end Place

/-! ## Paths -/

/-- The name of a directory in itself. -/
def dot : Name := ['.']

/-- The name in a directory of the one that it is in. -/
def dots : Name := ['.', '.']

/-- The number of bytes that a text takes up. -/
def byteCount : List Char → Nat
  | [] => 0
  | c :: text => c.utf8Size + byteCount text

/-- The name is longer than a directory can hold. -/
def isTooLong (name : Name) : Bool := 255 < byteCount name

/-- A path as it is written. -/
structure Path where
  start : Place
  names : List Name
  /-- The path ends with a slash. -/
  slashed : Bool
  deriving DecidableEq

namespace Path

/-- The path that a text writes. -/
def ofText (text : List Char) : Path where
  start := if text.head? = some '/' then { start := .root } else .here
  names := (text.splitOn '/').filter fun name => !name.isEmpty
  slashed := text.getLast? = some '/'

/-- The place that a path means if all its directories exist. -/
def place (path : Path) : Place :=
  path.names.foldl
    (fun place name =>
      if name = dot then place else if name = dots then place.parent else place.child name)
    path.start

example : (ofText "a//./../b/".toList).place = Place.here.child ['b'] := by decide

example : (ofText "../..".toList).place = { start := .above 2 } := by decide

example : (ofText "//".toList).place = { start := .root } := by decide

end Path

end GanttChart.Command
