/-
  Flowprint.Place
  ────────────────────────────────
  Places below a working directory, and paths as steps to them.

  A place is a list of names from the working directory down.  A path is a row of steps between
  slashes; a step goes to a name, up, or nowhere.  Names and paths have a longest length.
-/
import Flowprint.Text.Blank
import Flowprint.Text.Utf8

namespace Flowprint

/-- The names from the working directory down to a place. -/
abbrev Place := List String

namespace Place

/-- The longest name, in bytes. -/
def maxNameBytes : Nat := 255

/-- The longest path, in bytes. -/
def maxPathBytes : Nat := 4095

/-- Whether a name is longer than a name can be. -/
def isTooLong (name : String) : Bool :=
  maxNameBytes < Text.utf8Length name.toList

/-- Whether a place is the working directory or above it. -/
def isAncestor (place : Place) : Bool :=
  place.all (· == "..") || place == ["/"]

/-- The place above a place. -/
def above (place : Place) : Place :=
  if place.all (· == "..") then place ++ [".."]
  else if place = ["/"] then place
  else place.dropLast

/-- Whether a step goes to no name of its own. -/
def isRelative (name : String) : Bool :=
  name == "" || name == "." || name == ".."

/-- One step from a place. -/
def step (place : Place) (name : String) : Place :=
  if name = "" ∨ name = "." then place
  else if name = ".." then above place
  else place ++ [name]

/-- The steps of a path.  A path from the root starts with a step to it. -/
def steps (path : String) : List String :=
  match path.toList with
  | '/' :: rest => "/" :: (Text.pieces (· == '/') rest).map String.ofList
  | chars => (Text.pieces (· == '/') chars).map String.ofList

end Place

end Flowprint
