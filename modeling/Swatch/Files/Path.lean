/-
Module: Swatch.Files.Path
Purpose: Paths of files as text.
Main exports:
  segments, parent?, join, defaultTarget
-/
import Swatch.Text.Basic

namespace Swatch

/-- The parts of a path between its slashes, empty ones included. -/
def segments : Text → List Text
  | [] => [[]]
  | c :: s =>
    if c = '/' then [] :: segments s
    else
      match segments s with
      | [] => [[c]]
      | first :: rest => (c :: first) :: rest

/-- Whether a path starts at the root. -/
def isAbsolute (path : Text) : Bool := path.head? == some '/'

/-- Whether a segment names something.  Empty segments and single dots do not, except for a
dot that a path starts with. -/
def isNaming (first : Bool) (segment : Text) : Bool :=
  !segment.isEmpty && (first || segment != ['.'])

/-- The segments up to the last one that names something. -/
def dropNameless (segments : List Text) : List Text :=
  match segments with
  | [] => []
  | first :: rest =>
    match (rest.reverse.dropWhile (!isNaming false ·)).reverse with
    | [] => if isNaming true first then [first] else []
    | rest => first :: rest

/-- The directory that holds what a path names, as it is written in the path.  The root has
none, and neither has the empty path. -/
def parent? (path : Text) : Option Text :=
  match dropNameless (segments path) with
  | [] => none
  | named =>
    match dropNameless named.dropLast with
    | [] => some (if isAbsolute path then ['/'] else [])
    | outer => some (joined ['/'] outer)

/-- A name inside a directory. -/
def join (directory name : Text) : Text :=
  if directory.isEmpty || directory.getLast? == some '/' then directory ++ name
  else directory ++ '/' :: name

/-- The name of the file that is written when no other is given. -/
def defaultName : Text := "output.css".toList

/-- The file that is written when no other is given: beside the source. -/
def defaultTarget (source : Text) : Text :=
  match parent? source with
  | some directory => join directory defaultName
  | none => defaultName

end Swatch
