/-
Module: Swatch.Files.Tree
Purpose: Files in directories, and what reading and creating a file does to them.
Main exports:
  FileError, FileContent, FileEntry, FileTree, FileTree.read, FileTree.create, FileAccess
-/
import Swatch.Files.Path

namespace Swatch

/-- Why a file cannot be read or created. -/
inductive FileError where
  | notFound
  | exists
  | isDirectory
  | notDirectory
  | notText
  | other (description : Text)
deriving DecidableEq, Repr, Inhabited

/-- The error in words, with the number that the operating system gives it. -/
def FileError.message : FileError → Text
  | .notFound => "No such file or directory (os error 2)".toList
  | .exists => "File exists (os error 17)".toList
  | .isDirectory => "Is a directory (os error 21)".toList
  | .notDirectory => "Not a directory (os error 20)".toList
  | .notText => "stream did not contain valid UTF-8".toList
  | .other description => description

/-- What a file holds: text, or bytes that are no UTF-8 text. -/
inductive FileContent where
  | text (text : Text)
  | bytes (bytes : List UInt8)
deriving DecidableEq, Repr, Inhabited

/-- The content that bytes make. -/
def FileContent.ofBytes (bytes : List UInt8) : FileContent :=
  match String.fromUTF8? ⟨bytes.toArray⟩ with
  | some s => .text s.toList
  | none => .bytes bytes

/-- What a path can lead to. -/
inductive FileEntry where
  | file (content : FileContent)
  | directory
deriving DecidableEq, Repr, Inhabited

/-- All entries below a directory, each with the names that lead to it. -/
structure FileTree where
  entries : List (List Text × FileEntry) := []
deriving DecidableEq, Repr, Inhabited

namespace FileTree

/-- The entry at a place.  The top is a directory. -/
def find? (t : FileTree) (place : List Text) : Option FileEntry :=
  if place.isEmpty then some .directory
  else (t.entries.find? (·.1 = place)).map (·.2)

/-- Goes from one directory along segments of a path; all of them have to lead to
directories. -/
def walk (t : FileTree) (here : List Text) : List Text → Except FileError (List Text)
  | [] => .ok here
  | segment :: rest =>
    if segment = [] ∨ segment = ['.'] then walk t here rest
    else if segment = ['.', '.'] then walk t here.dropLast rest
    else
      match t.find? (here ++ [segment]) with
      | some .directory => walk t (here ++ [segment]) rest
      | some (.file _) => .error .notDirectory
      | none => .error .notFound

/-- Whether a segment leads to a directory by itself. -/
def isStep (segment : Text) : Bool :=
  segment.isEmpty || segment == ['.'] || segment == ['.', '.']

/-- The text of a file. -/
def read (t : FileTree) (path : Text) : Except FileError Text := do
  let parts := segments path
  let last := parts.getLast?.getD []
  if path = [] then throw .notFound
  if isStep last then
    let _ ← t.walk [] parts
    throw .isDirectory
  let directory ← t.walk [] parts.dropLast
  match t.find? (directory ++ [last]) with
  | some (.file (.text text)) => return text
  | some (.file (.bytes _)) => throw .notText
  | some .directory => throw .isDirectory
  | none => throw .notFound

/-- Where a new file at a path goes.  Nothing may be there yet, and the path must not end in
a slash. -/
def freePlace (t : FileTree) (path : Text) : Except FileError (List Text) := do
  let parts := segments path
  let named := (parts.reverse.dropWhile List.isEmpty).reverse
  let last := named.getLast?.getD []
  if path = [] then throw .notFound
  if isStep last then
    let _ ← t.walk [] parts
    throw .exists
  let directory ← t.walk [] named.dropLast
  if parts.length ≠ named.length then throw .isDirectory
  match t.find? (directory ++ [last]) with
  | some _ => throw .exists
  | none => return directory ++ [last]

/-- Adds a file with a text; a path that leads to something is left alone. -/
def create (t : FileTree) (path text : Text) : Except FileError FileTree := do
  let place ← t.freePlace path
  return ⟨t.entries ++ [(place, .file (.text text))]⟩

end FileTree

/-!
### Access

A run reads files and creates files, and nothing else: that is all it can do to them.
-/

/-- A setting in which files can be read and created. -/
class FileAccess (m : Type → Type) where
  /-- Reads the text of a file. -/
  read : Text → m (Except FileError Text)
  /-- Creates a file with a text.  It fails if the path leads to anything. -/
  create : Text → Text → m (Except FileError Unit)

/-- Access to a tree of files that is passed along. -/
instance : FileAccess (StateM FileTree) where
  read path := do return (← get).read path
  create path text := do
    match (← get).create path text with
    | .ok t =>
      set t
      return .ok ()
    | .error e => return .error e

end Swatch
