/-
Module: Swatch.Main
Purpose: The command line program.
Main exports:
  main
-/
import Swatch.Command.Execute

namespace Swatch

/-- The reason for which the operating system refused an operation. -/
def fileErrorOf (e : IO.Error) : FileError :=
  match e with
  | .noFileOrDirectory _ _ _ => .notFound
  | .alreadyExists _ _ _ => .exists
  | .inappropriateType _ code _ => if code = 21 then .isDirectory else .notDirectory
  | e => .other e.toString.toList

/-- Runs an operation on a file and keeps its error. -/
def attempt {α : Type} (action : IO α) : IO (Except FileError α) := do
  try
    return .ok (← action)
  catch e =>
    return .error (fileErrorOf e)

/-- Writes the text of a new file; what was written of it is removed if that fails. -/
def fillFile (handle : IO.FS.Handle) (path : String) (text : Text) : IO Unit := do
  try
    handle.putStr (String.ofList text)
    handle.flush
  catch e =>
    IO.FS.removeFile path
    throw e

/-- Access to the files of the operating system. -/
instance : FileAccess IO where
  read path := do
    match ← attempt (IO.FS.readBinFile (String.ofList path)) with
    | .error e => return .error e
    | .ok bytes =>
      match String.fromUTF8? bytes with
      | some s => return .ok s.toList
      | none => return .error .notText
  create path text := do
    let path := String.ofList path
    match ← attempt (IO.FS.Handle.mk path .writeNew) with
    | .error e => return .error e
    | .ok handle => attempt (fillFile handle path text)

end Swatch

/-- Runs the command line. -/
def main (arguments : List String) : IO UInt32 := do
  let execution ← Swatch.execute (arguments.map String.toList)
  (← IO.getStdout).putStr (String.ofList execution.stdout)
  (← IO.getStderr).putStr (String.ofList execution.stderr)
  return execution.code.toUInt32
