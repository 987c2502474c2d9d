/-
The inspection tool as a program.

The program reads its arguments and the file they name, and prints the answer.
Arguments that make no request are answered with the form they should have.
-/

import CycleTrace.Inspection.CommandLine

namespace CycleTrace

open Inspection (StoredFile)

/-- Form of the arguments. -/
def usage : String :=
  "usage: [--format text|json] (info FILE | dump FILE [--limit COUNT])"

/-- The file with a given name, if it can be read. -/
def readStoredFile (name : String) : IO (Option StoredFile) := do
  let path := (← IO.currentDir) / name
  try
    let content ← IO.FS.readBinFile path
    let modified := (← path.metadata).modified.sec
    return some { name, content := content.toList, modified }
  catch _ => return none

end CycleTrace

/-- Answers the request made by the arguments. -/
def main (arguments : List String) : IO UInt32 := do
  match CycleTrace.Inspection.Request.ofArguments? arguments with
  | none =>
      IO.eprintln CycleTrace.usage
      return 2
  | some request =>
      let answer := request.answer (← CycleTrace.readStoredFile request.fileName)
      IO.print answer.output
      IO.eprint answer.errors
      return answer.exitCode
