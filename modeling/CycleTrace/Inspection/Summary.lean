/-
A summary of a trace file.

The summary tells the file's name, size and age, whether it is compressed, the
version of its stream, how many commands it has of each name, and the last
cycle started. As JSON its fields are sorted by name.
-/

import Std.Data.TreeMap
import CycleTrace.Inspection.FileSize
import CycleTrace.Inspection.Timestamp
import CycleTrace.Inspection.TraceFile
import CycleTrace.Text.Json

namespace CycleTrace
namespace Inspection

open Text (Json)

/-- What a summary tells. -/
structure Summary where
  file : String
  size : Nat
  modified : Int
  compressed : Bool
  major : UInt16
  minor : UInt16
  commands : Nat
  lastCycle : Option UInt64
  counts : List (String × Nat)
deriving DecidableEq, Repr

/-- How often each name occurs, in the order of the names. -/
def countByName (commands : List Command) : List (String × Nat) :=
  let counts := commands.foldl
    (fun counts command => counts.insert command.name (counts.getD command.name 0 + 1))
    (∅ : Std.TreeMap String Nat)
  counts.toList

/-- The last cycle that a command of the list starts. -/
def lastCycle? (commands : List Command) : Option UInt64 :=
  commands.reverse.findSome? Command.startedCycle?

namespace Summary

/-- The summary of a file that must exist and must be readable. -/
def ofFile [Lz4.Codec] (file? : Option StoredFile) : Except Fault Summary := do
  let file ← requireFile file?
  let commands ← readTrace file.content
  match commands with
  | .version major minor :: _ =>
      return {
        file := file.name
        size := file.content.length
        modified := file.modified
        compressed := Lz4.isFrame file.content
        major
        minor
        commands := commands.length
        lastCycle := lastCycle? commands
        counts := countByName commands }
  | _ => throw .missingVersion

/-- The version as two numbers with a point. -/
def versionText (summary : Summary) : String :=
  toString summary.major ++ "." ++ toString summary.minor

/-- The lines of a summary. -/
def lines (summary : Summary) : List String :=
  ["File: " ++ summary.file,
    "File size: " ++ sizeText summary.size,
    "Modified: " ++ timestamp summary.modified,
    "Compressed: " ++ if summary.compressed then "yes (lz4)" else "no",
    "Version: " ++ summary.versionText,
    "Commands: " ++ toString summary.commands]
  ++ (match summary.lastCycle with
      | some cycle => ["Last cycle: " ++ toString cycle]
      | none => [])
  ++ "Command counts:"
  :: summary.counts.map fun (name, count) => "  " ++ name ++ ": " ++ toString count

/-- A summary as JSON. -/
def toJson (summary : Summary) : Json :=
  .object [
    ("command_counts", .object (summary.counts.map fun (name, count) => (name, .number count))),
    ("commands", .number summary.commands),
    ("compressed", .bool summary.compressed),
    ("file", .string summary.file),
    ("file_size", .number summary.size),
    ("last_cycle",
      match summary.lastCycle with
      | some cycle => .number cycle.toNat
      | none => .null),
    ("modified", .string (timestamp summary.modified)),
    ("version", .string summary.versionText)]

end Summary
end Inspection
end CycleTrace
