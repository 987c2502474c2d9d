/-
Listings of the commands of a trace file.

A listing shows the first commands up to a limit, one a line, and tells how
many more there are. As JSON it is an array of the shown commands alone.
-/

import CycleTrace.Command.Json
import CycleTrace.Command.Line
import CycleTrace.Inspection.TraceFile

namespace CycleTrace
namespace Inspection

open Text (Json)

/-- The shown commands and the number of the others. -/
structure Listing where
  shown : List Command
  hidden : Nat
deriving DecidableEq, Repr

namespace Listing

/-- The listing of a file that must exist and must be readable. -/
def ofFile [Lz4.Codec] (file? : Option StoredFile) (limit : Option Nat) : Except Fault Listing := do
  let file ← requireFile file?
  let commands ← readTrace file.content
  let limit := limit.getD commands.length
  return { shown := commands.take limit, hidden := commands.length - limit }

/-- The lines of a listing. -/
def lines (listing : Listing) : List String :=
  listing.shown.map Command.render
    ++ if listing.hidden = 0 then []
      else ["... " ++ toString listing.hidden ++ " more commands"]

/-- A listing as JSON. -/
def toJson (listing : Listing) : Json :=
  .array (listing.shown.map Command.toJson)

end Listing
end Inspection
end CycleTrace
