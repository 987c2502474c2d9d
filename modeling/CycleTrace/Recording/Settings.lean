/-
Settings of a recorder.

Settings can be written as a JSON object whose fields may be missing and whose
unknown fields are ignored, or as an array of the six values in order, of
which the last ones may be missing. A setting given twice, or with a value of
another kind, makes the whole text invalid.

One setting can also be switched off from outside the program, by a word that
means no.
-/

import CycleTrace.Limits
import CycleTrace.Text.Blank
import CycleTrace.Text.Json
import CycleTrace.Text.JsonReader

namespace CycleTrace
namespace Recording

open Text (Document Json)

/-- How and where a recorder writes. -/
structure Settings where
  fileName : String := "trace.ptr"
  compressed : Bool := false
  bufferBytes : Nat := Limits.bufferBytes
  text : Bool := false
  suppressRepeatedTags : Bool := true
  trackTraffic : Bool := false
deriving DecidableEq, Repr

namespace Settings

/-! ### The switch -/

/-- Whether a word means no. -/
def isNo (word : String) : Bool :=
  ["0", "false", "off"].contains (Text.lowerAscii (Text.trim word))

/-- Applies the word given from outside the program, if there is one. -/
def applySwitch (settings : Settings) (word : Option String) : Settings :=
  match word with
  | some word => if isNo word then { settings with suppressRepeatedTags := false } else settings
  | none => settings

/-! ### JSON -/

/-- Names of the settings, in order. -/
def fieldNames : List String :=
  ["file_name", "compressed", "buffer_size", "ascii", "autocompress", "track_bandwidth"]

/-- Settings as a JSON object. -/
def toJson (settings : Settings) : Json :=
  .object [("file_name", .string settings.fileName), ("compressed", .bool settings.compressed),
    ("buffer_size", .number settings.bufferBytes), ("ascii", .bool settings.text),
    ("autocompress", .bool settings.suppressRepeatedTags),
    ("track_bandwidth", .bool settings.trackTraffic)]

/-- Sets one setting by its place in the order. -/
def setField (settings : Settings) (place : Nat) (value : Document) : Option Settings :=
  match place, value with
  | 0, .string (some fileName) => some { settings with fileName }
  | 1, .bool compressed => some { settings with compressed }
  | 2, .natural bufferBytes =>
      if bufferBytes < UInt64.size then some { settings with bufferBytes } else none
  | 3, .bool text => some { settings with text }
  | 4, .bool suppressRepeatedTags => some { settings with suppressRepeatedTags }
  | 5, .bool trackTraffic => some { settings with trackTraffic }
  | _, _ => none

/-- Sets fields by name; `seen` are the names set before. -/
def setFields (settings : Settings) (seen : List String) :
    List (Option String × Document) → Option Settings
  | [] => some settings
  | (none, _) :: _ => none
  | (some name, value) :: rest =>
      if fieldNames.contains name then
        if seen.contains name then none
        else
          match settings.setField (fieldNames.idxOf name) value with
          | some settings => setFields settings (name :: seen) rest
          | none => none
      else setFields settings seen rest

/-- Sets fields by their places from `place` on. -/
def setPlaces (settings : Settings) (place : Nat) : List Document → Option Settings
  | [] => some settings
  | value :: rest =>
      match settings.setField place value with
      | some settings => setPlaces settings (place + 1) rest
      | none => none

/-- The settings written by a JSON text. -/
def ofJson? (text : String) : Option Settings :=
  match Document.ofText? text with
  | some (.object fields) => setFields {} [] fields
  | some (.array values) => setPlaces {} 0 values
  | _ => none

end Settings
end Recording
end CycleTrace
