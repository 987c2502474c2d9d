/-
Trace files as they are found.

The content of a trace file is a binary stream, either plain or inside a
compressed frame; its first four bytes tell which. A file in text form is not a
trace file in this sense: its first byte is no command that opens a stream.
-/

import CycleTrace.Lz4.Codec
import CycleTrace.Output.Directory
import CycleTrace.Wire.Decoder

namespace CycleTrace
namespace Inspection

/-- A file with its name and the time of its last change, in seconds since the
start of 1970. -/
structure StoredFile where
  name : String
  content : List UInt8
  modified : Int
deriving DecidableEq, Repr

/-- The earliest time that storage keeps, `2 ^ 31` seconds before 1970. -/
def earliestTime : Int := -0x80000000

/-- The latest time that storage keeps, `2 ^ 34 - 1` seconds after the earliest. -/
def latestTime : Int := 0x37fffffff

/-- The time that storage keeps for a time: the nearest one that it has. -/
def keptTime (time : Int) : Int :=
  max earliestTime (min time latestTime)

/-- The file that comes from writing content at a given time. -/
def StoredFile.written (name : String) (content : List UInt8) (time : Int) : StoredFile :=
  { name, content, modified := keptTime time }

/-- A file that must exist. -/
def requireFile : Option StoredFile → Except Fault StoredFile
  | some file => .ok file
  | none => .error (.inputOutput "the file does not exist")

variable [Lz4.Codec]

/-- The content of a frame. -/
def expandFrame (content : List UInt8) : Except Fault (List UInt8) :=
  (Lz4.Coder.expand content).mapError .compression

/-- The commands of a trace, plain or compressed. -/
def readTrace (content : List UInt8) : Except Fault (List Command) :=
  if Lz4.isFrame content then do
    let stream ← expandFrame content
    Wire.decode stream
  else Wire.decode content

/-- The commands of the trace that a path leads to. -/
def readTraceAt (directory : Output.Directory) (path : String) : Except Fault (List Command) :=
  match directory.find? path with
  | some content => readTrace content.toList
  | none => .error (.inputOutput "the file does not exist")

end Inspection
end CycleTrace
