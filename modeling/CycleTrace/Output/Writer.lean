/-
A buffered writer over files of a directory.

The writer collects small writes in a buffer and hands them on when the next
write would not fit. A write that is larger than the buffer goes straight to
the file, after what was collected before it; a capacity of zero makes every
write go straight. The open file is plain or a frame of whichever coder the
library is used with, and opening another file closes the open one first.

The data accepted for a plain file since it was opened is what the file holds
followed by the buffer. Whether and when bytes move from the buffer to the
file depends on the capacity, what arrives in the end does not.
-/

import CycleTrace.Fault
import CycleTrace.Lz4.Codec
import CycleTrace.Output.Directory

namespace CycleTrace
namespace Output

variable [Lz4.Codec]

/-- The open file of a writer: the path it was opened by, its name in the
directory and, when it is compressed, the frame in progress. -/
structure Sink where
  path : String
  name : String
  frame : Option Lz4.Coder.Frame

/-- A writer with its buffer and the directory it writes to. -/
structure Writer where
  capacity : Nat
  directory : Directory := {}
  buffer : Array UInt8 := #[]
  sink : Option Sink := none
  accepted : Nat := 0

/-- Writing; a refused write leaves the writer as it was. -/
abbrev Writing := EStateM Fault Writer

namespace Writer

/-- Whether a file is open. -/
def isOpen (writer : Writer) : Bool :=
  writer.sink.isSome

/-- Hands bytes to an open file. -/
def deliver (writer : Writer) (sink : Sink) (bytes : List UInt8) : Writer :=
  match sink.frame with
  | none => { writer with directory := writer.directory.append sink.name bytes }
  | some frame =>
      let (written, frame) := Lz4.Coder.write frame bytes
      { writer with
        directory := writer.directory.append sink.name written
        sink := some { sink with frame := some frame } }

/-- Hands the buffer to the open file. -/
def spill (writer : Writer) : Writer :=
  match writer.sink with
  | none => writer
  | some sink =>
      if writer.buffer.isEmpty then writer
      else { writer.deliver sink writer.buffer.toList with buffer := #[] }

/-- Accepts data for the open file. -/
def accept (writer : Writer) (data : List UInt8) : Writer :=
  let length := data.length
  let writer := { writer with accepted := writer.accepted + length }
  if writer.buffer.size + length ≤ writer.capacity then
    { writer with buffer := writer.buffer ++ data }
  else
    let writer := writer.spill
    if length ≤ writer.capacity then { writer with buffer := writer.buffer ++ data }
    else
      match writer.sink with
      | none => writer
      | some sink => writer.deliver sink data

/-- Writes data to the open file. -/
def write (data : List UInt8) : Writing Unit := do
  if !(← get).isOpen then throw .sinkClosed
  modify (·.accept data)

/-- Hands everything accepted so far to the open file. -/
def flush (writer : Writer) : Writer :=
  let writer := writer.spill
  match writer.sink with
  | some { path, name, frame := some frame } =>
      let (written, frame) := Lz4.Coder.flush frame
      { writer with
        directory := writer.directory.append name written
        sink := some { path, name, frame := some frame } }
  | _ => writer

/-- Flushes and closes the open file; a compressed frame is ended. -/
def close (writer : Writer) : Writer :=
  let writer := writer.flush
  match writer.sink with
  | none => writer
  | some { name, frame, .. } =>
      let ending :=
        match frame with
        | none => []
        | some frame => Lz4.Coder.finish frame
      { writer with directory := writer.directory.append name ending, sink := none }

/-- Closes the open file and opens the one that a path leads to. -/
def openFile (path : String) (compressed : Bool) : Writing Unit := do
  modify (·.close)
  let some name := Directory.fileName? path
    | throw (.inputOutput "the file cannot be created")
  modify fun writer =>
    { writer with
      directory := writer.directory.create name
      sink := some { path, name, frame := if compressed then some Lz4.Coder.start else none } }

end Writer
end Output
end CycleTrace
