/-
Encoders: commands in, bytes out.

An encoder owns a writer and writes each command in one of two forms. The text
form is a line per command and depends on nothing before it. The binary form
keeps the state of its stream: the last identifiers, the tag names and text
values it has defined, and the last clocked cycle, whose repetition it leaves
out. Beginning a file starts a stream afresh and writes the version; only the
counts of evictions and of cycles left out run on.

Definitions come from the encoder alone, so both forms ignore those handed to
them. A binary command is written in up to three writes: the definition of its
tag name, the definition of its text value, the command itself. When no file is
open the first of them is refused, and the stream keeps what led up to it.
-/

import CycleTrace.Command.Line
import CycleTrace.Output.Writer
import CycleTrace.Wire.Body
import CycleTrace.Wire.RecencyTable

namespace CycleTrace
namespace Output

/-- The command that opens every stream. -/
def openingVersion : Command :=
  .version formatMajor formatMinor

/-! ### The binary form -/

/-- The state of a binary stream. -/
structure BinaryStream where
  last : Wire.LastIds := {}
  tags : Wire.RecencyTable String := .ofCapacity Limits.rememberedTags
  texts : Wire.RecencyTable String := .ofCapacity Limits.rememberedTexts
  lastClockedCycle : Option ClockedCycle := none
  skippedCycles : Nat := 0

/-- A stream before its first command, with the counts of earlier streams. -/
def BinaryStream.restart (stream : BinaryStream) : BinaryStream :=
  { tags := stream.tags.clear
    texts := stream.texts.clear
    skippedCycles := stream.skippedCycles }

variable [Lz4.Codec]

/-- A binary stream with the writer it goes to. -/
structure BinaryEncoder where
  stream : BinaryStream := {}
  writer : Writer

/-- Encoding in binary form; a refused command may leave traces in the stream. -/
abbrev BinaryEncoding := EStateM Fault BinaryEncoder

namespace BinaryEncoder

/-- Writes bytes to the open file. -/
def write (bytes : List UInt8) : BinaryEncoding Unit := fun { stream, writer } =>
  match Writer.write bytes writer with
  | .ok _ writer => .ok () { stream, writer }
  | .error fault writer => .error fault { stream, writer }

/-- The identifier of a tag name, and whether it is new to the stream. -/
def assignTag (name : String) : BinaryEncoding Wire.Assignment :=
  fun { stream := { last, tags, texts, lastClockedCycle, skippedCycles }, writer } =>
    let (assignment, tags) := tags.assign name
    .ok assignment { stream := { last, tags, texts, lastClockedCycle, skippedCycles }, writer }

/-- The identifier of a text value, and whether it is new to the stream. -/
def assignText (value : String) : BinaryEncoding Wire.Assignment :=
  fun { stream := { last, tags, texts, lastClockedCycle, skippedCycles }, writer } =>
    let (assignment, texts) := texts.assign value
    .ok assignment { stream := { last, tags, texts, lastClockedCycle, skippedCycles }, writer }

/-- Defines the tag name of a command when it is new, and gives its identifier. -/
def defineTag : Option String → BinaryEncoding UInt8
  | none => return 0
  | some name => do
      let assignment ← assignTag name
      let id := assignment.id.toUInt8
      if assignment.isNew then write (Wire.tagDefinition id name)
      return id

/-- Defines the text value of a command when it is new, and gives its identifier. -/
def defineText : Option String → BinaryEncoding UInt16
  | none => return 0
  | some value => do
      let assignment ← assignText value
      let id := assignment.id.toUInt16
      if assignment.isNew then write (Wire.textDefinition id value)
      return id

/-- Lays out a command after the commands before it. -/
def layOut (tag : UInt8) (text : UInt16) (command : Command) : BinaryEncoding (List UInt8) :=
  modifyGet fun { stream, writer } =>
    let (bytes, last) := Wire.body stream.last tag text command
    (bytes, { stream := { stream with last }, writer })

/-- Writes a command after the definitions it needs. -/
def encodeDefined (command : Command) : BinaryEncoding Unit := do
  let tag ← defineTag command.tagName?
  let text ← defineText command.textValue?
  let bytes ← layOut tag text command
  write bytes

/-- Notes a clocked cycle, and whether it repeats the one before it. -/
def noteClockedCycle (cycle : ClockedCycle) : BinaryEncoding Bool :=
  modifyGet fun { stream, writer } =>
    if stream.lastClockedCycle = some cycle then
      (true, { stream := { stream with skippedCycles := stream.skippedCycles + 1 }, writer })
    else (false, { stream := { stream with lastClockedCycle := some cycle }, writer })

/-- Writes a command. -/
def encode (command : Command) : BinaryEncoding Unit := do
  match command with
  | .defineTag .. | .defineText .. => return
  | .clockedCycle cycle =>
      let repeated ← noteClockedCycle cycle
      if !repeated then encodeDefined command
  | _ => encodeDefined command

end BinaryEncoder

/-! ### Both forms -/

/-- An encoder of either form. -/
inductive Encoder where
  | text (writer : Writer)
  | binary (encoder : BinaryEncoder)

/-- Encoding; a refused command may leave traces in the encoder. -/
abbrev Encoding := EStateM Fault Encoder

namespace Encoder

/-- An encoder without an open file. -/
def ofForm (text : Bool) (bufferBytes : Nat) (directory : Directory) : Encoder :=
  let writer : Writer := { capacity := bufferBytes, directory }
  if text then .text writer else .binary { writer }

/-- The writer of an encoder. -/
def writer : Encoder → Writer
  | text writer => writer
  | binary encoder => encoder.writer

/-- Changes the writer of an encoder. -/
def mapWriter (change : Writer → Writer) : Encoder → Encoder
  | text writer => text (change writer)
  | binary { stream, writer } => binary { stream, writer := change writer }

/-- Whether a file is open. -/
def isOpen (encoder : Encoder) : Bool :=
  encoder.writer.isOpen

/-- Word for the form of an encoder. -/
def formName : Encoder → String
  | text _ => "ascii"
  | binary _ => "binary"

/-- Bytes accepted so far, before compression. -/
def accepted (encoder : Encoder) : Nat :=
  encoder.writer.accepted

/-- The line of a command, with its line feed. -/
def line (command : Command) : List UInt8 :=
  Wire.textBytes (command.render ++ "\n")

/-- Writes a command. -/
def encode (command : Command) : Encoding Unit
  | text writer =>
      if command.isDefinition then .ok () (text writer)
      else
        match Writer.write (line command) writer with
        | .ok _ writer => .ok () (text writer)
        | .error fault writer => .error fault (text writer)
  | binary encoder =>
      match BinaryEncoder.encode command encoder with
      | .ok _ encoder => .ok () (binary encoder)
      | .error fault encoder => .error fault (binary encoder)

/-- Opens a file and starts a stream in it. -/
def openStream (name : String) (compressed : Bool) : Encoding Unit
  | text writer =>
      match Writer.openFile name compressed writer with
      | .ok _ writer => .ok () (text writer)
      | .error fault writer => .error fault (text writer)
  | binary { stream, writer } =>
      match Writer.openFile name compressed writer with
      | .ok _ writer => .ok () (binary { stream := stream.restart, writer })
      | .error fault writer => .error fault (binary { stream, writer })

/-- Opens a file, starts a stream in it and writes the version. -/
def beginFile (name : String) (compressed : Bool) : Encoding Unit := do
  openStream name compressed
  encode openingVersion

/-- Writes commands in order. -/
def encodeAll (commands : List Command) : Encoding Unit :=
  commands.forM encode

/-- Hands everything accepted so far to the open file. -/
def flush (encoder : Encoder) : Encoder :=
  encoder.mapWriter Writer.flush

/-- Flushes and closes the open file. -/
def close (encoder : Encoder) : Encoder :=
  encoder.mapWriter Writer.close

end Encoder
end Output
end CycleTrace
