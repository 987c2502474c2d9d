/-
Identifiers and limits of the trace format.

Nodes, edges and clocks carry 16-bit identifiers, items 32-bit ones. Item 0
names no item, and clock 0 is the clock of a simulation that declares none.
The limits are those a recorder enforces on its caller; the wire format itself
has wider fields.
-/

namespace CycleTrace

/-- A place where items reside. -/
abbrev NodeId := UInt16

/-- A path between two nodes. -/
abbrev EdgeId := UInt16

/-- A clock domain. -/
abbrev ClockId := UInt16

/-- A thing that moves through the simulated machine. -/
abbrev ItemId := UInt32

/-- The identifier that names no item. -/
def noItem : ItemId := 0

/-- The clock domain that exists without a declaration. -/
def defaultClock : ClockId := 0

/-- Major format version; a stream of another major version is unreadable. -/
def formatMajor : UInt16 := 4

/-- Minor format version. -/
def formatMinor : UInt16 := 0

/-- The comment magic kept for an archive embedded in the trace. -/
def archiveMagic : UInt32 := 0x41524348

namespace Limits

/-- Longest name of a node, edge or clock, in bytes. -/
def nameBytes : Nat := 1024

/-- Longest tag name, in bytes. -/
def tagNameBytes : Nat := 255

/-- Longest text value or description of a tag, in bytes. -/
def tagTextBytes : Nat := 4096

/-- Most elements of a set value. -/
def setElements : Nat := 255

/-- Most dimensions of a layout or a position. -/
def dimensions : Nat := 15

/-- Most items moved together. -/
def movedItems : Nat := 65535

/-- Tag names remembered by a binary stream. -/
def rememberedTags : Nat := 256

/-- Text values remembered by a binary stream. -/
def rememberedTexts : Nat := 65536

/-- Output buffer size unless another is asked for, in bytes. -/
def bufferBytes : Nat := 65536

end Limits
end CycleTrace
