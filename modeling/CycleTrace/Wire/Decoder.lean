/-
Decoding a binary stream, one command at a time.

A decoder holds the bytes still to be read, their offset, and what earlier
bytes have established: the last identifiers, the tag names and text values
bound so far, and whether a version was seen. Reading a command either gives
the command or a fault, and the decoder keeps what was consumed in both cases.
After a fault nothing more is read.

Bytes that no encoder writes are accepted where their meaning is clear: wider
fields than needed, unused header bits, bindings that are replaced or never
used, and further versions of the same major number.
-/

import Std.Data.HashMap
import CycleTrace.Command
import CycleTrace.Wire.Code
import CycleTrace.Wire.LastIds
import CycleTrace.Wire.Width

namespace CycleTrace
namespace Wire

/-- A stream that is being read. -/
structure Decoder where
  rest : List UInt8
  offset : Nat := 0
  last : LastIds := {}
  tags : Std.HashMap UInt8 String := {}
  texts : Std.HashMap UInt16 String := {}
  versionSeen : Bool := false
  failed : Bool := false

/-- Reading from a stream; a fault leaves the decoder where it occurred. -/
abbrev Reading := EStateM Fault Decoder

namespace Reading

/-! ### Fields -/

/-- The next `count` bytes. -/
def bytes (count : Nat) : Reading (List UInt8) := fun decoder =>
  let taken := decoder.rest.take count
  if taken.length < count then .error .truncated decoder
  else
    .ok taken { decoder with rest := decoder.rest.drop count, offset := decoder.offset + count }

/-- One byte. -/
def byte : Reading UInt8 := do
  let bytes ← bytes 1
  return bytes.headD 0

/-- A number without sign in `count` bytes. -/
def natural (count : Nat) : Reading Nat := do
  let bytes ← bytes count
  return ofLittleEndian bytes

/-- A word of two bytes. -/
def word16 : Reading UInt16 := do
  let value ← natural 2
  return UInt16.ofNat value

/-- A word of four bytes. -/
def word32 : Reading UInt32 := do
  let value ← natural 4
  return UInt32.ofNat value

/-- The bytes of a number in a given width. Eight bytes are read as two words,
so a stream that ends between them has lost the first. -/
def number (width : Width) : Reading (List UInt8) := do
  match width with
  | .eight =>
      let low ← bytes 4
      let high ← bytes 4
      return low ++ high
  | _ => bytes width.bytes

/-- A number without sign in a given width. -/
def unsigned (width : Width) : Reading Nat := do
  let bytes ← number width
  return ofLittleEndian bytes

/-- A number of either sign in a given width. -/
def signed (width : Width) : Reading Int := do
  let bytes ← number width
  return ofSignedWord bytes

/-- A word of eight bytes. -/
def word64 : Reading UInt64 := do
  let value ← unsigned .eight
  return UInt64.ofNat value

/-- As many readings as asked for, in order, after those already made. -/
def manyAfter (read : Reading α) (earlier : List α) : Nat → Reading (List α)
  | 0 => return earlier.reverse
  | count + 1 => do
      let value ← read
      manyAfter read (value :: earlier) count

/-- As many readings as asked for, in order. -/
def many (count : Nat) (read : Reading α) : Reading (List α) :=
  manyAfter read [] count

/-- A text of `count` bytes. -/
def text (count : Nat) : Reading String := do
  let start := (← get).offset
  let bytes ← bytes count
  match text? bytes with
  | some text => return text
  | none => throw (.invalidUtf8 start)

/-- A text preceded by its length in two bytes. -/
def shortText : Reading String := do
  let count ← natural 2
  text count

/-- The tag name bound to the identifier that follows. -/
def tagName : Reading String := do
  let id ← byte
  match (← get).tags[id]? with
  | some name => return name
  | none => throw (.undefinedTag id)

/-- The text value bound to the identifier that follows. -/
def textValue : Reading String := do
  let id ← word16
  match (← get).texts[id]? with
  | some value => return value
  | none => throw (.undefinedText id)

/-- An item as a difference. -/
def item (width : Width) : Reading ItemId := do
  let delta ← signed width
  modifyGet fun decoder =>
    let item := decoder.last.itemAt delta
    (item, { decoder with last := { decoder.last with item } })

/-- A node as a difference. -/
def node (width : Width) : Reading NodeId := do
  let delta ← signed width
  modifyGet fun decoder =>
    let node := decoder.last.nodeAt delta
    (node, { decoder with last := { decoder.last with node } })

/-- An edge as a difference. -/
def edge (width : Width) : Reading EdgeId := do
  let delta ← signed width
  modifyGet fun decoder =>
    let edge := decoder.last.edgeAt delta
    (edge, { decoder with last := { decoder.last with edge } })

/-- Coordinates in a given width; only the low four bytes of each count. -/
def positions (width : Width) (count : Nat) : Reading (List UInt32) := do
  let values ← many count (unsigned width)
  return values.map UInt32.ofNat

/-- Elements of a set in a given width. -/
def elements (width : Width) (count : Nat) : Reading (List UInt64) := do
  let values ← many count (unsigned width)
  return values.map UInt64.ofNat

/-- A cycle number in a given width. -/
def cycleNumber (width : Width) : Reading UInt64 := do
  let value ← unsigned width
  return UInt64.ofNat value

/-! ### Commands -/

/-- The version of a stream; only one major version can be read. -/
def version : Reading Command := do
  let major ← word16
  let minor ← word16
  if major ≠ formatMajor then throw (.unsupportedVersion major minor)
  modify fun decoder => { decoder with versionSeen := true }
  return .version major minor

/-- A declaration of a node. -/
def newNode (width : Width) : Reading Command := do
  let packed ← byte
  let id ← node width
  let parent ← if packed.toNat % 2 = 1 then some <$> word16 else pure none
  let instanceNumber ← word16
  let name ← shortText
  return .newNode id name parent instanceNumber

/-- A declaration of an edge. -/
def newEdge (width : Width) : Reading Command := do
  let id ← edge width
  let source ← word16
  let destination ← word16
  let bandwidth ← word32
  let latency ← word32
  let name ← shortText
  return .newEdge id source destination bandwidth latency name

/-- A declaration of a clock domain. -/
def newClock : Reading Command := do
  let id ← word16
  let frequency ← word64
  let skew ← word16
  let divisions ← word16
  let name ← shortText
  return .newClock id frequency skew divisions name

/-- A move of items over an edge. -/
def moveItems (width : Width) : Reading Command := do
  let packed ← byte
  let edge ← edge (.ofSelector packed)
  let count ← natural 2
  let items ← many count (item width)
  let positions ←
    if (packed &&& (4 : UInt8)) = 0 then pure []
    else positions (.ofSelector (packed >>> (3 : UInt8))) count
  return .moveItems edge items positions

/-- The node, item and position of an entry or exit. -/
def residence (width : Width) (build : NodeId → ItemId → List UInt32 → Command) :
    Reading Command := do
  let packed ← byte
  let node ← node (.ofSelector packed)
  let item ← item width
  let position ← positions (.ofSelector (packed >>> (2 : UInt8))) (packed.toNat / 16)
  return build node item position

/-- The layout of a node. -/
def setLayout (width : Width) : Reading Command := do
  let packed ← byte
  let node ← node width
  let dimensions ← many (packed.toNat % 16) word32
  return .setLayout node dimensions

/-- An item tag with an integer value. -/
def itemTagInt (width : Width) : Reading Command := do
  let packed ← byte
  let tag ← tagName
  let item ← item width
  let value ← cycleNumber (.ofSelector packed)
  return .tagItem item tag (.int value)

/-- An item tag with a text value. -/
def itemTagText (width : Width) : Reading Command := do
  let tag ← tagName
  let value ← textValue
  let item ← item width
  return .tagItem item tag (.text value)

/-- An item tag with a set value. -/
def itemTagSet (width : Width) : Reading Command := do
  let packed ← byte
  let tag ← tagName
  let count ← byte
  let item ← item width
  let values ← elements (.ofSelector packed) count.toNat
  return .tagItem item tag (.set values)

/-- The dimensions that the packed byte of a node tag announces. -/
def nodeTagDimensions (packed : UInt8) : Nat :=
  packed.toNat / 4 % 16

/-- The coordinate width that the packed byte of a node tag announces. -/
def nodeTagPositionWidth (packed : UInt8) : Width :=
  .ofSelector (packed >>> (6 : UInt8))

/-- A node tag with an integer value. -/
def nodeTagInt (width : Width) : Reading Command := do
  let packed ← byte
  let tag ← tagName
  let node ← node width
  let position ← positions (nodeTagPositionWidth packed) (nodeTagDimensions packed)
  let value ← cycleNumber (.ofSelector packed)
  return .tagNode node tag (.int value) position

/-- A node tag with a text value. -/
def nodeTagText (width : Width) : Reading Command := do
  let packed ← byte
  let tag ← tagName
  let value ← textValue
  let node ← node width
  let position ← positions (nodeTagPositionWidth packed) (nodeTagDimensions packed)
  return .tagNode node tag (.text value) position

/-- A node tag with a set value. -/
def nodeTagSet (width : Width) : Reading Command := do
  let packed ← byte
  let tag ← tagName
  let count ← byte
  let node ← node width
  let position ← positions (nodeTagPositionWidth packed) (nodeTagDimensions packed)
  let values ← elements (.ofSelector packed) count.toNat
  return .tagNode node tag (.set values) position

/-- A cycle tag with an integer value. -/
def cycleTagInt (width : Width) : Reading Command := do
  let tag ← tagName
  let value ← cycleNumber width
  return .tagCycle tag (.int value)

/-- A cycle tag with a text value. -/
def cycleTagText : Reading Command := do
  let tag ← tagName
  let value ← textValue
  return .tagCycle tag (.text value)

/-- A cycle tag with a set value. -/
def cycleTagSet (width : Width) : Reading Command := do
  let tag ← tagName
  let count ← byte
  let values ← elements width count.toNat
  return .tagCycle tag (.set values)

/-- The description of a tag. -/
def describeTag : Reading Command := do
  let tag ← tagName
  let description ← shortText
  return .describeTag tag description

/-- A bandwidth of a node. -/
def nodeBandwidth (width : Width) (build : NodeId → UInt32 → Command) : Reading Command := do
  let node ← node width
  let bandwidth ← word32
  return build node bandwidth

/-- The clock of a node. -/
def setClock (width : Width) : Reading Command := do
  let node ← node width
  let clock ← word16
  return .setClock node clock

/-- A cycle of a clock domain. -/
def clockedCycle (width : Width) : Reading Command := do
  let clock ← word16
  let start := (← get).offset
  let phase ← byte
  match ClockPhase.ofByte? phase with
  | none => throw (.invalidPhase phase start)
  | some phase =>
      let cycle ← cycleNumber width
      return .clockedCycle ⟨clock, cycle, phase⟩

/-- A comment in text form. -/
def comment : Reading Command := do
  let magic ← word32
  let count ← natural 4
  let text ← text count
  return .comment magic text

/-- A comment in binary form. -/
def commentBytes : Reading Command := do
  let magic ← word32
  let count ← natural 4
  let data ← bytes count
  return .commentBytes magic data

/-- A binding of a tag name; it replaces an earlier one. -/
def defineTag : Reading Command := do
  let id ← byte
  let name ← shortText
  modify fun decoder => { decoder with tags := decoder.tags.insert id name }
  return .defineTag id name

/-- A binding of a text value; it replaces an earlier one. -/
def defineText : Reading Command := do
  let id ← word16
  let value ← shortText
  modify fun decoder => { decoder with texts := decoder.texts.insert id value }
  return .defineText id value

/-- What follows a header byte. -/
def payload (code : Code) (width : Width) : Reading Command :=
  match code with
  | .version => version
  | .cycle => .cycle <$> cycleNumber width
  | .startActivity => .startActivity <$> cycleNumber width
  | .newItem => .newItem <$> item width
  | .deleteItem => .deleteItem <$> item width
  | .moveItems => moveItems width
  | .enterNode => residence width .enterNode
  | .exitNode => residence width .exitNode
  | .newNode => newNode width
  | .newEdge => newEdge width
  | .setLayout => setLayout width
  | .itemTagInt => itemTagInt width
  | .itemTagText => itemTagText width
  | .itemTagSet => itemTagSet width
  | .nodeTagInt => nodeTagInt width
  | .nodeTagText => nodeTagText width
  | .nodeTagSet => nodeTagSet width
  | .cycleTagInt => cycleTagInt width
  | .cycleTagText => cycleTagText
  | .cycleTagSet => cycleTagSet width
  | .comment => comment
  | .commentBytes => commentBytes
  | .setInputBandwidth => nodeBandwidth width .setInputBandwidth
  | .setOutputBandwidth => nodeBandwidth width .setOutputBandwidth
  | .describeTag => describeTag
  | .newClock => newClock
  | .setClock => setClock width
  | .clockedCycle => clockedCycle width
  | .defineTag => defineTag
  | .defineText => defineText

/-- The next command. -/
def command : Reading Command := do
  let start := (← get).offset
  let first ← byte
  let number := first &&& (0x3f : UInt8)
  match Code.ofByte? number with
  | none => throw (.unknownCommand number start)
  | some code =>
      if !(← get).versionSeen && code ≠ .version then throw .missingVersion
      payload code (.ofSelector (first >>> (6 : UInt8)))

end Reading

/-! ### Streams -/

/-- What a decoder gives when asked for a command. -/
inductive Outcome where
  | command (command : Command)
  | fault (fault : Fault)
  | finished
deriving DecidableEq, Repr

namespace Decoder

/-- A decoder before the first byte of a stream. -/
def ofBytes (bytes : List UInt8) : Decoder :=
  { rest := bytes }

/-- Asks a decoder for the next command. -/
def next (decoder : Decoder) : Outcome × Decoder :=
  if decoder.failed then (.finished, decoder)
  else if decoder.rest.isEmpty then
    if decoder.versionSeen then (.finished, decoder)
    else (.fault .missingVersion, { decoder with failed := true })
  else
    match Reading.command decoder with
    | .ok command decoder => (.command command, decoder)
    | .error fault decoder => (.fault fault, { decoder with failed := true })

/-- What reading a stream to its end gave. -/
structure Transcript where
  steps : List (Nat × Command)
  fault : Option Fault
  decoder : Decoder

/-- Reads at most `fuel` commands after those already read, latest first. -/
def readFrom (earlier : List (Nat × Command)) : Nat → Decoder → Transcript
  | 0, decoder => ⟨earlier.reverse, none, decoder⟩
  | fuel + 1, decoder =>
      match decoder.next with
      | (.command command, decoder) =>
          readFrom ((decoder.offset, command) :: earlier) fuel decoder
      | (.fault fault, decoder) => ⟨earlier.reverse, some fault, decoder⟩
      | (.finished, decoder) => ⟨earlier.reverse, none, decoder⟩

/-- Reads a stream to its end. Every command takes at least one byte, so there
are at most as many commands as bytes. -/
def transcript (decoder : Decoder) : Transcript :=
  readFrom [] (decoder.rest.length + 1) decoder

end Decoder

/-- The commands of a stream, if all of it can be read. -/
def decode (bytes : List UInt8) : Except Fault (List Command) :=
  let transcript := (Decoder.ofBytes bytes).transcript
  match transcript.fault with
  | some fault => .error fault
  | none => .ok (transcript.steps.map (·.2))

end Wire
end CycleTrace
