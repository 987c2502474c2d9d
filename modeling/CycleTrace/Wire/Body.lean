/-
The bytes of a command.

A command is laid out as a header byte with its code and a width, sometimes a
second byte of small packed fields, then identifiers as differences, counts
and values. The tag name and the text value of a command appear as the
identifiers that the stream has given them; giving them is not the work of
this file.

Counts are written modulo the size of their field while the data they count is
written in full. For a command that fits the wire format both agree.
-/

import CycleTrace.Command
import CycleTrace.Wire.Code
import CycleTrace.Wire.LastIds
import CycleTrace.Wire.Width

namespace CycleTrace
namespace Wire

/-- The width for all coordinates of a position. -/
def positionWidth (position : List UInt32) : Width :=
  Width.covering (position.map (·.toNat))

/-- The width for all elements of a set. -/
def setWidth (values : List UInt64) : Width :=
  Width.covering (values.map (·.toNat))

/-- Coordinates in a given width. -/
def positionBytes (width : Width) (position : List UInt32) : List UInt8 :=
  position.flatMap fun coordinate => width.unsigned coordinate.toNat

/-- Elements of a set in a given width. -/
def setBytes (width : Width) (values : List UInt64) : List UInt8 :=
  values.flatMap fun value => width.unsigned value.toNat

/-- A count in one byte. -/
def countByte (count : Nat) : UInt8 :=
  UInt8.ofNat count

/-- The width for a list of differences: the widest that one of them needs. -/
def deltaWidth (deltas : List Int) : Width :=
  deltas.foldl (fun width delta => width.max (Width.forSigned delta)) .one

/-- The packed byte of an entry or exit: node width, position width, dimensions. -/
def residenceByte (nodeWidth coordinateWidth : Width) (dimensions : Nat) : UInt8 :=
  nodeWidth.selector ||| (coordinateWidth.selector <<< (2 : UInt8))
    ||| (countByte dimensions <<< (4 : UInt8))

/-- The packed byte of a move: edge width, whether positions follow, their width. -/
def moveByte (edgeWidth : Width) (positioned : Bool) (coordinateWidth : Width) : UInt8 :=
  edgeWidth.selector ||| ((if positioned then (4 : UInt8) else 0))
    ||| (coordinateWidth.selector <<< (3 : UInt8))

/-- The packed byte of a node tag: value width, dimensions, position width. -/
def nodeTagByte (valueWidth : Width) (dimensions : Nat) (coordinateWidth : Width) : UInt8 :=
  valueWidth.selector ||| (countByte dimensions <<< (2 : UInt8))
    ||| (coordinateWidth.selector <<< (6 : UInt8))

/-- The first byte of a command. -/
def codeHeader (code : Code) (width : Width) : UInt8 :=
  header code.toByte width

/-- A header followed by an item as a difference. -/
def withItem (last : LastIds) (item : ItemId) (build : Width → List UInt8 → List UInt8) :
    List UInt8 × LastIds :=
  let delta := last.itemDelta item
  let width := Width.forSigned delta
  (build width (width.signed delta), { last with item })

/-- A header followed by a node as a difference. -/
def withNode (last : LastIds) (node : NodeId) (build : Width → List UInt8 → List UInt8) :
    List UInt8 × LastIds :=
  let delta := last.nodeDelta node
  let width := Width.forSigned delta
  (build width (width.signed delta), { last with node })

/-- A header followed by an edge as a difference. -/
def withEdge (last : LastIds) (edge : EdgeId) (build : Width → List UInt8 → List UInt8) :
    List UInt8 × LastIds :=
  let delta := last.edgeDelta edge
  let width := Width.forSigned delta
  (build width (width.signed delta), { last with edge })

/-- The bytes of an entry or exit. -/
def residence (code : Code) (last : LastIds) (node : NodeId) (item : ItemId)
    (position : List UInt32) : List UInt8 × LastIds :=
  let nodeDelta := last.nodeDelta node
  let itemDelta := last.itemDelta item
  let nodeWidth := Width.forSigned nodeDelta
  let itemWidth := Width.forSigned itemDelta
  let coordinateWidth := positionWidth position
  ([codeHeader code itemWidth, residenceByte nodeWidth coordinateWidth position.length]
      ++ nodeWidth.signed nodeDelta ++ itemWidth.signed itemDelta
      ++ positionBytes coordinateWidth position,
    { last with node, item })

/-- The bytes of a move. -/
def move (last : LastIds) (edge : EdgeId) (items : List ItemId) (positions : List UInt32) :
    List UInt8 × LastIds :=
  let edgeDelta := last.edgeDelta edge
  let edgeWidth := Width.forSigned edgeDelta
  let deltas := last.itemDeltas items
  let itemWidth := deltaWidth deltas
  let coordinateWidth := positionWidth positions
  ([codeHeader .moveItems itemWidth, moveByte edgeWidth (!positions.isEmpty) coordinateWidth]
      ++ edgeWidth.signed edgeDelta ++ littleEndian 2 items.length
      ++ deltas.flatMap itemWidth.signed ++ positionBytes coordinateWidth positions,
    { last with edge, item := items.getLastD last.item })

/-- The bytes of an item tag. -/
def itemTag (last : LastIds) (item : ItemId) (tag : UInt8) (text : UInt16) :
    TagValue → List UInt8 × LastIds
  | .int value =>
      let valueWidth := Width.forUnsigned value.toNat
      withItem last item fun width delta =>
        [codeHeader .itemTagInt width, valueWidth.selector, tag] ++ delta
          ++ valueWidth.unsigned value.toNat
  | .text _ =>
      withItem last item fun width delta =>
        [codeHeader .itemTagText width, tag] ++ word16 text ++ delta
  | .set values =>
      let valueWidth := setWidth values
      withItem last item fun width delta =>
        [codeHeader .itemTagSet width, valueWidth.selector, tag, countByte values.length]
          ++ delta ++ setBytes valueWidth values

/-- The bytes of a node tag. -/
def nodeTag (last : LastIds) (node : NodeId) (position : List UInt32) (tag : UInt8)
    (text : UInt16) (value : TagValue) : List UInt8 × LastIds :=
  let coordinateWidth := positionWidth position
  let coordinates := positionBytes coordinateWidth position
  match value with
  | .int value =>
      let valueWidth := Width.forUnsigned value.toNat
      withNode last node fun width delta =>
        [codeHeader .nodeTagInt width, nodeTagByte valueWidth position.length coordinateWidth,
            tag] ++ delta ++ coordinates ++ valueWidth.unsigned value.toNat
  | .text _ =>
      withNode last node fun width delta =>
        [codeHeader .nodeTagText width, nodeTagByte .one position.length coordinateWidth, tag]
          ++ word16 text ++ delta ++ coordinates
  | .set values =>
      let valueWidth := setWidth values
      withNode last node fun width delta =>
        [codeHeader .nodeTagSet width, nodeTagByte valueWidth position.length coordinateWidth,
            tag, countByte values.length] ++ delta ++ coordinates ++ setBytes valueWidth values

/-- The bytes of a cycle tag. -/
def cycleTag (tag : UInt8) (text : UInt16) : TagValue → List UInt8
  | .int value =>
      let valueWidth := Width.forUnsigned value.toNat
      [codeHeader .cycleTagInt valueWidth, tag] ++ valueWidth.unsigned value.toNat
  | .text _ => [codeHeader .cycleTagText .one, tag] ++ word16 text
  | .set values =>
      let valueWidth := setWidth values
      [codeHeader .cycleTagSet valueWidth, tag, countByte values.length]
        ++ setBytes valueWidth values

/-- The bytes of a plain number after its header. -/
def counted (code : Code) (value : UInt64) : List UInt8 :=
  let width := Width.forUnsigned value.toNat
  codeHeader code width :: width.unsigned value.toNat

/-- The definition of a tag name. -/
def tagDefinition (id : UInt8) (name : String) : List UInt8 :=
  [codeHeader .defineTag .one, id] ++ shortBytes (textBytes name)

/-- The definition of a text value. -/
def textDefinition (id : UInt16) (value : String) : List UInt8 :=
  codeHeader .defineText .one :: (word16 id ++ shortBytes (textBytes value))

/-- The bytes of a command and the last identifiers after it, for the given
identifiers of its tag name and text value. -/
def body (last : LastIds) (tag : UInt8) (text : UInt16) : Command → List UInt8 × LastIds
  | .version major minor =>
      (codeHeader .version .one :: (word16 major ++ word16 minor), last)
  | .newNode id name parent instanceNumber =>
      withNode last id fun width delta =>
        [codeHeader .newNode width, if parent.isSome then 1 else 0] ++ delta
          ++ (match parent with
              | some parent => word16 parent
              | none => [])
          ++ word16 instanceNumber ++ shortBytes (textBytes name)
  | .newEdge id source destination bandwidth latency name =>
      withEdge last id fun width delta =>
        codeHeader .newEdge width :: (delta ++ word16 source ++ word16 destination
          ++ word32 bandwidth ++ word32 latency ++ shortBytes (textBytes name))
  | .newItem id => withItem last id fun width delta => codeHeader .newItem width :: delta
  | .deleteItem id => withItem last id fun width delta => codeHeader .deleteItem width :: delta
  | .moveItems edge items positions => move last edge items positions
  | .enterNode node item position => residence .enterNode last node item position
  | .exitNode node item position => residence .exitNode last node item position
  | .setLayout node dimensions =>
      withNode last node fun width delta =>
        [codeHeader .setLayout width, countByte dimensions.length] ++ delta
          ++ dimensions.flatMap word32
  | .tagItem item _ value => itemTag last item tag text value
  | .tagNode node _ value position => nodeTag last node position tag text value
  | .tagCycle _ value => (cycleTag tag text value, last)
  | .describeTag _ description =>
      ([codeHeader .describeTag .one, tag] ++ shortBytes (textBytes description), last)
  | .setInputBandwidth node bandwidth =>
      withNode last node fun width delta =>
        codeHeader .setInputBandwidth width :: (delta ++ word32 bandwidth)
  | .setOutputBandwidth node bandwidth =>
      withNode last node fun width delta =>
        codeHeader .setOutputBandwidth width :: (delta ++ word32 bandwidth)
  | .newClock id frequency skew divisions name =>
      (codeHeader .newClock .one :: (word16 id ++ word64 frequency ++ word16 skew
        ++ word16 divisions ++ shortBytes (textBytes name)), last)
  | .setClock node clock =>
      withNode last node fun width delta =>
        codeHeader .setClock width :: (delta ++ word16 clock)
  | .cycle number => (counted .cycle number, last)
  | .clockedCycle ⟨clock, number, phase⟩ =>
      let width := Width.forUnsigned number.toNat
      (codeHeader .clockedCycle width :: (word16 clock ++ [phase.toByte]
        ++ width.unsigned number.toNat), last)
  | .comment magic text =>
      (codeHeader .comment .one :: (word32 magic ++ longBytes (textBytes text)), last)
  | .commentBytes magic data =>
      (codeHeader .commentBytes .one :: (word32 magic ++ longBytes data), last)
  | .startActivity number => (counted .startActivity number, last)
  | .defineTag id name => (tagDefinition id name, last)
  | .defineText id value => (textDefinition id value, last)

end Wire
end CycleTrace
