/-
Command codes.

The low six bits of the first byte of a command hold its code. Thirty codes
are in use; a tag command has one code for each kind of value.
-/

namespace CycleTrace
namespace Wire

/-- What a command of a binary stream is, as told by its first byte. -/
inductive Code where
  | cycle
  | newItem
  | moveItems
  | deleteItem
  | enterNode
  | exitNode
  | newNode
  | newEdge
  | setLayout
  | itemTagInt
  | itemTagText
  | itemTagSet
  | nodeTagInt
  | nodeTagText
  | nodeTagSet
  | cycleTagInt
  | cycleTagText
  | cycleTagSet
  | comment
  | commentBytes
  | setInputBandwidth
  | setOutputBandwidth
  | describeTag
  | newClock
  | setClock
  | clockedCycle
  | startActivity
  | defineTag
  | defineText
  | version
deriving DecidableEq, Repr

namespace Code

/-- The codes in the order of their numbers. -/
def all : List Code :=
  [cycle, newItem, moveItems, deleteItem, enterNode, exitNode, newNode, newEdge, setLayout,
    itemTagInt, itemTagText, itemTagSet, nodeTagInt, nodeTagText, nodeTagSet, cycleTagInt,
    cycleTagText, cycleTagSet, comment, commentBytes, setInputBandwidth, setOutputBandwidth,
    describeTag, newClock, setClock, clockedCycle, startActivity, defineTag, defineText, version]

/-- The number of a code. -/
def toByte (code : Code) : UInt8 :=
  UInt8.ofNat (all.idxOf code)

/-- The code with a given number. -/
def ofByte? (byte : UInt8) : Option Code :=
  all[byte.toNat]?

theorem ofByte?_toByte (code : Code) : ofByte? code.toByte = some code := by
  cases code <;> rfl

end Code
end Wire
end CycleTrace
