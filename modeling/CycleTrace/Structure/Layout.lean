/-
Layouts of nodes.

A layout gives the size of each dimension of a node, such as four banks of two
ways. A position has one coordinate per dimension, and the slots of a node are
its positions in row-major order. Slot numbers are 64-bit words; a layout has
few enough slots for that.
-/

import CycleTrace.Fault

namespace CycleTrace
namespace Structure

/-- The sizes of the dimensions of a node and the number of its slots. -/
structure Layout where
  dimensions : List UInt32
  capacity : UInt64
deriving DecidableEq, Repr

namespace Layout

/-- The number of positions with the given sizes. -/
def slotCount (dimensions : List UInt32) : Nat :=
  dimensions.foldl (fun count size => count * size.toNat) 1

/-- The layout with the given sizes: one to fifteen dimensions, none of them
empty, and fewer than `2 ^ 64` slots. -/
def ofDimensions (node : NodeId) (dimensions : List UInt32) : Except Fault Layout :=
  if dimensions.length > Limits.dimensions then
    .error (.tooManyDimensions dimensions.length Limits.dimensions)
  else if dimensions.isEmpty || dimensions.contains 0 then .error (.invalidLayout node)
  else if UInt64.size ≤ slotCount dimensions then .error (.invalidLayout node)
  else .ok { dimensions, capacity := UInt64.ofNat (slotCount dimensions) }

/-- Checks the coordinates from a dimension on. -/
def checkCoordinates (node : NodeId) (dimension : Nat) :
    (position dimensions : List UInt32) → Except Fault Unit
  | coordinate :: position, size :: dimensions =>
      if size ≤ coordinate then .error (.positionOutOfRange node dimension coordinate size)
      else checkCoordinates node (dimension + 1) position dimensions
  | _, _ => .ok ()

/-- Checks that a position is one of this layout. -/
def checkPosition (layout : Layout) (node : NodeId) (position : List UInt32) :
    Except Fault Unit :=
  if position.length ≠ layout.dimensions.length then
    .error (.dimensionMismatch node layout.dimensions.length position.length)
  else checkCoordinates node 0 position layout.dimensions

/-- The slot of a position. -/
def flatten (layout : Layout) (position : List UInt32) : UInt64 :=
  (position.zip layout.dimensions).foldl
    (fun slot pair => slot * pair.2.toUInt64 + pair.1.toUInt64) 0

/-- The last coordinates of a slot, and the slot among the coordinates before them. -/
def splitSlot (slot : UInt64) : List UInt32 → UInt64 × List UInt32
  | [] => (slot, [])
  | size :: dimensions =>
      let (slot, position) := splitSlot slot dimensions
      (slot / size.toUInt64, (slot % size.toUInt64).toUInt32 :: position)

/-- The position of a slot. -/
def unflatten (layout : Layout) (slot : UInt64) : List UInt32 :=
  (splitSlot slot layout.dimensions).2

end Layout
end Structure
end CycleTrace
