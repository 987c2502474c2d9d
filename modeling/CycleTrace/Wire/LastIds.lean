/-
Identifiers as differences.

A stream names an item, node or edge by its difference from the last one of
the same kind. The encoder and the decoder keep the same last identifiers, all
zero when a stream starts. Differences of items wrap modulo `2 ^ 32`, so they
always fit a signed word of four bytes; differences of nodes and edges are
exact. A difference read from a stream may be of any size and is reduced
modulo the size of the identifier.
-/

import CycleTrace.Limits

namespace CycleTrace
namespace Wire

/-- The last item, node and edge named in a stream. -/
structure LastIds where
  item : ItemId := 0
  node : NodeId := 0
  edge : EdgeId := 0
deriving DecidableEq, Repr

/-- The difference that leads from one item to another. -/
def itemStep (previous next : ItemId) : Int :=
  Int.bmod (next.toNat - previous.toNat) UInt32.size

namespace LastIds

/-- The difference that leads from the last item to `id`. -/
def itemDelta (last : LastIds) (id : ItemId) : Int :=
  itemStep last.item id

/-- The differences that lead from the last item through a list of items. -/
def itemDeltas (last : LastIds) (items : List ItemId) : List Int :=
  List.zipWith itemStep (last.item :: items) items

/-- The difference that leads from the last node to `id`. -/
def nodeDelta (last : LastIds) (id : NodeId) : Int :=
  id.toNat - last.node.toNat

/-- The difference that leads from the last edge to `id`. -/
def edgeDelta (last : LastIds) (id : EdgeId) : Int :=
  id.toNat - last.edge.toNat

/-- The item a difference leads to. -/
def itemAt (last : LastIds) (delta : Int) : ItemId :=
  UInt32.ofInt (last.item.toNat + delta)

/-- The node a difference leads to. -/
def nodeAt (last : LastIds) (delta : Int) : NodeId :=
  UInt16.ofInt (last.node.toNat + delta)

/-- The edge a difference leads to. -/
def edgeAt (last : LastIds) (delta : Int) : EdgeId :=
  UInt16.ofInt (last.edge.toNat + delta)

end LastIds
end Wire
end CycleTrace
