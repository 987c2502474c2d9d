/-
The structure of a simulated machine: nodes, edges and clock domains.

Identifiers are chosen by the caller or by the topology. The topology takes
the first free one at or after a counter, which then stands behind it. The
counters for nodes and edges start at 0, the one for clocks at 1, because clock
0 needs no declaration.

Checking a declaration resolves its identifier and changes nothing; inserting
relies on the check. Nothing is ever removed.
-/

import Std.Data.TreeMap
import CycleTrace.Structure.Declaration
import CycleTrace.Structure.Layout

namespace CycleTrace
namespace Structure

/-- A node and what is known about it. -/
structure Node where
  name : String
  parent : Option NodeId
  instanceNumber : UInt16
  layout : Option Layout := none
  clock : ClockId := defaultClock
  autoflush : Bool
  relaxed : Bool
  inputBandwidth : Option UInt32 := none
  outputBandwidth : Option UInt32 := none
deriving DecidableEq, Repr

/-- An edge. -/
structure Edge where
  name : String
  source : NodeId
  destination : NodeId
  bandwidth : UInt32
  latency : UInt32
deriving DecidableEq, Repr

/-- A clock domain. -/
structure Clock where
  name : String
  frequency : UInt64
  skew : UInt16
  divisions : UInt16
deriving DecidableEq, Repr

/-- All nodes, edges and clock domains, and the counters for new identifiers. -/
structure Topology where
  nodes : Std.TreeMap NodeId Node := {}
  edges : Std.TreeMap EdgeId Edge := {}
  clocks : Std.TreeMap ClockId Clock := {}
  nextNode : Nat := 0
  nextEdge : Nat := 0
  nextClock : Nat := 1

/-- The first identifier at or after a counter that is not taken. -/
def firstFree? (taken : UInt16 → Bool) (counter : Nat) : Option UInt16 :=
  if counter < 65536 then
    let id := UInt16.ofNat counter
    if taken id then firstFree? taken (counter + 1) else some id
  else none
termination_by 65536 - counter

namespace Topology

/-! ### Queries -/

/-- A node that must exist. -/
def node (topology : Topology) (id : NodeId) : Except Fault Node :=
  match topology.nodes[id]? with
  | some node => .ok node
  | none => .error (.nodeNotFound id)

/-- An edge that must exist. -/
def edge (topology : Topology) (id : EdgeId) : Except Fault Edge :=
  match topology.edges[id]? with
  | some edge => .ok edge
  | none => .error (.edgeNotFound id)

/-- Whether an identifier names a clock domain. -/
def hasClock (topology : Topology) (id : ClockId) : Bool :=
  id == defaultClock || topology.clocks.contains id

/-- A clock domain that must exist. -/
def requireClock (topology : Topology) (id : ClockId) : Except Fault Unit :=
  if topology.hasClock id then .ok () else .error (.clockNotFound id)

/-- A node that must exist, by its identifier alone. -/
def requireNode (topology : Topology) (id : NodeId) : Except Fault Unit :=
  if topology.nodes.contains id then .ok () else .error (.nodeNotFound id)

/-! ### Checks -/

/-- Checks a node and gives the identifier it would have. -/
def checkNode (topology : Topology) (declaration : NodeDeclaration) (id? : Option NodeId) :
    Except Fault NodeId := do
  declaration.check
  if let some parent := declaration.parent then topology.requireNode parent
  match id? with
  | some id => if topology.nodes.contains id then throw (.duplicateNode id) else return id
  | none =>
      match firstFree? topology.nodes.contains topology.nextNode with
      | some id => return id
      | none => throw (.idSpaceExhausted .node)

/-- Checks an edge and gives the identifier it would have. -/
def checkEdge (topology : Topology) (declaration : EdgeDeclaration) (id? : Option EdgeId) :
    Except Fault EdgeId := do
  declaration.check
  topology.requireNode declaration.source
  topology.requireNode declaration.destination
  match id? with
  | some id => if topology.edges.contains id then throw (.duplicateEdge id) else return id
  | none =>
      match firstFree? topology.edges.contains topology.nextEdge with
      | some id => return id
      | none => throw (.idSpaceExhausted .edge)

/-- Checks a clock domain and gives the identifier it would have. -/
def checkClock (topology : Topology) (declaration : ClockDeclaration) : Except Fault ClockId := do
  declaration.check
  match firstFree? topology.hasClock topology.nextClock with
  | some id => return id
  | none => throw (.idSpaceExhausted .clock)

/-- Checks a layout for a node that has none and builds it. -/
def checkLayout (topology : Topology) (id : NodeId) (dimensions : List UInt32) :
    Except Fault Layout := do
  let node ← topology.node id
  if node.layout.isSome then throw (.layoutAlreadySet id)
  Layout.ofDimensions id dimensions

/-- Checks a position on a node. Without a layout any position of few enough
dimensions will do, but an autoflush node needs a layout first. -/
def checkPosition (topology : Topology) (id : NodeId) (position : List UInt32) :
    Except Fault Unit := do
  let node ← topology.node id
  match node.layout with
  | some layout => layout.checkPosition id position
  | none =>
      if node.autoflush then throw (.missingLayout id)
      if position.length > Limits.dimensions then
        throw (.tooManyDimensions position.length Limits.dimensions)

/-! ### Changes -/

/-- Adds a checked node; an identifier chosen by the topology moves the counter. -/
def insertNode (topology : Topology) (id : NodeId) (declaration : NodeDeclaration)
    (instanceNumber : UInt16) (chosenByCaller : Bool) : Topology :=
  { topology with
    nodes := topology.nodes.insert id
      { name := declaration.name
        parent := declaration.parent
        instanceNumber
        autoflush := declaration.autoflush
        relaxed := declaration.relaxed }
    nextNode := if chosenByCaller then topology.nextNode else id.toNat + 1 }

/-- Adds a checked edge; an identifier chosen by the topology moves the counter. -/
def insertEdge (topology : Topology) (id : EdgeId) (declaration : EdgeDeclaration)
    (chosenByCaller : Bool) : Topology :=
  { topology with
    edges := topology.edges.insert id
      { name := declaration.name
        source := declaration.source
        destination := declaration.destination
        bandwidth := declaration.bandwidth
        latency := declaration.latency }
    nextEdge := if chosenByCaller then topology.nextEdge else id.toNat + 1 }

/-- Adds a clock domain and puts the counter behind it. -/
def insertClock (topology : Topology) (id : ClockId) (declaration : ClockDeclaration) :
    Topology :=
  { topology with
    clocks := topology.clocks.insert id
      { name := declaration.name
        frequency := declaration.frequency
        skew := declaration.skew
        divisions := declaration.divisions }
    nextClock := id.toNat + 1 }

/-- Changes what is known about a node. -/
def modifyNode (topology : Topology) (id : NodeId) (change : Node → Node) : Topology :=
  { topology with nodes := topology.nodes.modify id change }

end Topology
end Structure
end CycleTrace
