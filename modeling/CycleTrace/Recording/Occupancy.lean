/-
Occupants of autoflush nodes.

The occupants of an autoflush node are entered again in every cycle. A slot
that was entered in one cycle and not in the next is vacated at the end of that
next cycle: its occupant departs without a request. Two sets of slots tell
which were entered in the cycle before and in the cycle under way; together
they are the occupied slots.

An occupant also remembers whether its entry is known to the current output,
that is, whether it was written to it or is kept for replay. An occupant the
output does not know is announced when it enters again and departs silently.
-/

import Std.Data.TreeMap
import Std.Data.TreeSet
import CycleTrace.Structure.Layout

namespace CycleTrace
namespace Recording

open Structure (Layout)

/-- What the entry of an item into a slot means. -/
inductive Arrival where
  | enters
  | stays
  | replaces (evicted : ItemId) (persistent : Bool)
deriving DecidableEq, Repr

/-- An item in a slot. -/
structure Occupant where
  item : ItemId
  persistent : Bool
  announced : Bool
deriving DecidableEq, Repr

/-- An item that leaves a slot at the end of a cycle. -/
structure Departure where
  item : ItemId
  position : List UInt32
  persistent : Bool
deriving DecidableEq, Repr

/-- The slots of one autoflush node. -/
structure Occupancy where
  layout : Layout
  relaxed : Bool
  contents : Std.TreeMap UInt64 Occupant := {}
  previous : Std.TreeSet UInt64 := {}
  current : Std.TreeSet UInt64 := {}

namespace Occupancy

/-- The item in a slot. -/
def occupant? (occupancy : Occupancy) (slot : UInt64) : Option ItemId :=
  occupancy.contents[slot]?.map (·.item)

/-- What an entry would mean. -/
def arrival (occupancy : Occupancy) (slot : UInt64) (item : ItemId) : Arrival :=
  match occupancy.contents[slot]? with
  | none => .enters
  | some occupant =>
      if !occupant.announced then .enters
      else if occupant.item = item then .stays
      else .replaces occupant.item occupant.persistent

/-- Puts an item into a slot during the cycle under way. -/
def enter (occupancy : Occupancy) (slot : UInt64) (occupant : Occupant) : Occupancy :=
  { occupancy with
    contents := occupancy.contents.insert slot occupant
    current := occupancy.current.insert slot }

/-- Checks that an item may leave a slot by request. -/
def checkExit (occupancy : Occupancy) (node : NodeId) (slot : UInt64) (item : ItemId) :
    Except Fault Unit :=
  if !occupancy.relaxed then .error (.exitOnAutoflush node)
  else if occupancy.occupant? slot = some item then .ok ()
  else .error (.exitMismatch node item ((occupancy.occupant? slot).getD noItem))

/-- Empties a slot. -/
def vacate (occupancy : Occupancy) (slot : UInt64) : Occupancy :=
  { occupancy with
    contents := occupancy.contents.erase slot
    previous := occupancy.previous.erase slot
    current := occupancy.current.erase slot }

/-- A new output knows the persistent occupants from the replay, and no others. -/
def forgetOutput (occupancy : Occupancy) : Occupancy :=
  { occupancy with
    contents := occupancy.contents.map fun _ occupant =>
      { occupant with announced := occupant.announced && occupant.persistent } }

/-- The slots entered in the cycle before and not in the cycle under way, in
ascending order. -/
def staleSlots (occupancy : Occupancy) : List UInt64 :=
  occupancy.previous.toList.filter fun slot => !occupancy.current.contains slot

/-- The departure of the occupant of a slot, if the output knows it. -/
def departure? (occupancy : Occupancy) (slot : UInt64) : Option Departure :=
  match occupancy.contents[slot]? with
  | some { item, persistent, announced := true } =>
      some { item, position := occupancy.layout.unflatten slot, persistent }
  | _ => none

/-- Ends a cycle: vacates the stale slots and starts a new generation. -/
def endCycle (occupancy : Occupancy) : List Departure × Occupancy :=
  let stale := occupancy.staleSlots
  (stale.filterMap occupancy.departure?,
    { occupancy with
      contents := stale.foldl (fun contents slot => contents.erase slot) occupancy.contents
      previous := occupancy.current
      current := {} })

end Occupancy

/-- The autoflush nodes that have a layout. -/
structure OccupancyTable where
  nodes : Std.TreeMap NodeId Occupancy := {}

namespace OccupancyTable

/-- Starts tracking a node. -/
def register (table : OccupancyTable) (node : NodeId) (layout : Layout) (relaxed : Bool) :
    OccupancyTable :=
  { nodes := table.nodes.insert node { layout, relaxed } }

/-- The slots of a node, if it is tracked. -/
def get? (table : OccupancyTable) (node : NodeId) : Option Occupancy :=
  table.nodes[node]?

/-- Changes the slots of a node. -/
def modify (table : OccupancyTable) (node : NodeId) (change : Occupancy → Occupancy) :
    OccupancyTable :=
  { nodes := table.nodes.modify node change }

/-- Prepares every node for a new output. -/
def forgetOutput (table : OccupancyTable) : OccupancyTable :=
  { nodes := table.nodes.map fun _ occupancy => occupancy.forgetOutput }

/-- Ends a cycle on the accepted nodes. Departures come in ascending order of
nodes and, on a node, of slots. -/
def endCycle (table : OccupancyTable) (accepts : NodeId → Bool) :
    List (NodeId × Departure) × OccupancyTable :=
  (table.nodes.toList.flatMap fun (node, occupancy) =>
      if accepts node then occupancy.endCycle.1.map (node, ·) else [],
    { nodes := table.nodes.map fun node occupancy =>
        if accepts node then occupancy.endCycle.2 else occupancy })

end OccupancyTable
end Recording
end CycleTrace
