/-
The simulated machine, as far as it has been reported.

This file holds what is known of the machine and the checks that a report must
pass. A check is put to the machine as it is: it grants what it was asked for
or it fails. What a report does between and after its checks is told in the
module on reports.
-/

import CycleTrace.Recording.Event
import CycleTrace.Recording.Occupancy
import CycleTrace.Recording.TagMemory
import CycleTrace.Recording.Traffic
import CycleTrace.Structure.InstanceNumbers
import CycleTrace.Structure.Topology

namespace CycleTrace
namespace Recording

open Structure (Topology InstanceNumbers NodeDeclaration)

/-- What is known about the simulated machine. Traffic is counted only where
it is asked for. -/
structure Machine where
  topology : Topology := {}
  instances : InstanceNumbers := {}
  occupancy : OccupancyTable := {}
  traffic : Option Traffic := none
  tagMemory : TagMemory := {}
  nextItem : ItemId := 1
  currentCycle : UInt64 := 0
  lastClockedCycle : Option ClockedCycle := none
  archive : Option (List UInt8) := none

/-- Checks that an identifier names an item. -/
def checkItem (item : ItemId) : Except Fault Unit :=
  if item = noItem then .error .invalidItem else .ok ()

/-- Checks that a comment does not pass for an archive. -/
def checkMagic (magic : UInt32) : Except Fault Unit :=
  if magic = archiveMagic then .error (.reservedMagic magic) else .ok ()

namespace Machine

/-- The instance number of a new node. -/
def instanceNumber (machine : Machine) (declaration : NodeDeclaration) : UInt16 :=
  match declaration.instanceChoice with
  | .fixed number => number
  | .next => machine.instances.next declaration.name

/-- The identifier after an item; 0 is passed over. -/
def itemAfter (item : ItemId) : ItemId :=
  if item + 1 = noItem then 1 else item + 1

/-- Checks a group of items that moves over an edge: not too many, each with a
position or none with one, positions below the bandwidth, no item 0. -/
def checkMove (machine : Machine) (id : EdgeId) (items : List ItemId)
    (positions : List UInt32) : Except Fault Unit := do
  let edge ← machine.topology.edge id
  if items.length > Limits.movedItems then throw (.invalidMove id .tooManyItems)
  if !positions.isEmpty && positions.length ≠ items.length then
    throw (.invalidMove id .unpairedPositions)
  if positions.any fun position => edge.bandwidth ≤ position then
    throw (.invalidMove id .positionBeyondBandwidth)
  if items.contains noItem then throw .invalidItem

/-- Checks a tag name and a value. -/
def checkTag (tag : String) (value : TagValue) : Except Fault Unit := do
  checkTagName tag
  value.check

/-- Whether a node belongs to a clock domain. -/
def inDomain (machine : Machine) (clock : ClockId) (id : NodeId) : Bool :=
  match machine.topology.nodes[id]? with
  | some node => node.clock == clock
  | none => clock == defaultClock

/-- The exits of items that left slots at the end of a cycle. -/
def departureDispatches (departures : List (NodeId × Departure)) : List Dispatch :=
  departures.map fun (node, departure) =>
    ⟨.exitNode node departure.item departure.position, departure.persistent, true⟩

end Machine
end Recording
end CycleTrace
