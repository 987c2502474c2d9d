/-
Plans of reports.

A plan says at once what a report comes to: the commands to dispatch, the reply
and the machine after the report. `Machine.plan` finds it from the machine as it
is, or finds the fault. A plan depends on where its commands go only through the
question whether a command is kept, that is, written to the output or stored for
replay.

A report does its work in steps, and a plan has no steps. That they come to the
same is shown where plans are carried out.
-/

import CycleTrace.Recording.Machine

namespace CycleTrace
namespace Recording

open Structure (Node NodeDeclaration EdgeDeclaration ClockDeclaration)

/-- The circumstances of an event. -/
structure Circumstances where
  recording : Bool
  persistent : Bool
  suppressRepeatedTags : Bool
deriving DecidableEq, Repr

/-- Whether a command of the event is written or stored, and not dropped. -/
def Circumstances.kept (circumstances : Circumstances) : Bool :=
  circumstances.recording || circumstances.persistent

/-- What an accepted event leads to. -/
structure Plan where
  machine : Machine
  dispatches : List Dispatch := []
  reply : Reply := .done
  suppressedTags : Nat := 0

namespace Machine

/-! ### Structure -/

def newNode (machine : Machine) (persistent : Bool) (declaration : NodeDeclaration)
    (id? : Option NodeId) : Except Fault Plan := do
  let id ← machine.topology.checkNode declaration id?
  let number := machine.instanceNumber declaration
  return {
    machine := { machine with
      topology := machine.topology.insertNode id declaration number id?.isSome
      instances := machine.instances.record declaration.name number }
    dispatches := [⟨.newNode id declaration.name declaration.parent number, persistent, false⟩]
    reply := .node id }

def newEdge (machine : Machine) (persistent : Bool) (declaration : EdgeDeclaration)
    (id? : Option EdgeId) : Except Fault Plan := do
  let id ← machine.topology.checkEdge declaration id?
  let { source, destination, name, bandwidth, latency } := declaration
  return {
    machine := { machine with
      topology := machine.topology.insertEdge id declaration id?.isSome }
    dispatches := [⟨.newEdge id source destination bandwidth latency name, persistent, false⟩]
    reply := .edge id }

def newClock (machine : Machine) (persistent : Bool) (declaration : ClockDeclaration) :
    Except Fault Plan := do
  let id ← machine.topology.checkClock declaration
  let { frequency, name, skew, divisions } := declaration
  return {
    machine := { machine with topology := machine.topology.insertClock id declaration }
    dispatches := [⟨.newClock id frequency skew divisions name, persistent, false⟩]
    reply := .clock id }

def setLayout (machine : Machine) (persistent : Bool) (id : NodeId) (dimensions : List UInt32) :
    Except Fault Plan := do
  let layout ← machine.topology.checkLayout id dimensions
  let node ← machine.topology.node id
  return {
    machine := { machine with
      topology := machine.topology.modifyNode id ({ · with layout := some layout })
      occupancy :=
        if node.autoflush then machine.occupancy.register id layout node.relaxed
        else machine.occupancy }
    dispatches := [⟨.setLayout id dimensions, persistent, false⟩] }

def setClock (machine : Machine) (persistent : Bool) (id : NodeId) (clock : ClockId) :
    Except Fault Plan := do
  machine.topology.requireNode id
  machine.topology.requireClock clock
  return {
    machine := { machine with topology := machine.topology.modifyNode id ({ · with clock }) }
    dispatches := [⟨.setClock id clock, persistent, false⟩] }

/-- A bandwidth of a node, which the command tells and the change notes. -/
def setBandwidth (machine : Machine) (persistent : Bool) (id : NodeId) (command : Command)
    (change : Node → Node) : Except Fault Plan := do
  machine.topology.requireNode id
  return {
    machine := { machine with topology := machine.topology.modifyNode id change }
    dispatches := [⟨command, persistent, false⟩] }

/-! ### Items -/

def newItem (machine : Machine) (persistent : Bool) : Option ItemId → Except Fault Plan
  | none =>
      let id := machine.nextItem
      .ok {
        machine := { machine with nextItem := itemAfter id }
        dispatches := [⟨.newItem id, persistent, false⟩]
        reply := .item id }
  | some id => do
      checkItem id
      return { machine, dispatches := [⟨.newItem id, persistent, false⟩] }

def deleteItem (machine : Machine) (persistent : Bool) (item : ItemId) : Except Fault Plan := do
  checkItem item
  return { machine, dispatches := [⟨.deleteItem item, persistent, false⟩] }

def moveItems (machine : Machine) (persistent : Bool) (edge : EdgeId) (items : List ItemId)
    (positions : List UInt32) : Except Fault Plan := do
  machine.checkMove edge items positions
  if items.isEmpty then return { machine }
  return {
    machine := { machine with traffic := machine.traffic.map (·.add edge items.length) }
    dispatches := [⟨.moveItems edge items positions, persistent, false⟩] }

/-! ### Occupants -/

/-- The commands for an entry into a slot that is watched. -/
def arrivalDispatches (arrival : Arrival) (persistent : Bool) (node : NodeId) (item : ItemId)
    (position : List UInt32) : List Dispatch :=
  match arrival with
  | .stays => []
  | .enters => [⟨.enterNode node item position, persistent, false⟩]
  | .replaces evicted evictedPersistent =>
      [⟨.exitNode node evicted position, evictedPersistent, true⟩,
        ⟨.enterNode node item position, persistent, false⟩]

/-- An item enters a node. In a slot that is watched, an item that is there
already is not entered again, and another item leaves it first. -/
def enterNode (machine : Machine) (circumstances : Circumstances) (node : NodeId)
    (item : ItemId) (position : List UInt32) : Except Fault Plan := do
  checkItem item
  machine.topology.checkPosition node position
  let persistent := circumstances.persistent
  match machine.occupancy.get? node with
  | none => return { machine, dispatches := [⟨.enterNode node item position, persistent, false⟩] }
  | some occupancy =>
      let slot := occupancy.layout.flatten position
      let arrival := occupancy.arrival slot item
      let announced := arrival == .stays || circumstances.kept
      return {
        machine := { machine with
          occupancy := machine.occupancy.modify node
            (·.enter slot { item, persistent, announced }) }
        dispatches := arrivalDispatches arrival persistent node item position }

def exitNode (machine : Machine) (persistent : Bool) (node : NodeId) (item : ItemId)
    (position : List UInt32) : Except Fault Plan := do
  checkItem item
  machine.topology.checkPosition node position
  let dispatches : List Dispatch := [⟨.exitNode node item position, persistent, false⟩]
  match machine.occupancy.get? node with
  | none => return { machine, dispatches }
  | some occupancy =>
      let slot := occupancy.layout.flatten position
      occupancy.checkExit node slot item
      return {
        machine := { machine with occupancy := machine.occupancy.modify node (·.vacate slot) }
        dispatches }

/-! ### Tags -/

/-- A tag of a whole node. A value that repeats the last kept one is left out. -/
def tagNode (machine : Machine) (circumstances : Circumstances) (node : NodeId) (tag : String)
    (value : TagValue) : Except Fault Plan := do
  checkTag tag value
  machine.topology.requireNode node
  if circumstances.suppressRepeatedTags && machine.tagMemory.repeats node tag value then
    return { machine, suppressedTags := 1 }
  return {
    machine :=
      if circumstances.kept && circumstances.suppressRepeatedTags then
        { machine with tagMemory := machine.tagMemory.update node tag value }
      else machine
    dispatches := [⟨.tagNode node tag value [], circumstances.persistent, false⟩] }

def tagSlot (machine : Machine) (persistent : Bool) (node : NodeId) (position : List UInt32)
    (tag : String) (value : TagValue) : Except Fault Plan := do
  checkTag tag value
  machine.topology.checkPosition node position
  return { machine, dispatches := [⟨.tagNode node tag value position, persistent, false⟩] }

def tagItem (machine : Machine) (persistent : Bool) (item : ItemId) (tag : String)
    (value : TagValue) : Except Fault Plan := do
  checkItem item
  checkTag tag value
  return { machine, dispatches := [⟨.tagItem item tag value, persistent, false⟩] }

def tagCycle (machine : Machine) (persistent : Bool) (tag : String) (value : TagValue) :
    Except Fault Plan := do
  checkTag tag value
  return { machine, dispatches := [⟨.tagCycle tag value, persistent, false⟩] }

def describeTag (machine : Machine) (persistent : Bool) (tag description : String) :
    Except Fault Plan := do
  checkTagName tag
  checkDescription description
  return { machine, dispatches := [⟨.describeTag tag description, persistent, false⟩] }

/-! ### Cycles -/

/-- Ends the cycle under way on the accepted nodes and starts another one. -/
def beginCycle (machine : Machine) (persistent : Bool) (accepts : NodeId → Bool)
    (command : Command) (number : UInt64) : Plan :=
  let (departures, occupancy) := machine.occupancy.endCycle accepts
  { machine := { machine with
      occupancy
      traffic := machine.traffic.map (·.endCycle)
      currentCycle := number }
    dispatches := departureDispatches departures ++ [⟨command, persistent, false⟩] }

def cycle (machine : Machine) (persistent : Bool) (number : UInt64) : Plan :=
  machine.beginCycle persistent (fun _ => true) (.cycle number) number

def clockedCycle (machine : Machine) (persistent : Bool) (cycle : ClockedCycle) :
    Except Fault Plan := do
  machine.topology.requireClock cycle.clock
  if machine.lastClockedCycle = some cycle then return { machine }
  let plan := machine.beginCycle persistent (machine.inDomain cycle.clock) (.clockedCycle cycle)
    cycle.cycle
  return { plan with machine := { plan.machine with lastClockedCycle := some cycle } }

/-! ### Comments -/

def comment (machine : Machine) (persistent : Bool) (magic : UInt32) (command : Command) :
    Except Fault Plan := do
  checkMagic magic
  return { machine, dispatches := [⟨command, persistent, false⟩] }

/-- The first cycle of interest. An archive that is waiting goes before it. -/
def startActivity (machine : Machine) (persistent : Bool) (cycle : UInt64) : Plan :=
  let archive : List Dispatch :=
    match machine.archive with
    | some data => [⟨.commentBytes archiveMagic data, persistent, false⟩]
    | none => []
  { machine := { machine with archive := none }
    dispatches := archive ++ [⟨.startActivity cycle, persistent, false⟩] }

/-! ### All events -/

/-- What an event leads to. -/
def plan (machine : Machine) (circumstances : Circumstances) (event : Event) :
    Except Fault Plan :=
  let persistent := circumstances.persistent
  match event with
  | .newNode declaration id => machine.newNode persistent declaration id
  | .newEdge declaration id => machine.newEdge persistent declaration id
  | .newClock declaration => machine.newClock persistent declaration
  | .setLayout node dimensions => machine.setLayout persistent node dimensions
  | .setClock node clock => machine.setClock persistent node clock
  | .setInputBandwidth node bandwidth =>
      machine.setBandwidth persistent node (.setInputBandwidth node bandwidth)
        ({ · with inputBandwidth := some bandwidth })
  | .setOutputBandwidth node bandwidth =>
      machine.setBandwidth persistent node (.setOutputBandwidth node bandwidth)
        ({ · with outputBandwidth := some bandwidth })
  | .newItem id => machine.newItem persistent id
  | .deleteItem item => machine.deleteItem persistent item
  | .moveItems edge items positions => machine.moveItems persistent edge items positions
  | .enterNode node item position => machine.enterNode circumstances node item position
  | .exitNode node item position => machine.exitNode persistent node item position
  | .tagNode node tag value => machine.tagNode circumstances node tag value
  | .tagSlot node position tag value => machine.tagSlot persistent node position tag value
  | .tagItem item tag value => machine.tagItem persistent item tag value
  | .tagCycle tag value => machine.tagCycle persistent tag value
  | .describeTag tag description => machine.describeTag persistent tag description
  | .cycle number => .ok (machine.cycle persistent number)
  | .clockedCycle cycle => machine.clockedCycle persistent cycle
  | .comment magic text => machine.comment persistent magic (.comment magic text)
  | .commentBytes magic data => machine.comment persistent magic (.commentBytes magic data)
  | .startActivity cycle => .ok (machine.startActivity persistent cycle)

end Machine
end Recording
end CycleTrace
