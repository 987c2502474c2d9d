/-
What a report does.

Every event has an operation, and the operation takes its steps in order: it
puts its checks to the machine, dispatches commands, and then notes what the
report tells. Some operations do these things in turns. The exits that the end
of a cycle synthesizes are dispatched after their slots were vacated and before
the cycle is; an entry is noted with what became of its command; and the node
that a report revises is looked up once more after the dispatch.

Nothing is undone when a check fails. That a report which fails has done
nothing is a matter of the order of its steps.
-/

import CycleTrace.Recording.Dispatching

namespace CycleTrace
namespace Recording

open Structure (Node NodeDeclaration EdgeDeclaration ClockDeclaration)

variable [Lz4.Codec]

namespace Recorder

/-- Goes on with what a check grants. -/
def ensure : Except Fault α → Action α
  | .ok value => pure value
  | .error fault => throw fault

/-! ### Structure -/

/-- A new node, with the instance number it asks for or the next one of its name. -/
def newNode (persistent : Bool) (declaration : NodeDeclaration) (id? : Option NodeId) :
    Action Reply := do
  let machine := (← get).machine
  let id ← ensure (machine.topology.checkNode declaration id?)
  let number := machine.instanceNumber declaration
  dispatch ⟨.newNode id declaration.name declaration.parent number, persistent, false⟩
  modifyMachine fun machine => { machine with
    topology := machine.topology.insertNode id declaration number id?.isSome }
  modifyMachine fun machine => { machine with
    instances := machine.instances.record declaration.name number }
  return .node id

def newEdge (persistent : Bool) (declaration : EdgeDeclaration) (id? : Option EdgeId) :
    Action Reply := do
  let id ← ensure ((← get).machine.topology.checkEdge declaration id?)
  let { source, destination, name, bandwidth, latency } := declaration
  dispatch ⟨.newEdge id source destination bandwidth latency name, persistent, false⟩
  modifyMachine fun machine => { machine with
    topology := machine.topology.insertEdge id declaration id?.isSome }
  return .edge id

def newClock (persistent : Bool) (declaration : ClockDeclaration) : Action Reply := do
  let id ← ensure ((← get).machine.topology.checkClock declaration)
  let { frequency, name, skew, divisions } := declaration
  dispatch ⟨.newClock id frequency skew divisions name, persistent, false⟩
  modifyMachine fun machine => { machine with
    topology := machine.topology.insertClock id declaration }
  return .clock id

/-- The layout of a node. From then on an autoflush node has slots to watch. -/
def setLayout (persistent : Bool) (id : NodeId) (dimensions : List UInt32) : Action Reply := do
  let layout ← ensure ((← get).machine.topology.checkLayout id dimensions)
  dispatch ⟨.setLayout id dimensions, persistent, false⟩
  -- the node is looked up once more, for what it is now
  let node ← ensure ((← get).machine.topology.node id)
  if node.autoflush then
    modifyMachine fun machine => { machine with
      occupancy := machine.occupancy.register id layout node.relaxed }
  modifyMachine fun machine => { machine with
    topology := machine.topology.modifyNode id ({ · with layout := some layout }) }
  return .done

/-- Revises a node that must exist. -/
def reviseNode (id : NodeId) (change : Node → Node) : Action Unit := do
  ensure ((← get).machine.topology.requireNode id)
  modifyMachine fun machine => { machine with
    topology := machine.topology.modifyNode id change }

def setClock (persistent : Bool) (id : NodeId) (clock : ClockId) : Action Reply := do
  let topology := (← get).machine.topology
  ensure (topology.requireNode id)
  ensure (topology.requireClock clock)
  dispatch ⟨.setClock id clock, persistent, false⟩
  reviseNode id ({ · with clock })
  return .done

/-- A bandwidth of a node, which the command tells and the change notes. -/
def setBandwidth (persistent : Bool) (id : NodeId) (command : Command) (change : Node → Node) :
    Action Reply := do
  ensure ((← get).machine.topology.requireNode id)
  dispatch ⟨command, persistent, false⟩
  reviseNode id change
  return .done

/-! ### Items -/

/-- A new item. Only an identifier chosen here is told and moves the counter. -/
def newItem (persistent : Bool) : Option ItemId → Action Reply
  | none => do
      let id := (← get).machine.nextItem
      dispatch ⟨.newItem id, persistent, false⟩
      modifyMachine fun machine => { machine with nextItem := Machine.itemAfter id }
      return .item id
  | some id => do
      ensure (checkItem id)
      dispatch ⟨.newItem id, persistent, false⟩
      return .done

def deleteItem (persistent : Bool) (item : ItemId) : Action Reply := do
  ensure (checkItem item)
  dispatch ⟨.deleteItem item, persistent, false⟩
  return .done

/-- Items that move over an edge together. Moving none is no event. -/
def moveItems (persistent : Bool) (edge : EdgeId) (items : List ItemId)
    (positions : List UInt32) : Action Reply := do
  ensure ((← get).machine.checkMove edge items positions)
  if items.isEmpty then return .done
  dispatch ⟨.moveItems edge items positions, persistent, false⟩
  modifyMachine fun machine => { machine with
    traffic := machine.traffic.map (·.add edge items.length) }
  return .done

/-! ### Occupants -/

/-- Tells the entry of an item into a slot that is watched: an item that is there
already is not entered again, and another item leaves it first. Whether the entry
is known to the output or the next replay comes back. -/
def tellArrival (persistent : Bool) (node : NodeId) (item : ItemId) (position : List UInt32) :
    Arrival → Action Bool
  | .stays => pure true
  | .enters => route ⟨.enterNode node item position, persistent, false⟩
  | .replaces evicted evictedPersistent => do
      dispatch ⟨.exitNode node evicted position, evictedPersistent, true⟩
      route ⟨.enterNode node item position, persistent, false⟩

def enterNode (persistent : Bool) (node : NodeId) (item : ItemId) (position : List UInt32) :
    Action Reply := do
  ensure (checkItem item)
  ensure ((← get).machine.topology.checkPosition node position)
  match (← get).machine.occupancy.get? node with
  | none =>
      dispatch ⟨.enterNode node item position, persistent, false⟩
      return .done
  | some occupancy =>
      let slot := occupancy.layout.flatten position
      let announced ← tellArrival persistent node item position (occupancy.arrival slot item)
      modifyMachine fun machine => { machine with
        occupancy := machine.occupancy.modify node
          (·.enter slot { item, persistent, announced }) }
      return .done

/-- An item leaves a node by request. -/
def exitNode (persistent : Bool) (node : NodeId) (item : ItemId) (position : List UInt32) :
    Action Reply := do
  ensure (checkItem item)
  ensure ((← get).machine.topology.checkPosition node position)
  match (← get).machine.occupancy.get? node with
  | none =>
      dispatch ⟨.exitNode node item position, persistent, false⟩
      return .done
  | some occupancy =>
      let slot := occupancy.layout.flatten position
      ensure (occupancy.checkExit node slot item)
      dispatch ⟨.exitNode node item position, persistent, false⟩
      modifyMachine fun machine => { machine with
        occupancy := machine.occupancy.modify node (·.vacate slot) }
      return .done

/-! ### Tags -/

/-- A tag of a whole node. A value that repeats the last kept one is left out. -/
def tagNode (persistent : Bool) (node : NodeId) (tag : String) (value : TagValue) :
    Action Reply := do
  ensure (Machine.checkTag tag value)
  ensure ((← get).machine.topology.requireNode node)
  let { settings, machine, .. } ← get
  if settings.suppressRepeatedTags && machine.tagMemory.repeats node tag value then
    count fun tally => { tally with suppressedTags := tally.suppressedTags + 1 }
    return .done
  let kept ← route ⟨.tagNode node tag value [], persistent, false⟩
  -- a value that was dropped is not remembered
  if kept && settings.suppressRepeatedTags then
    modifyMachine fun machine => { machine with
      tagMemory := machine.tagMemory.update node tag value }
  return .done

def tagSlot (persistent : Bool) (node : NodeId) (position : List UInt32) (tag : String)
    (value : TagValue) : Action Reply := do
  ensure (Machine.checkTag tag value)
  ensure ((← get).machine.topology.checkPosition node position)
  dispatch ⟨.tagNode node tag value position, persistent, false⟩
  return .done

def tagItem (persistent : Bool) (item : ItemId) (tag : String) (value : TagValue) :
    Action Reply := do
  ensure (checkItem item)
  ensure (Machine.checkTag tag value)
  dispatch ⟨.tagItem item tag value, persistent, false⟩
  return .done

def tagCycle (persistent : Bool) (tag : String) (value : TagValue) : Action Reply := do
  ensure (Machine.checkTag tag value)
  dispatch ⟨.tagCycle tag value, persistent, false⟩
  return .done

def describeTag (persistent : Bool) (tag description : String) : Action Reply := do
  ensure (checkTagName tag)
  ensure (checkDescription description)
  dispatch ⟨.describeTag tag description, persistent, false⟩
  return .done

/-! ### Cycles -/

/-- Ends the cycle under way on the accepted nodes. -/
def endCycle (accepts : NodeId → Bool) : Action Unit := do
  let (departures, occupancy) := (← get).machine.occupancy.endCycle accepts
  -- the slots are vacated at once, and only then the exits are told
  modifyMachine fun machine => { machine with occupancy }
  (Machine.departureDispatches departures).forM dispatch
  modifyMachine fun machine => { machine with traffic := machine.traffic.map (·.endCycle) }

/-- A cycle of a machine seen as a whole. -/
def cycle (persistent : Bool) (number : UInt64) : Action Reply := do
  endCycle fun _ => true
  dispatch ⟨.cycle number, persistent, false⟩
  modifyMachine fun machine => { machine with currentCycle := number }
  return .done

/-- A cycle of one clock domain. A cycle reported twice in a row is one cycle. -/
def clockedCycle (persistent : Bool) (cycle : ClockedCycle) : Action Reply := do
  let machine := (← get).machine
  ensure (machine.topology.requireClock cycle.clock)
  if machine.lastClockedCycle = some cycle then return .done
  endCycle (machine.inDomain cycle.clock)
  dispatch ⟨.clockedCycle cycle, persistent, false⟩
  -- what became of the command is not asked
  modifyMachine fun machine => { machine with lastClockedCycle := some cycle }
  modifyMachine fun machine => { machine with currentCycle := cycle.cycle }
  return .done

/-! ### Comments -/

def comment (persistent : Bool) (magic : UInt32) (command : Command) : Action Reply := do
  ensure (checkMagic magic)
  dispatch ⟨command, persistent, false⟩
  return .done

/-- The first cycle of interest. An archive that is waiting goes before it. -/
def startActivity (persistent : Bool) (cycle : UInt64) : Action Reply := do
  if let some data := (← get).machine.archive then
    dispatch ⟨.commentBytes archiveMagic data, persistent, false⟩
    -- the archive is given up whatever became of the command
    modifyMachine fun machine => { machine with archive := none }
  dispatch ⟨.startActivity cycle, persistent, false⟩
  return .done

/-! ### All events -/

/-- Takes a report. -/
def report (event : Event) (persistent : Bool) : Action Reply :=
  match event with
  | .newNode declaration id? => newNode persistent declaration id?
  | .newEdge declaration id? => newEdge persistent declaration id?
  | .newClock declaration => newClock persistent declaration
  | .setLayout node dimensions => setLayout persistent node dimensions
  | .setClock node clock => setClock persistent node clock
  | .setInputBandwidth node bandwidth =>
      setBandwidth persistent node (.setInputBandwidth node bandwidth)
        ({ · with inputBandwidth := some bandwidth })
  | .setOutputBandwidth node bandwidth =>
      setBandwidth persistent node (.setOutputBandwidth node bandwidth)
        ({ · with outputBandwidth := some bandwidth })
  | .newItem id? => newItem persistent id?
  | .deleteItem item => deleteItem persistent item
  | .moveItems edge items positions => moveItems persistent edge items positions
  | .enterNode node item position => enterNode persistent node item position
  | .exitNode node item position => exitNode persistent node item position
  | .tagNode node tag value => tagNode persistent node tag value
  | .tagSlot node position tag value => tagSlot persistent node position tag value
  | .tagItem item tag value => tagItem persistent item tag value
  | .tagCycle tag value => tagCycle persistent tag value
  | .describeTag tag description => describeTag persistent tag description
  | .cycle number => cycle persistent number
  | .clockedCycle reported => clockedCycle persistent reported
  | .comment magic text => comment persistent magic (.comment magic text)
  | .commentBytes magic data => comment persistent magic (.commentBytes magic data)
  | .startActivity first => startActivity persistent first

end Recorder
end Recording
end CycleTrace
