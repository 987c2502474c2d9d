/-
What an accepted event leads to.

`Machine.Accepts` lists the plans of the accepted events, each with the checks
that the event has passed. It says everything a plan can be, so a property of
all plans is proved by cases on it, with the checks at hand.
-/

import CycleTrace.Proofs.Recording.Slots
import CycleTrace.Proofs.Structure.Topology

namespace CycleTrace
namespace Recording

open Structure (Layout NodeDeclaration EdgeDeclaration ClockDeclaration)

/-- The machine with a layout for a node, whose slots are watched if the node
is an autoflush node. -/
def Machine.withLayout (machine : Machine) (id : NodeId) (node : Structure.Node)
    (layout : Layout) : Machine :=
  { machine with
    topology := machine.topology.modifyNode id ({ · with layout := some layout })
    occupancy :=
      if node.autoflush then machine.occupancy.register id layout node.relaxed
      else machine.occupancy }

namespace Machine

/-- The plans of the events that a machine accepts, with the checks they have
passed. -/
inductive Accepts (machine : Machine) (circumstances : Circumstances) : Event → Plan → Prop
  | newNode {declaration : NodeDeclaration} {id? : Option NodeId} {id : NodeId}
      (hChecked : machine.topology.checkNode declaration id? = .ok id) :
      Accepts machine circumstances (.newNode declaration id?)
        { machine := { machine with
            topology := machine.topology.insertNode id declaration
              (machine.instanceNumber declaration) id?.isSome
            instances := machine.instances.record declaration.name
              (machine.instanceNumber declaration) }
          dispatches := [⟨.newNode id declaration.name declaration.parent
            (machine.instanceNumber declaration), circumstances.persistent, false⟩]
          reply := .node id }
  | newEdge {declaration : EdgeDeclaration} {id? : Option EdgeId} {id : EdgeId}
      (hChecked : machine.topology.checkEdge declaration id? = .ok id) :
      Accepts machine circumstances (.newEdge declaration id?)
        { machine := { machine with
            topology := machine.topology.insertEdge id declaration id?.isSome }
          dispatches := [⟨.newEdge id declaration.source declaration.destination
            declaration.bandwidth declaration.latency declaration.name,
            circumstances.persistent, false⟩]
          reply := .edge id }
  | newClock {declaration : ClockDeclaration} {id : ClockId}
      (hChecked : machine.topology.checkClock declaration = .ok id) :
      Accepts machine circumstances (.newClock declaration)
        { machine := { machine with topology := machine.topology.insertClock id declaration }
          dispatches := [⟨.newClock id declaration.frequency declaration.skew
            declaration.divisions declaration.name, circumstances.persistent, false⟩]
          reply := .clock id }
  | setLayout {id : NodeId} {dimensions : List UInt32} {layout : Layout} {node : Structure.Node}
      (hChecked : machine.topology.checkLayout id dimensions = .ok layout)
      (hNode : machine.topology.node id = .ok node) :
      Accepts machine circumstances (.setLayout id dimensions)
        { machine := machine.withLayout id node layout
          dispatches := [⟨.setLayout id dimensions, circumstances.persistent, false⟩] }
  | setClock {id : NodeId} {clock : ClockId}
      (hNode : machine.topology.requireNode id = .ok ())
      (hClock : machine.topology.requireClock clock = .ok ()) :
      Accepts machine circumstances (.setClock id clock)
        { machine := { machine with
            topology := machine.topology.modifyNode id ({ · with clock }) }
          dispatches := [⟨.setClock id clock, circumstances.persistent, false⟩] }
  | setInputBandwidth {id : NodeId} {bandwidth : UInt32}
      (hNode : machine.topology.requireNode id = .ok ()) :
      Accepts machine circumstances (.setInputBandwidth id bandwidth)
        { machine := { machine with
            topology := machine.topology.modifyNode id
              ({ · with inputBandwidth := some bandwidth }) }
          dispatches := [⟨.setInputBandwidth id bandwidth, circumstances.persistent, false⟩] }
  | setOutputBandwidth {id : NodeId} {bandwidth : UInt32}
      (hNode : machine.topology.requireNode id = .ok ()) :
      Accepts machine circumstances (.setOutputBandwidth id bandwidth)
        { machine := { machine with
            topology := machine.topology.modifyNode id
              ({ · with outputBandwidth := some bandwidth }) }
          dispatches := [⟨.setOutputBandwidth id bandwidth, circumstances.persistent, false⟩] }
  | chosenItem :
      Accepts machine circumstances (.newItem none)
        { machine := { machine with nextItem := itemAfter machine.nextItem }
          dispatches := [⟨.newItem machine.nextItem, circumstances.persistent, false⟩]
          reply := .item machine.nextItem }
  | givenItem {id : ItemId} (hItem : checkItem id = .ok ()) :
      Accepts machine circumstances (.newItem (some id))
        { machine, dispatches := [⟨.newItem id, circumstances.persistent, false⟩] }
  | deleteItem {item : ItemId} (hItem : checkItem item = .ok ()) :
      Accepts machine circumstances (.deleteItem item)
        { machine, dispatches := [⟨.deleteItem item, circumstances.persistent, false⟩] }
  | moveNone {edge : EdgeId} {items : List ItemId} {positions : List UInt32}
      (hMove : machine.checkMove edge items positions = .ok ())
      (hNone : items.isEmpty = true) :
      Accepts machine circumstances (.moveItems edge items positions) { machine }
  | moveItems {edge : EdgeId} {items : List ItemId} {positions : List UInt32}
      (hMove : machine.checkMove edge items positions = .ok ())
      (hSome : items.isEmpty = false) :
      Accepts machine circumstances (.moveItems edge items positions)
        { machine := { machine with traffic := machine.traffic.map (·.add edge items.length) }
          dispatches := [⟨.moveItems edge items positions, circumstances.persistent, false⟩] }
  | enterUnwatched {node : NodeId} {item : ItemId} {position : List UInt32}
      (hItem : checkItem item = .ok ())
      (hPosition : machine.topology.checkPosition node position = .ok ())
      (hUnwatched : machine.occupancy.get? node = none) :
      Accepts machine circumstances (.enterNode node item position)
        { machine
          dispatches := [⟨.enterNode node item position, circumstances.persistent, false⟩] }
  | enterSlot {node : NodeId} {item : ItemId} {position : List UInt32} {occupancy : Occupancy}
      (hItem : checkItem item = .ok ())
      (hPosition : machine.topology.checkPosition node position = .ok ())
      (hWatched : machine.occupancy.get? node = some occupancy) {slot : UInt64}
      (hSlot : slot = occupancy.layout.flatten position) {announced : Bool}
      (hAnnounced : announced
        = (occupancy.arrival slot item == .stays || circumstances.kept)) :
      Accepts machine circumstances (.enterNode node item position)
        { machine := { machine with
            occupancy := machine.occupancy.modify node
              (·.enter slot ⟨item, circumstances.persistent, announced⟩) }
          dispatches := arrivalDispatches (occupancy.arrival slot item) circumstances.persistent
            node item position }
  | exitUnwatched {node : NodeId} {item : ItemId} {position : List UInt32}
      (hItem : checkItem item = .ok ())
      (hPosition : machine.topology.checkPosition node position = .ok ())
      (hUnwatched : machine.occupancy.get? node = none) :
      Accepts machine circumstances (.exitNode node item position)
        { machine
          dispatches := [⟨.exitNode node item position, circumstances.persistent, false⟩] }
  | exitSlot {node : NodeId} {item : ItemId} {position : List UInt32} {occupancy : Occupancy}
      (hItem : checkItem item = .ok ())
      (hPosition : machine.topology.checkPosition node position = .ok ())
      (hWatched : machine.occupancy.get? node = some occupancy) {slot : UInt64}
      (hSlot : slot = occupancy.layout.flatten position)
      (hExit : occupancy.checkExit node slot item = .ok ()) :
      Accepts machine circumstances (.exitNode node item position)
        { machine := { machine with occupancy := machine.occupancy.modify node (·.vacate slot) }
          dispatches := [⟨.exitNode node item position, circumstances.persistent, false⟩] }
  | tagRepeated {node : NodeId} {tag : String} {value : TagValue}
      (hTag : checkTag tag value = .ok ())
      (hNode : machine.topology.requireNode node = .ok ())
      (hSuppresses : circumstances.suppressRepeatedTags = true)
      (hRepeats : machine.tagMemory.repeats node tag value = true) :
      Accepts machine circumstances (.tagNode node tag value) { machine, suppressedTags := 1 }
  | tagNode {node : NodeId} {tag : String} {value : TagValue}
      (hTag : checkTag tag value = .ok ())
      (hNode : machine.topology.requireNode node = .ok ())
      (hNew : circumstances.suppressRepeatedTags = true →
        machine.tagMemory.repeats node tag value = false) :
      Accepts machine circumstances (.tagNode node tag value)
        { machine :=
            if circumstances.kept && circumstances.suppressRepeatedTags then
              { machine with tagMemory := machine.tagMemory.update node tag value }
            else machine
          dispatches := [⟨.tagNode node tag value [], circumstances.persistent, false⟩] }
  | tagSlot {node : NodeId} {position : List UInt32} {tag : String} {value : TagValue}
      (hTag : checkTag tag value = .ok ())
      (hPosition : machine.topology.checkPosition node position = .ok ()) :
      Accepts machine circumstances (.tagSlot node position tag value)
        { machine
          dispatches := [⟨.tagNode node tag value position, circumstances.persistent, false⟩] }
  | tagItem {item : ItemId} {tag : String} {value : TagValue}
      (hItem : checkItem item = .ok ()) (hTag : checkTag tag value = .ok ()) :
      Accepts machine circumstances (.tagItem item tag value)
        { machine, dispatches := [⟨.tagItem item tag value, circumstances.persistent, false⟩] }
  | tagCycle {tag : String} {value : TagValue} (hTag : checkTag tag value = .ok ()) :
      Accepts machine circumstances (.tagCycle tag value)
        { machine, dispatches := [⟨.tagCycle tag value, circumstances.persistent, false⟩] }
  | describeTag {tag description : String} (hTag : checkTagName tag = .ok ())
      (hDescription : checkDescription description = .ok ()) :
      Accepts machine circumstances (.describeTag tag description)
        { machine
          dispatches := [⟨.describeTag tag description, circumstances.persistent, false⟩] }
  | cycle {number : UInt64} :
      Accepts machine circumstances (.cycle number)
        (machine.beginCycle circumstances.persistent (fun _ => true) (.cycle number) number)
  | repeatedCycle {cycle : ClockedCycle}
      (hClock : machine.topology.requireClock cycle.clock = .ok ())
      (hRepeated : machine.lastClockedCycle = some cycle) :
      Accepts machine circumstances (.clockedCycle cycle) { machine }
  | clockedCycle {cycle : ClockedCycle} {plan : Plan}
      (hClock : machine.topology.requireClock cycle.clock = .ok ())
      (hNew : machine.lastClockedCycle ≠ some cycle)
      (hPlan : plan = machine.beginCycle circumstances.persistent (machine.inDomain cycle.clock)
        (.clockedCycle cycle) cycle.cycle) :
      Accepts machine circumstances (.clockedCycle cycle)
        { plan with machine := { plan.machine with lastClockedCycle := some cycle } }
  | comment {magic : UInt32} {text : String} (hMagic : checkMagic magic = .ok ()) :
      Accepts machine circumstances (.comment magic text)
        { machine, dispatches := [⟨.comment magic text, circumstances.persistent, false⟩] }
  | commentBytes {magic : UInt32} {data : List UInt8} (hMagic : checkMagic magic = .ok ()) :
      Accepts machine circumstances (.commentBytes magic data)
        { machine, dispatches := [⟨.commentBytes magic data, circumstances.persistent, false⟩] }
  | startActivity {cycle : UInt64} :
      Accepts machine circumstances (.startActivity cycle)
        (machine.startActivity circumstances.persistent cycle)

section Plans

variable {machine : Machine} {circumstances : Circumstances} {plan : Plan}

theorem accepts_enterNode {node : NodeId} {item : ItemId} {position : List UInt32}
    (hPlan : machine.enterNode circumstances node item position = .ok plan) :
    machine.Accepts circumstances (.enterNode node item position) plan := by
  obtain ⟨_, hItem, hRest⟩ := ok_of_bind hPlan
  obtain ⟨_, hPosition, hLast⟩ := ok_of_bind hRest
  dsimp only at hLast
  split at hLast
  · next hUnwatched =>
      cases hLast
      exact .enterUnwatched hItem hPosition hUnwatched
  · next occupancy hWatched =>
      cases hLast
      exact .enterSlot hItem hPosition hWatched rfl rfl

theorem accepts_exitNode {node : NodeId} {item : ItemId} {position : List UInt32}
    (hPlan : machine.exitNode circumstances.persistent node item position = .ok plan) :
    machine.Accepts circumstances (.exitNode node item position) plan := by
  obtain ⟨_, hItem, hRest⟩ := ok_of_bind hPlan
  obtain ⟨_, hPosition, hLast⟩ := ok_of_bind hRest
  dsimp only at hLast
  split at hLast
  · next hUnwatched =>
      cases hLast
      exact .exitUnwatched hItem hPosition hUnwatched
  · next occupancy hWatched =>
      obtain ⟨_, hExit, hDone⟩ := ok_of_bind hLast
      cases hDone
      exact .exitSlot hItem hPosition hWatched rfl hExit

theorem accepts_tagNode {node : NodeId} {tag : String} {value : TagValue}
    (hPlan : machine.tagNode circumstances node tag value = .ok plan) :
    machine.Accepts circumstances (.tagNode node tag value) plan := by
  obtain ⟨_, hTag, hRest⟩ := ok_of_bind hPlan
  obtain ⟨_, hNode, hLast⟩ := ok_of_bind hRest
  split at hLast
  · next hRepeated =>
      rw [Bool.and_eq_true] at hRepeated
      cases hLast
      exact .tagRepeated hTag hNode hRepeated.1 hRepeated.2
  · next hNew =>
      cases hLast
      refine .tagNode hTag hNode ?_
      intro hSuppresses
      rw [hSuppresses, Bool.true_and] at hNew
      exact Bool.eq_false_iff.mpr hNew

theorem accepts_moveItems {edge : EdgeId} {items : List ItemId} {positions : List UInt32}
    (hPlan : machine.moveItems circumstances.persistent edge items positions = .ok plan) :
    machine.Accepts circumstances (.moveItems edge items positions) plan := by
  obtain ⟨_, hMove, hRest⟩ := ok_of_bind hPlan
  split at hRest
  · next hNone =>
      cases hRest
      exact .moveNone hMove hNone
  · next hSome =>
      cases hRest
      exact .moveItems hMove (Bool.eq_false_iff.mpr hSome)

theorem accepts_clockedCycle {cycle : ClockedCycle}
    (hPlan : machine.clockedCycle circumstances.persistent cycle = .ok plan) :
    machine.Accepts circumstances (.clockedCycle cycle) plan := by
  obtain ⟨_, hClock, hRest⟩ := ok_of_bind hPlan
  split at hRest
  · next hRepeated =>
      cases hRest
      exact .repeatedCycle hClock hRepeated
  · next hNew =>
      cases hRest
      exact .clockedCycle hClock hNew rfl

/-- Every plan is one of those listed. -/
theorem accepts_of_plan {event : Event} (hPlan : machine.plan circumstances event = .ok plan) :
    machine.Accepts circumstances event plan := by
  cases event with
  | newNode declaration id? =>
      obtain ⟨id, hChecked, hRest⟩ := ok_of_bind hPlan
      cases hRest
      exact .newNode hChecked
  | newEdge declaration id? =>
      obtain ⟨id, hChecked, hRest⟩ := ok_of_bind hPlan
      cases hRest
      exact .newEdge hChecked
  | newClock declaration =>
      obtain ⟨id, hChecked, hRest⟩ := ok_of_bind hPlan
      cases hRest
      exact .newClock hChecked
  | setLayout node dimensions =>
      obtain ⟨layout, hChecked, hRest⟩ := ok_of_bind hPlan
      obtain ⟨known, hNode, hLast⟩ := ok_of_bind hRest
      cases hLast
      exact .setLayout hChecked hNode
  | setClock node clock =>
      obtain ⟨_, hNode, hRest⟩ := ok_of_bind hPlan
      obtain ⟨_, hClock, hLast⟩ := ok_of_bind hRest
      cases hLast
      exact .setClock hNode hClock
  | setInputBandwidth node bandwidth =>
      obtain ⟨_, hNode, hRest⟩ := ok_of_bind hPlan
      cases hRest
      exact .setInputBandwidth hNode
  | setOutputBandwidth node bandwidth =>
      obtain ⟨_, hNode, hRest⟩ := ok_of_bind hPlan
      cases hRest
      exact .setOutputBandwidth hNode
  | newItem id? =>
      cases id? with
      | none =>
          cases hPlan
          exact .chosenItem
      | some id =>
          obtain ⟨_, hItem, hRest⟩ := ok_of_bind hPlan
          cases hRest
          exact .givenItem hItem
  | deleteItem item =>
      obtain ⟨_, hItem, hRest⟩ := ok_of_bind hPlan
      cases hRest
      exact .deleteItem hItem
  | moveItems edge items positions => exact accepts_moveItems hPlan
  | enterNode node item position => exact accepts_enterNode hPlan
  | exitNode node item position => exact accepts_exitNode hPlan
  | tagNode node tag value => exact accepts_tagNode hPlan
  | tagSlot node position tag value =>
      obtain ⟨_, hTag, hRest⟩ := ok_of_bind hPlan
      obtain ⟨_, hPosition, hLast⟩ := ok_of_bind hRest
      cases hLast
      exact .tagSlot hTag hPosition
  | tagItem item tag value =>
      obtain ⟨_, hItem, hRest⟩ := ok_of_bind hPlan
      obtain ⟨_, hTag, hLast⟩ := ok_of_bind hRest
      cases hLast
      exact .tagItem hItem hTag
  | tagCycle tag value =>
      obtain ⟨_, hTag, hRest⟩ := ok_of_bind hPlan
      cases hRest
      exact .tagCycle hTag
  | describeTag tag description =>
      obtain ⟨_, hTag, hRest⟩ := ok_of_bind hPlan
      obtain ⟨_, hDescription, hLast⟩ := ok_of_bind hRest
      cases hLast
      exact .describeTag hTag hDescription
  | cycle number =>
      cases hPlan
      exact .cycle
  | clockedCycle cycle => exact accepts_clockedCycle hPlan
  | comment magic text =>
      obtain ⟨_, hMagic, hRest⟩ := ok_of_bind hPlan
      cases hRest
      exact .comment hMagic
  | commentBytes magic data =>
      obtain ⟨_, hMagic, hRest⟩ := ok_of_bind hPlan
      cases hRest
      exact .commentBytes hMagic
  | startActivity cycle =>
      cases hPlan
      exact .startActivity

end Plans

/-! ### The commands of a plan

What holds of every command of a plan is proved by cases on the plan. These are
the lists of dispatches that plans are made of. -/

section Commands

variable {machine : Machine} {holds : Command → Prop} {persistent : Bool}

theorem forall_single {command : Command} (hCommand : holds command) :
    ∀ sent ∈ [(⟨command, persistent, false⟩ : Dispatch)], holds sent.command :=
  List.forall_mem_singleton.mpr hCommand

theorem forall_arrivalDispatches {arrival : Arrival} {node : NodeId} {item : ItemId}
    {position : List UInt32} (hEnters : holds (.enterNode node item position))
    (hExits : ∀ evicted evictedPersistent, arrival = .replaces evicted evictedPersistent →
      holds (.exitNode node evicted position)) :
    ∀ sent ∈ arrivalDispatches arrival persistent node item position, holds sent.command := by
  intro sent hSent
  cases arrival with
  | stays => cases hSent
  | enters =>
      rw [List.mem_singleton.mp hSent]
      exact hEnters
  | replaces evicted evictedPersistent =>
      rcases List.mem_cons.mp hSent with rfl | hLast
      · exact hExits evicted evictedPersistent rfl
      · rw [List.mem_singleton.mp hLast]
        exact hEnters

theorem forall_beginCycle {accepts : NodeId → Bool} {command : Command} (number : UInt64)
    (hCommand : holds command)
    (hExits : ∀ {node : NodeId} {occupancy : Occupancy} {slot : UInt64} {departure : Departure},
      machine.occupancy.get? node = some occupancy →
      occupancy.departure? slot = some departure →
      holds (.exitNode node departure.item departure.position)) :
    ∀ sent ∈ (machine.beginCycle persistent accepts command number).dispatches,
      holds sent.command := by
  intro sent hSent
  rcases List.mem_append.mp hSent with hDeparts | hLast
  · obtain ⟨⟨node, departure⟩, hDeparture, rfl⟩ := List.mem_map.mp hDeparts
    obtain ⟨occupancy, slot, hWatched, hSlot⟩ := OccupancyTable.mem_departures hDeparture
    exact hExits hWatched hSlot
  · rw [List.mem_singleton.mp hLast]
    exact hCommand

theorem forall_startActivity {cycle : UInt64}
    (hArchive : ∀ data, machine.archive = some data → holds (.commentBytes archiveMagic data))
    (hStarts : holds (.startActivity cycle)) :
    ∀ sent ∈ (machine.startActivity persistent cycle).dispatches, holds sent.command := by
  intro sent hSent
  rcases List.mem_append.mp hSent with hEmbedded | hLast
  · split at hEmbedded
    · next data hData =>
        rw [List.mem_singleton.mp hEmbedded]
        exact hArchive data hData
    · cases hEmbedded
  · rw [List.mem_singleton.mp hLast]
    exact hStarts

end Commands
end Machine
end Recording
end CycleTrace
