/-
What each event does to the slots of autoflush nodes.

A node is watched from the moment it has both the autoflush attribute and a
layout. The occupancy table follows the topology in this. So a position that
the topology accepts on an autoflush node has a slot, and every entry and exit
there goes through the table: each event takes each slot one `SlotStep` on.
-/

import CycleTrace.Proofs.Recording.Slots
import CycleTrace.Proofs.Structure.Topology

namespace CycleTrace
namespace Recording

open Structure (Layout Topology)

/-! ### Machines -/

namespace Machine

/-- The occupancy table follows the topology: exactly the autoflush nodes with
a layout are watched, with that layout. -/
structure Watching (machine : Machine) : Prop where
  layouts : ∀ node, (machine.occupancy.get? node).map (·.layout)
    = machine.topology.watchedLayout? node
  sound : ∀ node occupancy, machine.occupancy.get? node = some occupancy → occupancy.Sound

/-- The occupant of the slot of a position. -/
def occupantAt (machine : Machine) (node : NodeId) (position : List UInt32) : Option Occupant :=
  machine.occupancy.occupantAt node position

/-- What the plan of an event has in common with those of all others: the table
goes on following the topology, the nodes keep their attributes, each slot of
an autoflush node takes one step, and nothing is synthesized elsewhere. -/
structure Regular (machine : Machine) (circumstances : Circumstances) (event : Event)
    (plan : Plan) : Prop where
  watching : plan.machine.Watching
  marks : ∀ autoflush node, machine.topology.Marked autoflush node →
    plan.machine.topology.Marked autoflush node
  slots : ∀ node position, ¬ plan.machine.topology.Unwatched node →
    SlotStep circumstances event node position (machine.occupantAt node position)
      (slotLog node position (entriesOf circumstances.recording plan.dispatches))
      (plan.machine.occupantAt node position)
  elsewhere : ∀ node position, plan.machine.topology.Unwatched node →
    ∀ entry ∈ slotLog node position (entriesOf circumstances.recording plan.dispatches),
      entry.synthesized = false

/-- An event is refused, or its plan is regular. -/
def Regulates (machine : Machine) (circumstances : Circumstances) (event : Event)
    (result : Except Fault Plan) : Prop :=
  ∀ plan, result = .ok plan → machine.Regular circumstances event plan

section Plans

variable {machine : Machine} {circumstances : Circumstances} {event : Event} {node : NodeId}

theorem watching_initial {machine : Machine} (hTopology : machine.topology = {})
    (hOccupancy : machine.occupancy = {}) : machine.Watching := by
  constructor
  · intro node
    simp [hTopology, hOccupancy, OccupancyTable.get?, Topology.watchedLayout?]
  · intro node occupancy hOccupied
    simp [hOccupancy, OccupancyTable.get?] at hOccupied

theorem Watching.forgetOutput (hWatching : machine.Watching) :
    { machine with occupancy := machine.occupancy.forgetOutput }.Watching := by
  constructor
  · intro node
    rw [OccupancyTable.get?_forgetOutput, Option.map_map]
    exact hWatching.layouts node
  · intro node occupancy hOccupancy
    rw [OccupancyTable.get?_forgetOutput] at hOccupancy
    obtain ⟨before, hBefore, rfl⟩ := Option.map_eq_some_iff.mp hOccupancy
    exact (hWatching.sound node before hBefore).forgetOutput

theorem Watching.congr {other : Machine} (hWatching : machine.Watching)
    (hTopology : other.topology = machine.topology)
    (hOccupancy : other.occupancy = machine.occupancy) : other.Watching := by
  constructor
  · rw [hTopology, hOccupancy]
    exact hWatching.layouts
  · rw [hOccupancy]
    exact hWatching.sound

theorem Watching.of_get? (hWatching : machine.Watching) {occupancy : Occupancy}
    (hOccupancy : machine.occupancy.get? node = some occupancy) :
    ∃ known, machine.topology.nodes[node]? = some known ∧ known.autoflush = true ∧
      known.layout = some occupancy.layout := by
  apply Topology.watchedLayout?_eq_some
  rw [← hWatching.layouts node, hOccupancy]
  rfl

/-- The table watches autoflush nodes only. -/
theorem Watching.autoflush (hWatching : machine.Watching) {occupancy : Occupancy}
    (hOccupancy : machine.occupancy.get? node = some occupancy) :
    machine.topology.Autoflush node := by
  obtain ⟨known, hKnown, hAutoflush, _⟩ := hWatching.of_get? hOccupancy
  exact ⟨known, hKnown, hAutoflush⟩

theorem Watching.occupantAt_eq_none (hWatching : machine.Watching)
    (hNode : ¬ machine.topology.Autoflush node) (position : List UInt32) :
    machine.occupantAt node position = none := by
  unfold occupantAt OccupancyTable.occupantAt
  cases hOccupancy : machine.occupancy.get? node with
  | none => rfl
  | some occupancy => exact absurd (hWatching.autoflush hOccupancy) hNode

theorem regulates_bind {α : Type} {checked : Except Fault α} {next : α → Except Fault Plan}
    (hNext : ∀ value, checked = .ok value →
      machine.Regulates circumstances event (next value)) :
    machine.Regulates circumstances event (checked >>= next) := by
  intro plan hPlan
  obtain ⟨value, hValue, hRest⟩ := ok_of_bind hPlan
  exact hNext value hValue plan hRest

theorem regulates_ok {plan : Plan} (hPlan : machine.Regular circumstances event plan) :
    machine.Regulates circumstances event (.ok plan) := by
  intro other hOther
  cases hOther
  exact hPlan

/-- Plans that leave the table alone and dispatch nothing for autoflush nodes. -/
theorem regulates_aside {plan : Plan} (hWatching : machine.Watching)
    (hOccupancy : plan.machine.occupancy = machine.occupancy)
    (hLayouts : ∀ node,
      plan.machine.topology.watchedLayout? node = machine.topology.watchedLayout? node)
    (hMarks : ∀ autoflush node, machine.topology.Marked autoflush node →
      plan.machine.topology.Marked autoflush node)
    (hElsewhere : ∀ sent ∈ plan.dispatches, sent.synthesized = false ∧
      ∀ node position, ¬ plan.machine.topology.Unwatched node →
        changeAt? node position sent.command = none) :
    machine.Regulates circumstances event (.ok plan) := by
  apply regulates_ok
  constructor
  · constructor
    · intro node
      rw [hOccupancy, hLayouts]
      exact hWatching.layouts node
    · rw [hOccupancy]
      exact hWatching.sound
  · exact hMarks
  · intro node position hNode
    have hNothing : slotLog node position
        (entriesOf circumstances.recording plan.dispatches) = [] :=
      slotLog_eq_nil fun sent hSent => (hElsewhere sent hSent).2 node position hNode
    have hSame : plan.machine.occupantAt node position = machine.occupantAt node position := by
      unfold occupantAt
      rw [hOccupancy]
    rw [hNothing, hSame]
    exact .untouched _
  · intro node position _ entry hEntry
    obtain ⟨logged, hLogged, hAt⟩ := List.mem_filterMap.mp hEntry
    obtain ⟨sent, hSent, rfl⟩ := List.mem_map.mp hLogged
    obtain ⟨change, _, rfl⟩ := Option.map_eq_some_iff.mp hAt
    exact (hElsewhere sent hSent).1

theorem regulates_idle (hWatching : machine.Watching) (suppressedTags : Nat) :
    machine.Regulates circumstances event (.ok { machine, suppressedTags }) :=
  regulates_aside hWatching rfl (fun _ => rfl) (fun _ _ => id) fun _ hSent => nomatch hSent

/-- Plans that leave the nodes and the table alone and dispatch one command
that is no entry and no exit. -/
theorem regulates_told {plan : Plan} {command : Command} {persistent : Bool}
    (hWatching : machine.Watching)
    (hOccupancy : plan.machine.occupancy = machine.occupancy)
    (hNodes : plan.machine.topology.nodes = machine.topology.nodes)
    (hDispatches : plan.dispatches = [⟨command, persistent, false⟩])
    (hCommand : ∀ node position, changeAt? node position command = none) :
    machine.Regulates circumstances event (.ok plan) := by
  apply regulates_aside hWatching hOccupancy
  · intro node
    unfold Topology.watchedLayout?
    rw [hNodes]
  · intro autoflush node
    unfold Topology.Marked
    rw [hNodes]
    exact id
  · intro sent hSent
    rw [hDispatches, List.mem_singleton] at hSent
    subst hSent
    exact ⟨rfl, fun node position _ => hCommand node position⟩

/-- Plans that change what is known about a node, but not its attribute or its layout. -/
theorem regulates_modified {command : Command} {persistent : Bool} (hWatching : machine.Watching)
    (id : NodeId) (change : Structure.Node → Structure.Node)
    (hAutoflush : ∀ node, (change node).autoflush = node.autoflush)
    (hLayout : ∀ node, (change node).layout = node.layout)
    (hCommand : ∀ node position, changeAt? node position command = none) :
    machine.Regulates circumstances event (.ok
      { machine := { machine with topology := machine.topology.modifyNode id change }
        dispatches := [⟨command, persistent, false⟩] }) := by
  apply regulates_aside hWatching rfl
  · intro node
    exact Topology.watchedLayout?_modifyNode machine.topology id node change hAutoflush hLayout
  · intro autoflush node hNode
    exact hNode.modifyNode id change hAutoflush
  · intro sent hSent
    rw [List.mem_singleton.mp hSent]
    exact ⟨rfl, fun node position _ => hCommand node position⟩

/-! ### Structure -/

theorem regulates_newNode (hWatching : machine.Watching) (persistent : Bool)
    (declaration : Structure.NodeDeclaration) (id? : Option NodeId) :
    machine.Regulates circumstances event (machine.newNode persistent declaration id?) := by
  apply regulates_bind
  intro id hChecked
  have hFree := Topology.checkNode_free hChecked
  apply regulates_aside hWatching rfl
  · intro node
    exact Topology.watchedLayout?_insertNode hFree node _ _ _
  · intro autoflush node hNode
    exact hNode.insertNode hFree _ _ _
  · intro sent hSent
    rw [List.mem_singleton.mp hSent]
    exact ⟨rfl, fun _ _ _ => rfl⟩

/-- A node whose layout is set is watched from then on, with all slots empty. -/
theorem regular_register (hWatching : machine.Watching) {id : NodeId} {known : Structure.Node}
    {layout : Layout} (hKnown : machine.topology.nodes[id]? = some known)
    (hAutoflush : known.autoflush = true) (hNoLayout : known.layout = none)
    (hRoomy : layout.Roomy) (dimensions : List UInt32) (persistent : Bool) :
    machine.Regular circumstances event
      { machine := { machine with
          topology := machine.topology.modifyNode id ({ · with layout := some layout })
          occupancy := machine.occupancy.register id layout known.relaxed }
        dispatches := [⟨.setLayout id dimensions, persistent, false⟩] } := by
  have hUnknown : machine.occupancy.get? id = none := by
    have hLayout := hWatching.layouts id
    rw [Topology.watchedLayout?_of_node hKnown, hNoLayout, ite_self] at hLayout
    exact Option.map_eq_none_iff.mp hLayout
  constructor
  · constructor
    · intro node
      rw [OccupancyTable.get?_register]
      unfold Topology.watchedLayout?
      rw [Topology.getElem?_modifyNode]
      by_cases hNode : id = node
      · rw [if_pos hNode, if_pos hNode, hKnown]
        simp only [Option.map_some, Option.bind_some, hAutoflush, if_true]
      · rw [if_neg hNode, if_neg hNode]
        exact hWatching.layouts node
    · intro node occupancy hOccupancy
      rw [OccupancyTable.get?_register] at hOccupancy
      split at hOccupancy
      · cases hOccupancy
        exact Occupancy.sound_empty hRoomy known.relaxed
      · exact hWatching.sound node occupancy hOccupancy
  · intro autoflush node hNode
    exact hNode.modifyNode id _ fun _ => rfl
  · intro node position _
    have hSame : (machine.occupancy.register id layout known.relaxed).occupantAt node position
        = machine.occupantAt node position := by
      unfold occupantAt OccupancyTable.occupantAt
      rw [OccupancyTable.get?_register]
      split
      · next hNode =>
          subst hNode
          rw [hUnknown]
          unfold Occupancy.occupantAt
          simp
      · rfl
    change SlotStep _ _ _ _ _ [] (OccupancyTable.occupantAt _ _ _)
    rw [hSame]
    exact .untouched _
  · intro node position _ entry hEntry
    cases hEntry

theorem regulates_setLayout (hWatching : machine.Watching) (persistent : Bool) (id : NodeId)
    (dimensions : List UInt32) :
    machine.Regulates circumstances event (machine.setLayout persistent id dimensions) := by
  apply regulates_bind
  intro layout hChecked
  obtain ⟨hRoomy, known, hKnown, hNoLayout⟩ := Topology.checkLayout_eq_ok hChecked
  apply regulates_bind
  intro found hFound
  have hSame := Topology.node_eq_ok hFound
  rw [hKnown] at hSame
  cases hSame
  cases hAutoflush : known.autoflush with
  | true =>
      apply regulates_ok
      exact regular_register hWatching hKnown hAutoflush hNoLayout hRoomy dimensions persistent
  | false =>
      apply regulates_aside hWatching rfl
      · intro node
        unfold Topology.watchedLayout?
        rw [Topology.getElem?_modifyNode]
        split
        · next hNode =>
            subst hNode
            rw [hKnown]
            simp [hAutoflush]
        · rfl
      · intro autoflush node hNode
        exact hNode.modifyNode id _ fun _ => rfl
      · intro sent hSent
        rw [List.mem_singleton.mp hSent]
        exact ⟨rfl, fun _ _ _ => rfl⟩

/-! ### Occupants -/

theorem changeAt?_enterNode (node other : NodeId) (item : ItemId) (position place : List UInt32) :
    changeAt? node position (.enterNode other item place)
      = if other = node ∧ place = position then some (.enters item) else none :=
  rfl

theorem changeAt?_exitNode (node other : NodeId) (item : ItemId) (position place : List UInt32) :
    changeAt? node position (.exitNode other item place)
      = if other = node ∧ place = position then some (.exits item) else none :=
  rfl

/-- Plans for a node without slots: what the topology accepts there is not watched. -/
theorem regulates_untracked {command : Command} {persistent : Bool} {position : List UInt32}
    (hWatching : machine.Watching) (hUntracked : machine.occupancy.get? node = none)
    (hPosition : machine.topology.checkPosition node position = .ok ())
    (hCommand : ∀ other place, other ≠ node → changeAt? other place command = none) :
    machine.Regulates circumstances event (.ok
      { machine, dispatches := [⟨command, persistent, false⟩] }) := by
  have hUnwatched : machine.topology.Unwatched node := by
    rcases Topology.checkPosition_eq_ok hPosition with hPlain | ⟨layout, hLayout, _⟩
    · exact hPlain
    · rw [← hWatching.layouts node, hUntracked] at hLayout
      cases hLayout
  apply regulates_aside hWatching rfl (fun _ => rfl) fun _ _ => id
  intro sent hSent
  rw [List.mem_singleton.mp hSent]
  refine ⟨rfl, ?_⟩
  intro other place hOther
  apply hCommand
  rintro rfl
  exact hOther hUnwatched

/-- The position that the topology accepts on a node with slots names one of them. -/
theorem Watching.contains (hWatching : machine.Watching) {occupancy : Occupancy}
    (hOccupancy : machine.occupancy.get? node = some occupancy) {position : List UInt32}
    (hPosition : machine.topology.checkPosition node position = .ok ()) :
    occupancy.layout.Contains position := by
  rcases Topology.checkPosition_eq_ok hPosition with hPlain | ⟨layout, hLayout, hContains⟩
  · exact absurd hPlain (Topology.not_unwatched (hWatching.autoflush hOccupancy))
  · rw [← hWatching.layouts node, hOccupancy] at hLayout
    cases hLayout
    exact hContains

/-- Plans that change one slot and dispatch for no other. -/
theorem regulates_slot {change : Occupancy → Occupancy} {dispatches : List Dispatch}
    {occupancy : Occupancy} (hWatching : machine.Watching) (position : List UInt32)
    (hOccupancy : machine.occupancy.get? node = some occupancy)
    (hLayout : (change occupancy).layout = occupancy.layout)
    (hSound : (change occupancy).Sound)
    (hOthers : ∀ place, position ≠ place →
      (change occupancy).occupantAt place = occupancy.occupantAt place)
    (hDispatches : ∀ sent ∈ dispatches, ∀ other place, ¬ (node = other ∧ position = place) →
      changeAt? other place sent.command = none)
    (hStep : SlotStep circumstances event node position (occupancy.occupantAt position)
      (slotLog node position (entriesOf circumstances.recording dispatches))
      ((change occupancy).occupantAt position)) :
    machine.Regulates circumstances event (.ok
      { machine := { machine with occupancy := machine.occupancy.modify node change }
        dispatches }) := by
  apply regulates_ok
  have hHere : (machine.occupancy.modify node change).get? node = some (change occupancy) := by
    rw [OccupancyTable.get?_modify, if_pos rfl, hOccupancy]
    rfl
  have hElsewhere {other : NodeId} (hOther : node ≠ other) :
      (machine.occupancy.modify node change).get? other = machine.occupancy.get? other := by
    rw [OccupancyTable.get?_modify, if_neg hOther]
  constructor
  · constructor
    · intro other
      by_cases hOther : node = other
      · subst hOther
        rw [hHere, Option.map_some, hLayout, ← hWatching.layouts node, hOccupancy]
        rfl
      · rw [hElsewhere hOther]
        exact hWatching.layouts other
    · intro other found hFound
      by_cases hOther : node = other
      · subst hOther
        rw [hHere] at hFound
        cases hFound
        exact hSound
      · rw [hElsewhere hOther] at hFound
        exact hWatching.sound other found hFound
  · intro autoflush other
    exact id
  · intro other place _
    unfold occupantAt OccupancyTable.occupantAt
    by_cases hOther : node = other
    · subst hOther
      rw [hHere, hOccupancy, Option.bind_some, Option.bind_some]
      by_cases hPlace : position = place
      · subst hPlace
        exact hStep
      · rw [hOthers place hPlace,
          slotLog_eq_nil fun sent hSent => hDispatches sent hSent node place fun h => hPlace h.2]
        exact .untouched _
    · rw [hElsewhere hOther,
        slotLog_eq_nil fun sent hSent => hDispatches sent hSent other place fun h => hOther h.1]
      exact .untouched _
  · intro other place hUnwatched entry hEntry
    have hOther : node ≠ other := by
      rintro rfl
      exact Topology.not_unwatched (hWatching.autoflush hOccupancy) hUnwatched
    rw [slotLog_eq_nil fun sent hSent => hDispatches sent hSent other place fun h => hOther h.1]
      at hEntry
    cases hEntry

/-- What an arrival dispatches is for its own slot. -/
theorem arrivalDispatches_elsewhere (arrival : Arrival) (persistent : Bool) (node : NodeId)
    (item : ItemId) (position : List UInt32) :
    ∀ sent ∈ arrivalDispatches arrival persistent node item position,
      ∀ other place, ¬ (node = other ∧ position = place) →
        changeAt? other place sent.command = none := by
  intro sent hSent other place hElsewhere
  cases arrival with
  | stays => cases hSent
  | enters =>
      rw [List.mem_singleton.mp hSent]
      exact if_neg hElsewhere
  | replaces evicted evictedPersistent =>
      rcases List.mem_cons.mp hSent with rfl | hEntry
      · exact if_neg hElsewhere
      · rw [List.mem_singleton.mp hEntry]
        exact if_neg hElsewhere

/-- What an arrival means for its slot. -/
theorem slotStep_arrival (circumstances : Circumstances) (occupancy : Occupancy)
    (node : NodeId) (item : ItemId) (position : List UInt32) :
    let arrival := occupancy.arrival (occupancy.layout.flatten position) item
    SlotStep circumstances (.enterNode node item position) node position
      occupancy.contents[occupancy.layout.flatten position]?
      (slotLog node position (entriesOf circumstances.recording
        (arrivalDispatches arrival circumstances.persistent node item position)))
      (some ⟨item, circumstances.persistent, arrival == .stays || circumstances.kept⟩) := by
  have hEnters : slotLog node position (entriesOf circumstances.recording
      [⟨.enterNode node item position, circumstances.persistent, false⟩])
      = [⟨.enters item, circumstances.persistent, false, circumstances.recording⟩] := by
    rw [slotLog_entriesOf_cons, slotLog_entriesOf_nil, changeAt?_enterNode, if_pos ⟨rfl, rfl⟩]
    rfl
  unfold Occupancy.arrival
  cases occupancy.contents[occupancy.layout.flatten position]? with
  | none =>
      simp only [arrivalDispatches, hEnters]
      refine .enters item ?_
      intro occupant hOccupant
      cases hOccupant
  | some occupant =>
      obtain ⟨present, persistent, announced⟩ := occupant
      cases announced with
      | false =>
          simp only [Bool.not_false, if_true, arrivalDispatches, hEnters]
          refine .enters item ?_
          intro occupant hOccupant
          cases hOccupant
          rfl
      | true =>
          by_cases hItem : present = item
          · subst hItem
            simp only [Bool.not_true, Bool.false_eq_true, if_false, if_true, beq_self_eq_true,
              Bool.true_or]
            exact .stays persistent rfl
          · simp only [Bool.not_true, Bool.false_eq_true, if_false, if_neg hItem,
              arrivalDispatches, slotLog_entriesOf_cons _ _ _ _ [_], hEnters,
              changeAt?_exitNode, and_self, if_true, Option.map_some]
            exact .replaces present item persistent

theorem regulates_enterNode (hWatching : machine.Watching) (node : NodeId) (item : ItemId)
    (position : List UInt32) :
    machine.Regulates circumstances (.enterNode node item position)
      (machine.enterNode circumstances node item position) := by
  apply regulates_bind
  intro _ _
  apply regulates_bind
  intro _ hPosition
  dsimp only
  split
  · next hUntracked =>
      apply regulates_untracked hWatching hUntracked hPosition
      intro other place hOther
      exact if_neg fun hSame => hOther hSame.1.symm
  · next occupancy hOccupancy =>
      have hContains := hWatching.contains hOccupancy hPosition
      have hSound := hWatching.sound node occupancy hOccupancy
      refine regulates_slot hWatching position hOccupancy ?_ (hSound.enter hContains _) ?_
        (arrivalDispatches_elsewhere _ _ node item position) ?_
      · rfl
      · intro place hPlace
        rw [Occupancy.occupantAt_enter hSound hContains, if_neg hPlace]
      · rw [Occupancy.occupantAt_enter hSound hContains, if_pos rfl,
          Occupancy.occupantAt_of_contains hContains]
        exact slotStep_arrival circumstances occupancy node item position

theorem regulates_exitNode (hWatching : machine.Watching) (node : NodeId) (item : ItemId)
    (position : List UInt32) :
    machine.Regulates circumstances (.exitNode node item position)
      (machine.exitNode circumstances.persistent node item position) := by
  apply regulates_bind
  intro _ _
  apply regulates_bind
  intro _ hPosition
  dsimp only
  split
  · next hUntracked =>
      apply regulates_untracked hWatching hUntracked hPosition
      intro other place hOther
      exact if_neg fun hSame => hOther hSame.1.symm
  · next occupancy hOccupancy =>
      apply regulates_bind
      intro _ hExit
      have hContains := hWatching.contains hOccupancy hPosition
      have hSound := hWatching.sound node occupancy hOccupancy
      refine regulates_slot hWatching position hOccupancy ?_ (hSound.vacate _) ?_ ?_ ?_
      · rfl
      · intro place hPlace
        rw [Occupancy.occupantAt_vacate hSound hContains, if_neg hPlace]
      · intro sent hSent other place hElsewhere
        rw [List.mem_singleton.mp hSent]
        exact if_neg hElsewhere
      · obtain ⟨occupant, hOccupant, rfl⟩ := Occupancy.checkExit_eq_ok hExit
        rw [Occupancy.occupantAt_vacate hSound hContains, if_pos rfl,
          Occupancy.occupantAt_of_contains hContains, hOccupant]
        have hLog : slotLog node position (entriesOf circumstances.recording
            [⟨.exitNode node occupant.item position, circumstances.persistent, false⟩])
            = [⟨.exits occupant.item, circumstances.persistent, false,
                circumstances.recording⟩] := by
          rw [slotLog_entriesOf_cons, slotLog_entriesOf_nil, changeAt?_exitNode,
            if_pos ⟨rfl, rfl⟩]
          rfl
        rw [hLog]
        exact .leaves occupant rfl

/-! ### Items and tags -/

theorem regulates_moveItems (hWatching : machine.Watching) (persistent : Bool) (edge : EdgeId)
    (items : List ItemId) (positions : List UInt32) :
    machine.Regulates circumstances event
      (machine.moveItems persistent edge items positions) := by
  apply regulates_bind
  intro _ _
  split
  · exact regulates_idle hWatching _
  · exact regulates_told hWatching rfl rfl rfl fun _ _ => rfl

theorem regulates_tagNode (hWatching : machine.Watching) (node : NodeId) (tag : String)
    (value : TagValue) :
    machine.Regulates circumstances event (machine.tagNode circumstances node tag value) := by
  apply regulates_bind
  intro _ _
  apply regulates_bind
  intro _ _
  split
  · exact regulates_idle hWatching _
  · split
    · exact regulates_told hWatching rfl rfl rfl fun _ _ => rfl
    · exact regulates_told hWatching rfl rfl rfl fun _ _ => rfl

/-! ### Cycles -/

theorem Watching.endCycle (hWatching : machine.Watching) (accepts : NodeId → Bool) :
    { machine with occupancy := (machine.occupancy.endCycle accepts).2 }.Watching := by
  constructor
  · intro node
    rw [← hWatching.layouts node, OccupancyTable.get?_endCycle, Option.map_map]
    congr 1
    funext occupancy
    dsimp only [Function.comp]
    split
    · rfl
    · rfl
  · intro node occupancy hOccupancy
    rw [OccupancyTable.get?_endCycle] at hOccupancy
    obtain ⟨before, hBefore, rfl⟩ := Option.map_eq_some_iff.mp hOccupancy
    have hSound := hWatching.sound node before hBefore
    split
    · exact hSound.endCycle
    · exact hSound

/-- The end of a cycle takes the occupant of a stale slot away, and tells so if
the output knows the occupant. -/
theorem slotStep_endCycle (hWatching : machine.Watching) (accepts : NodeId → Bool)
    (node : NodeId) (position : List UInt32) :
    SlotStep circumstances event node position (machine.occupantAt node position)
      (slotLog node position (entriesOf circumstances.recording
        (departureDispatches (machine.occupancy.endCycle accepts).1)))
      ((machine.occupancy.endCycle accepts).2.occupantAt node position) := by
  rw [OccupancyTable.exits_at]
  unfold occupantAt OccupancyTable.occupantAt
  rw [OccupancyTable.get?_endCycle]
  cases hOccupancy : machine.occupancy.get? node with
  | none => exact .untouched none
  | some occupancy =>
      rw [Option.map_some, Option.bind_some, Option.bind_some, Option.elim_some]
      cases accepts node with
      | false => exact .untouched _
      | true =>
          rw [if_pos rfl, if_pos rfl, (hWatching.sound node occupancy hOccupancy).exits_at,
            Occupancy.occupantAt_endCycle]
          split
          · cases occupancy.occupantAt position with
            | none => exact .untouched none
            | some occupant =>
                obtain ⟨item, persistent, announced⟩ := occupant
                cases announced with
                | false => exact .departsUnseen item persistent
                | true => exact .departs item persistent
          · exact .untouched _

theorem synthesized_nowhere (hWatching : machine.Watching) (accepts : NodeId → Bool)
    (hUnwatched : machine.topology.Unwatched node) (position : List UInt32) (recording : Bool) :
    slotLog node position (entriesOf recording
      (departureDispatches (machine.occupancy.endCycle accepts).1)) = [] := by
  rw [OccupancyTable.exits_at]
  cases hOccupancy : machine.occupancy.get? node with
  | none => rfl
  | some occupancy =>
      exact absurd hUnwatched (Topology.not_unwatched (hWatching.autoflush hOccupancy))

theorem regular_beginCycle (hWatching : machine.Watching) (persistent : Bool)
    (accepts : NodeId → Bool) {command : Command} (number : UInt64)
    (hCommand : ∀ node position, changeAt? node position command = none) :
    machine.Regular circumstances event
      (machine.beginCycle persistent accepts command number) := by
  have hLog (node : NodeId) (position : List UInt32) :
      slotLog node position (entriesOf circumstances.recording
        (machine.beginCycle persistent accepts command number).dispatches)
        = slotLog node position (entriesOf circumstances.recording
            (departureDispatches (machine.occupancy.endCycle accepts).1)) := by
    have hMarker : slotLog node position
        (entriesOf circumstances.recording [⟨command, persistent, false⟩]) = [] := by
      apply slotLog_eq_nil
      intro sent hSent
      rw [List.mem_singleton.mp hSent]
      exact hCommand node position
    change slotLog node position (entriesOf circumstances.recording
      (departureDispatches (machine.occupancy.endCycle accepts).1 ++ _)) = _
    rw [entriesOf_append, slotLog_append, hMarker, List.append_nil]
  constructor
  · exact (hWatching.endCycle accepts).congr rfl rfl
  · intro autoflush node
    exact id
  · intro node position _
    rw [hLog]
    exact slotStep_endCycle hWatching accepts node position
  · intro node position hUnwatched entry hEntry
    rw [hLog, synthesized_nowhere hWatching accepts hUnwatched] at hEntry
    cases hEntry

theorem regulates_clockedCycle (hWatching : machine.Watching) (persistent : Bool)
    (cycle : ClockedCycle) :
    machine.Regulates circumstances event (machine.clockedCycle persistent cycle) := by
  apply regulates_bind
  intro _ _
  split
  · exact regulates_idle hWatching _
  · have hBegun := @regular_beginCycle _ circumstances event hWatching persistent
      (machine.inDomain cycle.clock) (.clockedCycle cycle) cycle.cycle fun _ _ => rfl
    exact regulates_ok ⟨hBegun.watching.congr rfl rfl, hBegun.marks, hBegun.slots,
      hBegun.elsewhere⟩

theorem regulates_startActivity (hWatching : machine.Watching) (persistent : Bool)
    (cycle : UInt64) :
    machine.Regulates circumstances event (.ok (machine.startActivity persistent cycle)) := by
  apply regulates_aside hWatching rfl (fun _ => rfl) fun _ _ => id
  intro sent hSent
  rcases List.mem_append.mp hSent with hArchive | hActivity
  · split at hArchive
    · rw [List.mem_singleton.mp hArchive]
      exact ⟨rfl, fun _ _ _ => rfl⟩
    · cases hArchive
  · rw [List.mem_singleton.mp hActivity]
    exact ⟨rfl, fun _ _ _ => rfl⟩

/-! ### All events -/

/-- Every event takes each slot of each autoflush node one step on. -/
theorem regulates_plan (hWatching : machine.Watching) (circumstances : Circumstances)
    (event : Event) :
    machine.Regulates circumstances event (machine.plan circumstances event) := by
  have hTold {plan : Plan} {command : Command} {persistent : Bool}
      (hOccupancy : plan.machine.occupancy = machine.occupancy)
      (hNodes : plan.machine.topology.nodes = machine.topology.nodes)
      (hDispatches : plan.dispatches = [⟨command, persistent, false⟩])
      (hCommand : ∀ node position, changeAt? node position command = none) :
      machine.Regulates circumstances event (.ok plan) :=
    regulates_told hWatching hOccupancy hNodes hDispatches hCommand
  cases event with
  | newNode declaration id => exact regulates_newNode hWatching _ declaration id
  | newEdge declaration id =>
      exact regulates_bind fun _ _ => hTold rfl rfl rfl fun _ _ => rfl
  | newClock declaration =>
      exact regulates_bind fun _ _ => hTold rfl rfl rfl fun _ _ => rfl
  | setLayout node dimensions => exact regulates_setLayout hWatching _ node dimensions
  | setClock node clock =>
      exact regulates_bind fun _ _ => regulates_bind fun _ _ =>
        regulates_modified hWatching node _ (fun _ => rfl) (fun _ => rfl) fun _ _ => rfl
  | setInputBandwidth node bandwidth =>
      exact regulates_bind fun _ _ =>
        regulates_modified hWatching node _ (fun _ => rfl) (fun _ => rfl) fun _ _ => rfl
  | setOutputBandwidth node bandwidth =>
      exact regulates_bind fun _ _ =>
        regulates_modified hWatching node _ (fun _ => rfl) (fun _ => rfl) fun _ _ => rfl
  | newItem id =>
      cases id with
      | none => exact hTold rfl rfl rfl fun _ _ => rfl
      | some id => exact regulates_bind fun _ _ => hTold rfl rfl rfl fun _ _ => rfl
  | deleteItem item => exact regulates_bind fun _ _ => hTold rfl rfl rfl fun _ _ => rfl
  | moveItems edge items positions => exact regulates_moveItems hWatching _ edge items positions
  | enterNode node item position => exact regulates_enterNode hWatching node item position
  | exitNode node item position => exact regulates_exitNode hWatching node item position
  | tagNode node tag value => exact regulates_tagNode hWatching node tag value
  | tagSlot node position tag value =>
      exact regulates_bind fun _ _ => regulates_bind fun _ _ => hTold rfl rfl rfl fun _ _ => rfl
  | tagItem item tag value =>
      exact regulates_bind fun _ _ => regulates_bind fun _ _ => hTold rfl rfl rfl fun _ _ => rfl
  | tagCycle tag value => exact regulates_bind fun _ _ => hTold rfl rfl rfl fun _ _ => rfl
  | describeTag tag description =>
      exact regulates_bind fun _ _ => regulates_bind fun _ _ => hTold rfl rfl rfl fun _ _ => rfl
  | cycle number => exact regulates_ok (regular_beginCycle hWatching _ _ number fun _ _ => rfl)
  | clockedCycle cycle => exact regulates_clockedCycle hWatching _ cycle
  | comment magic text => exact regulates_bind fun _ _ => hTold rfl rfl rfl fun _ _ => rfl
  | commentBytes magic data => exact regulates_bind fun _ _ => hTold rfl rfl rfl fun _ _ => rfl
  | startActivity cycle => exact regulates_startActivity hWatching _ cycle

end Plans
end Machine
end Recording
end CycleTrace
