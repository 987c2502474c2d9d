/-
Watched nodes and known nodes.

The table of slots and the topology are written by different calls: a node is
known when it is declared and watched when it gets a layout, and afterwards its
slots change with entries, exits, boundaries and new outputs. An accepted event
does at most one operation on the table, and the operation takes what it writes
from the topology and from checks. So the two stay in step, whatever is called.

Two things that could be done about a table out of step are never done. A
boundary asks about no node that the topology does not know, and an entry or an
exit that has been dispatched finds the slots that it was planned for.
-/

import CycleTrace.Lz4.StoredBlocks
import CycleTrace.Proofs.Recording.Generations
import CycleTrace.Proofs.Recording.KnownStructure
import CycleTrace.Proofs.Recording.Permitted
import CycleTrace.Proofs.Structure.Indexing

namespace CycleTrace

open Structure (Layout Topology)

namespace Structure.Topology

/-- Whether requested exits are allowed at a node, if it is known. -/
def relaxed? (topology : Topology) (id : NodeId) : Option Bool :=
  topology.nodes[id]?.map (·.relaxed)

theorem relaxed?_of_node {topology : Topology} {id : NodeId} {node : Node}
    (hNode : topology.nodes[id]? = some node) : topology.relaxed? id = some node.relaxed := by
  unfold relaxed?
  rw [hNode]
  rfl

theorem Keeps.relaxed? {topology later : Topology} (hKeeps : topology.Keeps later) {id : NodeId}
    {relaxed : Bool} (hRelaxed : topology.relaxed? id = some relaxed) :
    later.relaxed? id = some relaxed := by
  obtain ⟨node, hNode, rfl⟩ := Option.map_eq_some_iff.mp hRelaxed
  obtain ⟨revised, hRevised, hSame⟩ := hKeeps.nodes id node hNode
  rw [relaxed?_of_node hRevised, hSame.relaxed]

end Structure.Topology

namespace Recording

open Output (Directory stateAfter stateAfter_of_ok)

/-! ### The slots of a node -/

namespace Occupancy

variable {occupancy : Occupancy} {slot : UInt64}

/-- The occupied slots are slots of the layout, hold items, and are those that
were entered in the cycle before or in the cycle under way. -/
structure Tidy (occupancy : Occupancy) : Prop where
  below : ∀ slot ∈ occupancy.contents, slot < occupancy.layout.capacity
  named : ∀ (slot : UInt64) (occupant : Occupant), occupancy.contents[slot]? = some occupant →
    occupant.item ≠ noItem
  generations : ∀ slot,
    slot ∈ occupancy.contents ↔ slot ∈ occupancy.previous ∨ slot ∈ occupancy.current

theorem Regular.flatten_lt (hRegular : occupancy.Regular) {position : List UInt32}
    (hContains : occupancy.layout.Contains position) :
    occupancy.layout.flatten position < occupancy.layout.capacity := by
  rw [UInt64.lt_iff_toNat_lt, hRegular.proper.capacity]
  exact Layout.toNat_flatten_lt hRegular.sound.roomy hContains

theorem mem_contents_iff :
    slot ∈ occupancy.contents ↔ ∃ occupant, occupancy.contents[slot]? = some occupant := by
  rw [← Std.TreeMap.isSome_getElem?_iff_mem, Option.isSome_iff_exists]

/-- Who is in a slot is fresh or stale, and so one of the two generations has the slot. -/
theorem Notes.generations {housed : Option Resident} (hNotes : occupancy.Notes slot housed) :
    slot ∈ occupancy.contents ↔ slot ∈ occupancy.previous ∨ slot ∈ occupancy.current := by
  have hEither : slot ∈ occupancy.previous ∨ slot ∈ occupancy.current ↔
      slot ∈ occupancy.staleSlots ∨ slot ∈ occupancy.current := by
    rw [mem_staleSlots]
    tauto
  rw [hEither, hNotes.stale, hNotes.current, mem_contents_iff, hNotes.contents]
  cases housed with
  | none => simp
  | some resident =>
      obtain ⟨occupant, fresh⟩ := resident
      cases fresh with
      | false => simp
      | true => simp

theorem Regular.below (hRegular : occupancy.Regular) (hOccupied : slot ∈ occupancy.contents) :
    slot < occupancy.layout.capacity := by
  obtain ⟨occupant, hOccupant⟩ := mem_contents_iff.mp hOccupied
  obtain ⟨position, hContains, rfl⟩ := hRegular.sound.named slot occupant hOccupant
  exact hRegular.flatten_lt hContains

end Occupancy

/-! ### Operations of events -/

namespace TableOperation

/-- Nodes are registered with the flag that the topology has for them, and what
enters is an item. -/
def Sourced (topology : Topology) : TableOperation → Prop
  | .register node _ relaxed => topology.relaxed? node = some relaxed
  | .enter _ _ occupant => occupant.item ≠ noItem
  | .vacate _ _ | .forgetOutput | .endCycle _ => True

variable {topology : Topology} {table : OccupancyTable} {operation : TableOperation}

theorem named_run (hNamed : table.Named) (hSourced : operation.Sourced topology) :
    (operation.run table).Named := by
  cases operation with
  | register node layout relaxed => exact hNamed.register node layout relaxed
  | enter node slot occupant =>
      exact hNamed.modify node fun _ hOccupancy => hOccupancy.enter hSourced slot
  | vacate node slot => exact hNamed.modify node fun _ hOccupancy => hOccupancy.vacate slot
  | forgetOutput => exact hNamed.forgetOutput
  | endCycle accepts => exact hNamed.endCycle accepts

/-- The flag of a node is set when the node is registered, and by nothing else. -/
theorem relaxed_run {node : NodeId} {occupancy : Occupancy}
    (hRun : (operation.run table).get? node = some occupancy) :
    (∃ before, table.get? node = some before ∧ occupancy.relaxed = before.relaxed) ∨
      ∃ layout, operation = .register node layout occupancy.relaxed := by
  cases operation with
  | register other layout relaxed =>
      dsimp only [run] at hRun
      rw [OccupancyTable.get?_register] at hRun
      split at hRun
      · next hSame =>
          subst hSame
          cases hRun
          exact .inr ⟨layout, rfl⟩
      · exact .inl ⟨occupancy, hRun, rfl⟩
  | enter other slot occupant | vacate other slot =>
      dsimp only [run] at hRun
      rw [OccupancyTable.get?_modify] at hRun
      split at hRun
      · next hSame =>
          subst hSame
          obtain ⟨before, hBefore, rfl⟩ := Option.map_eq_some_iff.mp hRun
          exact .inl ⟨before, hBefore, rfl⟩
      · exact .inl ⟨occupancy, hRun, rfl⟩
  | forgetOutput =>
      dsimp only [run] at hRun
      rw [OccupancyTable.get?_forgetOutput] at hRun
      obtain ⟨before, hBefore, rfl⟩ := Option.map_eq_some_iff.mp hRun
      exact .inl ⟨before, hBefore, rfl⟩
  | endCycle accepts =>
      dsimp only [run] at hRun
      rw [OccupancyTable.get?_endCycle] at hRun
      obtain ⟨before, hBefore, rfl⟩ := Option.map_eq_some_iff.mp hRun
      refine .inl ⟨before, hBefore, ?_⟩
      split
      · rfl
      · rfl

end TableOperation

/-- A table after at most one operation, which fits it and has its source. -/
inductive OccupancyTable.Moved (topology : Topology) (table : OccupancyTable) :
    OccupancyTable → Prop
  | rests : Moved topology table table
  | runs (operation : TableOperation) (hFits : operation.Fits table)
      (hSourced : operation.Sourced topology) : Moved topology table (operation.run table)

/-! ### Machines -/

namespace Machine

variable {machine later : Machine} {circumstances : Circumstances} {event : Event} {plan : Plan}

/-- The table watches the autoflush nodes with a layout, by the layouts and the
flags that the topology has for them, and every node that it watches is tidy. -/
structure InStep (machine : Machine) : Prop where
  registered : ∀ (node : NodeId) (layout : Layout) (relaxed : Bool),
    (∃ occupancy, machine.occupancy.get? node = some occupancy ∧ occupancy.layout = layout ∧
      occupancy.relaxed = relaxed) ↔
    ∃ known, machine.topology.nodes[node]? = some known ∧ known.autoflush = true ∧
      known.layout = some layout ∧ known.relaxed = relaxed
  tidy : ∀ (node : NodeId) (occupancy : Occupancy),
    machine.occupancy.get? node = some occupancy → occupancy.Tidy

/-- What keeps the table in step: operations have led to it, no slot holds item
0, and the flags are those of the topology. -/
structure Tended (machine : Machine) : Prop where
  watching : machine.Watching
  followed : ∃ operations, machine.occupancy.Follows operations
  named : machine.occupancy.Named
  relaxed : ∀ (node : NodeId) (occupancy : Occupancy),
    machine.occupancy.get? node = some occupancy →
      machine.topology.relaxed? node = some occupancy.relaxed

theorem tended_initial (hTopology : machine.topology = {}) (hOccupancy : machine.occupancy = {}) :
    machine.Tended := by
  have hNone (node : NodeId) : machine.occupancy.get? node = none := by
    rw [hOccupancy]
    exact Std.TreeMap.getElem?_emptyc
  refine ⟨watching_initial hTopology hOccupancy, ⟨[], hOccupancy ▸ OccupancyTable.follows_empty⟩,
    fun node occupancy hTracked => ?_, fun node occupancy hTracked => ?_⟩
  all_goals
    rw [hNone] at hTracked
    cases hTracked

theorem Tended.regular (hTended : machine.Tended) {node : NodeId} {occupancy : Occupancy}
    (hTracked : machine.occupancy.get? node = some occupancy) : occupancy.Regular := by
  obtain ⟨_, hFollows⟩ := hTended.followed
  exact hFollows.regular node occupancy hTracked

/-- The slot of a position that was checked is one of a watched node. -/
theorem Tended.slot_fits (hTended : machine.Tended) {node : NodeId} {occupancy : Occupancy}
    (hTracked : machine.occupancy.get? node = some occupancy) {position : List UInt32}
    (hPosition : machine.topology.checkPosition node position = .ok ()) {slot : UInt64}
    (hSlot : slot = occupancy.layout.flatten position) :
    (machine.occupancy.get? node).any (fun occupancy => slot < occupancy.layout.capacity)
      = true := by
  have hContains := hTended.watching.contains hTracked hPosition
  rw [hTracked, Option.any_some, hSlot]
  exact decide_eq_true ((hTended.regular hTracked).flatten_lt hContains)

/-- An accepted event does at most one operation on the table. -/
theorem Accepts.moved (hAccepts : machine.Accepts circumstances event plan)
    (hTended : machine.Tended) :
    machine.occupancy.Moved machine.topology plan.machine.occupancy := by
  cases hAccepts with
  | @setLayout id dimensions layout node hChecked hNode =>
      obtain ⟨hLayout, _⟩ := Topology.ofDimensions_of_checkLayout hChecked
      obtain ⟨_, rfl, _⟩ := Topology.checkLayout_dimensions hChecked
      dsimp only [withLayout]
      split
      · exact .runs (.register id layout node.relaxed) hLayout
          (Topology.relaxed?_of_node (Topology.node_eq_ok hNode))
      · exact .rests
  | enterSlot hItem hPosition hWatched hSlot =>
      exact .runs (.enter _ _ _) (hTended.slot_fits hWatched hPosition hSlot)
        (checkItem_eq_ok hItem)
  | exitSlot _ hPosition hWatched hSlot =>
      exact .runs (.vacate _ _) (hTended.slot_fits hWatched hPosition hSlot) trivial
  | cycle => exact .runs (.endCycle fun _ => true) trivial trivial
  | @clockedCycle cycle plan hClock hNew hPlan =>
      subst hPlan
      exact .runs (.endCycle (machine.inDomain cycle.clock)) trivial trivial
  | tagNode =>
      dsimp only
      split
      · exact .rests
      · exact .rests
  | _ => exact .rests

/-- A machine stays tended when its topology grows, its table follows the
topology, and at most one operation is done on the table. -/
theorem Tended.moved (hTended : machine.Tended) (hWatching : later.Watching)
    (hKeeps : machine.topology.Keeps later.topology)
    (hMoved : machine.occupancy.Moved machine.topology later.occupancy) : later.Tended := by
  obtain ⟨operations, hFollows⟩ := hTended.followed
  generalize hTable : later.occupancy = table at hMoved
  cases hMoved with
  | rests =>
      refine ⟨hWatching, ⟨operations, hTable ▸ hFollows⟩, hTable ▸ hTended.named,
        fun node occupancy hTracked => ?_⟩
      rw [hTable] at hTracked
      exact hKeeps.relaxed? (hTended.relaxed node occupancy hTracked)
  | runs operation hFits hSourced =>
      refine ⟨hWatching, ⟨operations ++ [operation], hTable ▸ hFollows.run hFits⟩,
        hTable ▸ TableOperation.named_run hTended.named hSourced,
        fun node occupancy hTracked => hKeeps.relaxed? ?_⟩
      rw [hTable] at hTracked
      -- the flag is that of the topology before the step, which keeps it
      obtain ⟨before, hBefore, hSame⟩ | ⟨layout, rfl⟩ := TableOperation.relaxed_run hTracked
      · rw [hSame]
        exact hTended.relaxed node before hBefore
      · exact hSourced

theorem Tended.relaxed_eq (hTended : machine.Tended) {node : NodeId} {occupancy : Occupancy}
    (hTracked : machine.occupancy.get? node = some occupancy) {known : Structure.Node}
    (hKnown : machine.topology.nodes[node]? = some known) :
    known.relaxed = occupancy.relaxed := by
  have hRelaxed := hTended.relaxed node occupancy hTracked
  rw [Topology.relaxed?_of_node hKnown] at hRelaxed
  exact Option.some.inj hRelaxed

theorem Tended.inStep (hTended : machine.Tended) : machine.InStep := by
  obtain ⟨operations, hFollows⟩ := hTended.followed
  refine ⟨fun node layout relaxed => ⟨?_, ?_⟩, fun node occupancy hTracked => ?_⟩
  · rintro ⟨occupancy, hTracked, rfl, rfl⟩
    obtain ⟨known, hKnown, hAutoflush, hLayout⟩ := hTended.watching.of_get? hTracked
    exact ⟨known, hKnown, hAutoflush, hLayout, hTended.relaxed_eq hTracked hKnown⟩
  · rintro ⟨known, hKnown, hAutoflush, hLayout, rfl⟩
    have hWatched := hTended.watching.layouts node
    rw [Topology.watchedLayout?_of_node hKnown, if_pos hAutoflush, hLayout] at hWatched
    obtain ⟨occupancy, hTracked, hSame⟩ := Option.map_eq_some_iff.mp hWatched
    exact ⟨occupancy, hTracked, hSame, (hTended.relaxed_eq hTracked hKnown).symm⟩
  · exact ⟨fun _ => (hTended.regular hTracked).below,
      hTended.named node occupancy hTracked,
      fun slot => (hFollows.notes hTracked slot).generations⟩

end Machine

/-! ### Boundaries -/

/-- A boundary asks about watched nodes only. -/
theorem OccupancyTable.endCycle_congr {table : OccupancyTable} {accepts other : NodeId → Bool}
    (hAgree : ∀ (node : NodeId) (occupancy : Occupancy), table.get? node = some occupancy →
      accepts node = other node) :
    (table.endCycle accepts).1 = (table.endCycle other).1 ∧
      ∀ node, (table.endCycle accepts).2.get? node = (table.endCycle other).2.get? node := by
  constructor
  · refine List.flatMap_congr ?_
    rintro ⟨node, occupancy⟩ hListed
    dsimp only
    rw [hAgree node occupancy (Std.TreeMap.mem_toList_iff_getElem?_eq_some.mp hListed)]
  · intro node
    rw [get?_endCycle, get?_endCycle]
    cases hTracked : table.get? node with
    | none => rfl
    | some occupancy => rw [Option.map_some, Option.map_some, hAgree node occupancy hTracked]

/-- A test for a clock domain that is right about the nodes that the topology knows. -/
def Machine.Decides (machine : Machine) (clock : ClockId) (accepts : NodeId → Bool) : Prop :=
  ∀ (node : NodeId) (known : Structure.Node), machine.topology.nodes[node]? = some known →
    accepts node = (known.clock == clock)

theorem Machine.Tended.endCycle_inDomain {machine : Machine} (hTended : machine.Tended)
    {clock : ClockId} {accepts : NodeId → Bool} (hDecides : machine.Decides clock accepts) :
    (machine.occupancy.endCycle (machine.inDomain clock)).1
        = (machine.occupancy.endCycle accepts).1 ∧
      ∀ node, (machine.occupancy.endCycle (machine.inDomain clock)).2.get? node
        = (machine.occupancy.endCycle accepts).2.get? node := by
  refine OccupancyTable.endCycle_congr fun node occupancy hTracked => ?_
  obtain ⟨known, hKnown, _⟩ := hTended.watching.of_get? hTracked
  unfold inDomain
  rw [hKnown, hDecides node known hKnown]

/-! ### Recorders -/

namespace Recorder

variable [Lz4.Codec]

/-- Who enters a slot with a report: the item, and whether the output or the
next replay tells of the entry. -/
def entrant (recorder : Recorder) (occupancy : Occupancy) (item : ItemId)
    (position : List UInt32) (persistent : Bool) : Occupant :=
  { item
    persistent
    announced := occupancy.arrival (occupancy.layout.flatten position) item == .stays ||
      (recorder.circumstances persistent).kept }

/-- A report is granted and leaves the slots of a node like this. -/
def Leaves (recorder : Recorder) (event : Event) (persistent : Bool) (node : NodeId)
    (occupancy : Occupancy) : Prop :=
  ∃ next, perform (.report event persistent) recorder = .ok .done next ∧
    next.machine.occupancy.get? node = some occupancy

end Recorder

namespace History

variable [Lz4.Codec] {history : History}

theorem tended_after (hConsistent : history.Consistent)
    (hTended : history.recorder.machine.Tended) (call : Call) :
    (history.after call).recorder.machine.Tended := by
  have hSound : history.Sound := ⟨hConsistent, hTended.watching⟩
  refine hTended.moved (hSound.after call).watching (hConsistent.grows call).keeps ?_
  cases moves hConsistent call with
  | reports _ hPlan hMachine =>
      rw [hMachine]
      exact (Machine.accepts_of_plan hPlan).moved hTended
  | begins _ _ _ hOccupancy =>
      rw [hOccupancy]
      exact .runs .forgetOutput trivial trivial
  | rests _ _ hOccupancy =>
      rw [hOccupancy]
      exact .rests

theorem tended_afterAll (hConsistent : history.Consistent)
    (hTended : history.recorder.machine.Tended) (calls : List Call) :
    (history.afterAll calls).recorder.machine.Tended := by
  induction calls generalizing history with
  | nil => exact hTended
  | cons call calls ih =>
      exact ih (hConsistent.after call) (tended_after hConsistent hTended call)

/-- What is dispatched, whatever it is, changes no slots. -/
theorem Consistent.machine_dispatched (hConsistent : history.Consistent) (sent : List Dispatch) :
    (stateAfter (sent.forM Recorder.dispatch history.recorder)).machine
      = history.recorder.machine := by
  rw [stateAfter_of_ok (Recorder.dispatchAll hConsistent.isOpen sent)]
  rfl

/-- A granted entry puts the item into the slots that it was planned for. -/
theorem Consistent.leaves_entry (hConsistent : history.Consistent) {node : NodeId}
    {occupancy : Occupancy}
    (hTracked : history.recorder.machine.occupancy.get? node = some occupancy)
    {item : ItemId} {position : List UInt32} {persistent : Bool} {plan : Plan}
    (hPlan : history.recorder.planned (.enterNode node item position) persistent = .ok plan) :
    history.recorder.Leaves (.enterNode node item position) persistent node
      (occupancy.enter (occupancy.layout.flatten position)
        (history.recorder.entrant occupancy item position persistent)) := by
  obtain ⟨next, hReport, hMachine⟩ := hConsistent.answer_report hPlan
  cases Machine.accepts_of_plan hPlan with
  | enterUnwatched _ _ hUnwatched =>
      rw [hTracked] at hUnwatched
      cases hUnwatched
  | enterSlot _ _ hWatched hSlot hAnnounced =>
      cases hTracked.symm.trans hWatched
      subst hSlot hAnnounced
      refine ⟨next, hReport, ?_⟩
      rw [hMachine, OccupancyTable.get?_modify, if_pos rfl, hTracked]
      rfl

/-- A granted exit empties the slot that it was planned for. -/
theorem Consistent.leaves_exit (hConsistent : history.Consistent) {node : NodeId}
    {occupancy : Occupancy}
    (hTracked : history.recorder.machine.occupancy.get? node = some occupancy)
    {item : ItemId} {position : List UInt32} {persistent : Bool} {plan : Plan}
    (hPlan : history.recorder.planned (.exitNode node item position) persistent = .ok plan) :
    history.recorder.Leaves (.exitNode node item position) persistent node
      (occupancy.vacate (occupancy.layout.flatten position)) := by
  obtain ⟨next, hReport, hMachine⟩ := hConsistent.answer_report hPlan
  cases Machine.accepts_of_plan hPlan with
  | exitUnwatched _ _ hUnwatched =>
      rw [hTracked] at hUnwatched
      cases hUnwatched
  | exitSlot _ _ hWatched hSlot _ =>
      cases hTracked.symm.trans hWatched
      subst hSlot
      refine ⟨next, hReport, ?_⟩
      rw [hMachine, OccupancyTable.get?_modify, if_pos rfl, hTracked]
      rfl

/-- A boundary of a clock domain is the one that any test of the domain gives. -/
theorem boundary_decided (hTended : history.recorder.machine.Tended)
    {cycle : ClockedCycle} {persistent : Bool} {accepts : NodeId → Bool} {plan : Plan}
    (hDecides : history.recorder.machine.Decides cycle.clock accepts)
    (hNew : history.recorder.machine.lastClockedCycle ≠ some cycle)
    (hPlan : history.recorder.planned (.clockedCycle cycle) persistent = .ok plan) :
    plan.dispatches
        = Machine.departureDispatches (history.recorder.machine.occupancy.endCycle accepts).1
          ++ [⟨.clockedCycle cycle, persistent, false⟩] ∧
      ∀ node, plan.machine.occupancy.get? node
        = (history.recorder.machine.occupancy.endCycle accepts).2.get? node := by
  obtain ⟨hDepartures, hSlots⟩ := hTended.endCycle_inDomain hDecides
  cases Machine.accepts_of_plan hPlan with
  -- a cycle that is told twice in a row is no boundary
  | repeatedCycle _ hRepeated => exact absurd hRepeated hNew
  | clockedCycle _ _ hBegun =>
      subst hBegun
      rw [← hDepartures]
      exact ⟨rfl, hSlots⟩

end History

namespace Recorder

/-- The table of slots and the topology are in step, whatever was called. So the
answer that a boundary has for nodes that the topology does not know is never
asked for: with any other answer, the same items leave, and the same slots
remain. And the slots that an entry or an exit was planned for are still there
after whatever is dispatched for it, so it is never left undone. -/
theorem watched_in_step [Lz4.Codec] (settings : Settings) (directory : Directory)
    (calls : List Call) :
    let recorder := (ofSettings settings directory).afterCalls calls
    recorder.machine.InStep ∧
    (∀ cycle persistent plan accepts, recorder.machine.Decides cycle.clock accepts →
      recorder.machine.lastClockedCycle ≠ some cycle →
      recorder.planned (.clockedCycle cycle) persistent = .ok plan →
      plan.dispatches
          = Machine.departureDispatches (recorder.machine.occupancy.endCycle accepts).1
            ++ [⟨.clockedCycle cycle, persistent, false⟩] ∧
        ∀ node, plan.machine.occupancy.get? node
          = (recorder.machine.occupancy.endCycle accepts).2.get? node) ∧
    ∀ node occupancy, recorder.machine.occupancy.get? node = some occupancy →
      (∀ sent : List Dispatch,
        (stateAfter (sent.forM dispatch recorder)).machine.occupancy.get? node
          = some occupancy) ∧
      ∀ item position persistent plan,
        (recorder.planned (.enterNode node item position) persistent = .ok plan →
          recorder.Leaves (.enterNode node item position) persistent node
            (occupancy.enter (occupancy.layout.flatten position)
              (recorder.entrant occupancy item position persistent))) ∧
        (recorder.planned (.exitNode node item position) persistent = .ok plan →
          recorder.Leaves (.exitNode node item position) persistent node
            (occupancy.vacate (occupancy.layout.flatten position))) := by
  intro recorder
  have hStart := History.consistent_start settings directory
  have hConsistent := hStart.afterAll calls
  have hTended := History.tended_afterAll hStart (Machine.tended_initial rfl rfl) calls
  have hRecorder : ((History.start settings directory).afterAll calls).recorder = recorder :=
    History.recorder_afterAll _ calls
  rw [← hRecorder]
  refine ⟨hTended.inStep, fun cycle persistent plan accepts hDecides hNew hPlan => ?_,
    fun node occupancy hTracked => ⟨fun sent => ?_, fun item position persistent plan => ?_⟩⟩
  · exact History.boundary_decided hTended hDecides hNew hPlan
  · rw [hConsistent.machine_dispatched]
    exact hTracked
  · exact ⟨hConsistent.leaves_entry hTracked, hConsistent.leaves_exit hTracked⟩

/-- Two watched nodes, of which one is relaxed and in a clock domain of its own.
That node has an occupant from before the last boundary and one from after it. -/
def watchedDomains : List Call :=
  [.report (.newClock { frequency := 1000, name := "core" }) true,
    .report (.newNode { name := "queue", autoflush := true, relaxed := true } (some 3)) true,
    .report (.newNode { name := "stage", autoflush := true } (some 5)) true,
    .report (.setLayout 3 [2, 2]) true, .report (.setLayout 5 [4]) true,
    .report (.setClock 3 1) true, .report (.enterNode 3 7 [1, 0]) true,
    .report (.enterNode 5 4 [2]) true, .report (.clockedCycle ⟨1, 1, .high⟩) true,
    .report (.enterNode 3 8 [0, 1]) false]

/-- The domain of the relaxed node ends a cycle in the same way with a test that
accepts all unknown nodes. -/
theorem watched_in_step_domains :
    let recorder := (ofSettings {} {}).afterCalls watchedDomains
    (∃ occupancy, recorder.machine.occupancy.get? 3 = some occupancy ∧
      occupancy.layout = ⟨[2, 2], 4⟩ ∧ occupancy.relaxed = true ∧ occupancy.Tidy ∧
      occupancy.contents.keys = [1, 2] ∧
      recorder.Leaves (.enterNode 3 9 [1, 1]) true 3 (occupancy.enter 3 ⟨9, true, true⟩) ∧
      recorder.Leaves (.exitNode 3 8 [0, 1]) false 3 (occupancy.vacate 1)) ∧
    ∃ plan, recorder.planned (.clockedCycle ⟨1, 2, .high⟩) false = .ok plan ∧
      plan.dispatches = Machine.departureDispatches
          (recorder.machine.occupancy.endCycle (· != 5)).1
        ++ [⟨.clockedCycle ⟨1, 2, .high⟩, false, false⟩] ∧
      plan.dispatches = [⟨.exitNode 3 7 [1, 0], true, true⟩,
        ⟨.clockedCycle ⟨1, 2, .high⟩, false, false⟩] := by
  intro recorder
  obtain ⟨hInStep, hBoundary, hSlots⟩ := watched_in_step {} {} watchedDomains
  have hPlanned {event : Event} {persistent : Bool}
      (hReply : (recorder.planned event persistent).map (·.reply) = .ok .done) :
      ∃ plan, recorder.planned event persistent = .ok plan := by
    cases hPlan : recorder.planned event persistent with
    | error fault =>
        rw [hPlan] at hReply
        cases hReply
    | ok plan => exact ⟨plan, rfl⟩
  constructor
  · have hFlags : recorder.machine.topology.nodes[(3 : NodeId)]?.map
        (fun known => (known.autoflush, known.layout, known.relaxed))
          = some (true, some ⟨[2, 2], 4⟩, true) := by decide +kernel
    obtain ⟨known, hKnown, hFlag⟩ := Option.map_eq_some_iff.mp hFlags
    obtain ⟨hAutoflush, hRest⟩ := Prod.mk.inj hFlag
    obtain ⟨hLayout, hRelaxed⟩ := Prod.mk.inj hRest
    obtain ⟨occupancy, hTracked, hSame, hFlag⟩ :=
      (hInStep.registered 3 _ _).mpr ⟨known, hKnown, hAutoflush, hLayout, hRelaxed⟩
    obtain ⟨_, hReports⟩ := hSlots 3 occupancy hTracked
    obtain ⟨entry, hEntry⟩ : ∃ plan, recorder.planned (.enterNode 3 9 [1, 1]) true = .ok plan :=
      hPlanned (by decide +kernel)
    obtain ⟨exit, hExit⟩ : ∃ plan, recorder.planned (.exitNode 3 8 [0, 1]) false = .ok plan :=
      hPlanned (by decide +kernel)
    have hKeys : (recorder.machine.occupancy.get? 3).map (·.contents.keys) = some [1, 2] := by
      decide +kernel
    rw [hTracked] at hKeys
    have hEntrant : recorder.entrant occupancy 9 [1, 1] true = ⟨9, true, true⟩ := by
      simp [entrant, circumstances, Circumstances.kept]
    refine ⟨occupancy, hTracked, hSame, hFlag, hInStep.tidy 3 occupancy hTracked,
      Option.some.inj hKeys, ?_, ?_⟩
    · have hLeaves := (hReports 9 [1, 1] true entry).1 hEntry
      rw [hEntrant, hSame] at hLeaves
      exact hLeaves
    · have hLeaves := (hReports 8 [0, 1] false exit).2 hExit
      rw [hSame] at hLeaves
      exact hLeaves
  · have hDecides : recorder.machine.Decides 1 (· != 5) := by
      have hListed : ∀ entry ∈ recorder.machine.topology.nodes.toList,
          (entry.1 != 5) = (entry.2.clock == 1) := by decide +kernel
      intro node known hKnown
      exact hListed (node, known) (Std.TreeMap.mem_toList_iff_getElem?_eq_some.mpr hKnown)
    have hNew : recorder.machine.lastClockedCycle ≠ some ⟨1, 2, .high⟩ := by decide +kernel
    have hReply : (recorder.planned (.clockedCycle ⟨1, 2, .high⟩) false).map (·.reply)
        = .ok .done := by decide +kernel
    obtain ⟨plan, hPlan⟩ := hPlanned hReply
    obtain ⟨hDispatches, _⟩ := hBoundary _ _ _ _ hDecides hNew hPlan
    refine ⟨plan, hPlan, hDispatches, hDispatches.trans ?_⟩
    decide +kernel

end Recorder
end Recording
end CycleTrace
