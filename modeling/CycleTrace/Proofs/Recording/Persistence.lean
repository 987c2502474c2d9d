/-
Occupants that every output knows.

As long as all reports are persistent, every occupant of a watched slot is
announced and persistent, whether or not an output was open when it entered.
An output that is begun later knows it from the replay. So forgetting the old
output changes nothing, and what an event leads to does not depend on whether
it is being recorded.
-/

import CycleTrace.Proofs.Recording.Plans
import Mathlib.Data.List.Basic

namespace CycleTrace
namespace Recording

/-- An ordered map whose values a change leaves as they are. -/
private theorem map_eq_self {α β : Type} [Ord α] [Std.TransOrd α] [Std.LawfulEqOrd α]
    {change : α → β → β} {entries : Std.TreeMap α β}
    (hSame : ∀ key value, entries[key]? = some value → change key value = value) :
    entries.map change = entries := by
  -- the maps hold the same entries, but machines are compared as they are built
  have hTree (tree : Std.DTreeMap.Internal.Impl α fun _ => β)
      (hListed : ∀ entry ∈ tree.toListModel, change entry.1 entry.2 = entry.2) :
      tree.map change = tree := by
    induction tree with
    | leaf => rfl
    | inner size key value left right ihLeft ihRight =>
        simp only [Std.DTreeMap.Internal.Impl.toListModel_inner, List.forall_mem_append,
          List.forall_mem_cons] at hListed
        obtain ⟨hLeft, hHere, hRight⟩ := hListed
        change Std.DTreeMap.Internal.Impl.inner size key (change key value) (left.map change)
          (right.map change) = _
        rw [ihLeft hLeft, ihRight hRight, hHere]
  have hEntries : entries.inner.inner.map change = entries.inner.inner := by
    apply hTree
    intro entry hEntry
    apply hSame
    rw [← Std.TreeMap.mem_toList_iff_getElem?_eq_some]
    change _ ∈ Std.DTreeMap.Internal.Impl.Const.toList entries.inner.inner
    rw [Std.DTreeMap.Internal.Impl.Const.toList_eq_toListModel_map]
    exact List.mem_map_of_mem hEntry
  obtain ⟨⟨tree, hWellFormed⟩⟩ := entries
  change (⟨⟨tree.map change, _⟩⟩ : Std.TreeMap α β) = ⟨⟨tree, hWellFormed⟩⟩
  congr

namespace Occupancy

/-- Every occupant is announced and persistent. -/
def Known (occupancy : Occupancy) : Prop :=
  ∀ (slot : UInt64) (occupant : Occupant), occupancy.contents[slot]? = some occupant →
    occupant.announced = true ∧ occupant.persistent = true

theorem known_of_empty {occupancy : Occupancy} (hEmpty : occupancy.contents = {}) :
    occupancy.Known := by
  intro slot occupant hOccupant
  simp [hEmpty] at hOccupant

theorem Known.forgetOutput {occupancy : Occupancy} (hKnown : occupancy.Known) :
    occupancy.forgetOutput = occupancy := by
  have hContents : occupancy.contents.map (fun _ occupant =>
      { occupant with announced := occupant.announced && occupant.persistent })
      = occupancy.contents := by
    apply map_eq_self
    intro slot occupant hOccupant
    obtain ⟨hAnnounced, hPersistent⟩ := hKnown slot occupant hOccupant
    obtain ⟨item, persistent, announced⟩ := occupant
    cases hAnnounced
    cases hPersistent
    rfl
  unfold Occupancy.forgetOutput
  rw [hContents]

theorem Known.enter {occupancy : Occupancy} (hKnown : occupancy.Known) (slot : UInt64)
    (item : ItemId) : (occupancy.enter slot ⟨item, true, true⟩).Known := by
  intro other occupant hOccupant
  simp only [Occupancy.enter, Std.TreeMap.getElem?_insert] at hOccupant
  split at hOccupant
  · cases hOccupant
    exact ⟨rfl, rfl⟩
  · exact hKnown other occupant hOccupant

theorem contents_of_erase {contents : Std.TreeMap UInt64 Occupant} {slot erased : UInt64}
    {occupant : Occupant} (hOccupant : (contents.erase erased)[slot]? = some occupant) :
    contents[slot]? = some occupant := by
  rw [Std.TreeMap.getElem?_erase] at hOccupant
  split at hOccupant
  · cases hOccupant
  · exact hOccupant

theorem Known.vacate {occupancy : Occupancy} (hKnown : occupancy.Known) (slot : UInt64) :
    (occupancy.vacate slot).Known := by
  intro other occupant hOccupant
  exact hKnown other occupant (contents_of_erase hOccupant)

theorem contents_of_eraseAll {contents : Std.TreeMap UInt64 Occupant} {slots : List UInt64}
    {slot : UInt64} {occupant : Occupant}
    (hOccupant : (slots.foldl (fun contents slot => contents.erase slot) contents)[slot]?
      = some occupant) : contents[slot]? = some occupant := by
  induction slots generalizing contents with
  | nil => exact hOccupant
  | cons erased slots ih => exact contents_of_erase (ih hOccupant)

theorem Known.endCycle {occupancy : Occupancy} (hKnown : occupancy.Known) :
    occupancy.endCycle.2.Known := by
  intro slot occupant hOccupant
  exact hKnown slot occupant (contents_of_eraseAll hOccupant)

/-- Known occupants leave as persistent ones. -/
theorem Known.departures {occupancy : Occupancy} (hKnown : occupancy.Known) :
    ∀ departure ∈ occupancy.endCycle.1, departure.persistent = true := by
  intro departure hDeparture
  obtain ⟨slot, -, hSlot⟩ := List.mem_filterMap.mp hDeparture
  unfold departure? at hSlot
  split at hSlot
  · next item persistent hContents =>
      cases hSlot
      exact (hKnown slot _ hContents).2
  · cases hSlot

/-- A known occupant that is replaced leaves as a persistent one. -/
theorem Known.arrival {occupancy : Occupancy} (hKnown : occupancy.Known) {slot : UInt64}
    {item evicted : ItemId} {persistent : Bool}
    (hArrival : occupancy.arrival slot item = .replaces evicted persistent) :
    persistent = true := by
  unfold Occupancy.arrival at hArrival
  split at hArrival
  · cases hArrival
  · next occupant hContents =>
      split at hArrival
      · cases hArrival
      · split at hArrival
        · cases hArrival
        · cases hArrival
          exact (hKnown slot occupant hContents).2

end Occupancy

namespace OccupancyTable

/-- Every occupant of every watched node is announced and persistent. -/
def Known (table : OccupancyTable) : Prop :=
  ∀ (node : NodeId) (occupancy : Occupancy), table.nodes[node]? = some occupancy →
    occupancy.Known

theorem known_empty : ({} : OccupancyTable).Known := by
  intro node occupancy hOccupancy
  simp at hOccupancy

theorem Known.forgetOutput {table : OccupancyTable} (hKnown : table.Known) :
    table.forgetOutput = table := by
  have hNodes : table.nodes.map (fun _ occupancy => occupancy.forgetOutput) = table.nodes := by
    apply map_eq_self
    intro node occupancy hOccupancy
    exact (hKnown node occupancy hOccupancy).forgetOutput
  unfold OccupancyTable.forgetOutput
  rw [hNodes]

theorem Known.register {table : OccupancyTable} (hKnown : table.Known) (node : NodeId)
    (layout : Structure.Layout) (relaxed : Bool) :
    (table.register node layout relaxed).Known := by
  intro other occupancy hOccupancy
  simp only [OccupancyTable.register, Std.TreeMap.getElem?_insert] at hOccupancy
  split at hOccupancy
  · cases hOccupancy
    exact Occupancy.known_of_empty rfl
  · exact hKnown other occupancy hOccupancy

theorem Known.modify {table : OccupancyTable} (hKnown : table.Known) (node : NodeId)
    {change : Occupancy → Occupancy}
    (hChange : ∀ occupancy : Occupancy, occupancy.Known → (change occupancy).Known) :
    (table.modify node change).Known := by
  intro other occupancy hOccupancy
  simp only [OccupancyTable.modify, Std.TreeMap.getElem?_modify] at hOccupancy
  split at hOccupancy
  · obtain ⟨before, hBefore, rfl⟩ := Option.map_eq_some_iff.mp hOccupancy
    exact hChange before (hKnown node before hBefore)
  · exact hKnown other occupancy hOccupancy

theorem Known.endCycle {table : OccupancyTable} (hKnown : table.Known)
    (accepts : NodeId → Bool) : (table.endCycle accepts).2.Known := by
  intro node occupancy hOccupancy
  simp only [OccupancyTable.endCycle, Std.TreeMap.getElem?_map] at hOccupancy
  obtain ⟨before, hBefore, rfl⟩ := Option.map_eq_some_iff.mp hOccupancy
  have hNode := hKnown node before hBefore
  split
  · exact hNode.endCycle
  · exact hNode

theorem Known.departures {table : OccupancyTable} (hKnown : table.Known)
    (accepts : NodeId → Bool) :
    ∀ leaving ∈ (table.endCycle accepts).1, leaving.2.persistent = true := by
  intro leaving hLeaving
  obtain ⟨⟨node, occupancy⟩, hListed, hNode⟩ := List.mem_flatMap.mp hLeaving
  dsimp only at hNode
  split at hNode
  · obtain ⟨departure, hDeparture, rfl⟩ := List.mem_map.mp hNode
    have hOccupancy := Std.TreeMap.mem_toList_iff_getElem?_eq_some.mp hListed
    exact (hKnown node occupancy hOccupancy).departures departure hDeparture
  · cases hNode

end OccupancyTable

/-! ### Plans -/

/-- What the plan of a persistent event has in common with those of all others:
the occupants stay known, all dispatches are persistent, and values of tags are
remembered only where repetitions are suppressed. -/
structure Plan.Persistent (plan : Plan) (machine : Machine) (suppressed : Bool) : Prop where
  known : plan.machine.occupancy.Known
  dispatches : ∀ sent ∈ plan.dispatches, sent.persistent = true
  tagMemory : suppressed = false → plan.machine.tagMemory = machine.tagMemory

namespace Machine

/-- An event is refused, or its plan is persistent. -/
def Persists (machine : Machine) (suppressed : Bool) (result : Except Fault Plan) : Prop :=
  ∀ plan, result = .ok plan → plan.Persistent machine suppressed

section Plans

variable {machine : Machine} {suppressed : Bool}

theorem persists_bind {α : Type} {checked : Except Fault α} {next : α → Except Fault Plan}
    (hNext : ∀ value, machine.Persists suppressed (next value)) :
    machine.Persists suppressed (checked >>= next) := by
  intro plan hPlan
  cases checked with
  | error fault => cases hPlan
  | ok value => exact hNext value plan hPlan

theorem persists_ok {plan : Plan} (hPlan : plan.Persistent machine suppressed) :
    machine.Persists suppressed (.ok plan) := by
  intro other hOther
  cases hOther
  exact hPlan

/-- Plans that leave the slots and the memory of tags alone. -/
theorem persists_aside {plan : Plan} (hKnown : machine.occupancy.Known)
    (hOccupancy : plan.machine.occupancy = machine.occupancy)
    (hTagMemory : plan.machine.tagMemory = machine.tagMemory)
    (hDispatches : ∀ sent ∈ plan.dispatches, sent.persistent = true) :
    machine.Persists suppressed (.ok plan) := by
  apply persists_ok
  constructor
  · rw [hOccupancy]
    exact hKnown
  · exact hDispatches
  · intro _
    exact hTagMemory

/-- Plans that do so and dispatch one command. -/
theorem persists_told {plan : Plan} {command : Command} (hKnown : machine.occupancy.Known)
    (hOccupancy : plan.machine.occupancy = machine.occupancy)
    (hTagMemory : plan.machine.tagMemory = machine.tagMemory)
    (hDispatches : plan.dispatches = [⟨command, true, false⟩]) :
    machine.Persists suppressed (.ok plan) := by
  apply persists_aside hKnown hOccupancy hTagMemory
  intro sent hSent
  rw [hDispatches, List.mem_singleton] at hSent
  rw [hSent]

theorem persists_setLayout (hKnown : machine.occupancy.Known) (node : NodeId)
    (dimensions : List UInt32) :
    machine.Persists suppressed (machine.setLayout true node dimensions) := by
  apply persists_bind
  intro layout
  apply persists_bind
  intro known
  apply persists_ok
  constructor
  · dsimp only
    split
    · exact hKnown.register node layout known.relaxed
    · exact hKnown
  · intro sent hSent
    rw [List.mem_singleton.mp hSent]
  · intro _
    rfl

theorem persists_moveItems (hKnown : machine.occupancy.Known) (edge : EdgeId)
    (items : List ItemId) (positions : List UInt32) :
    machine.Persists suppressed (machine.moveItems true edge items positions) := by
  apply persists_bind
  intro _
  split
  · exact persists_aside hKnown rfl rfl fun sent hSent => nomatch hSent
  · exact persists_told hKnown rfl rfl rfl

theorem kept_persistent (recording suppressed : Bool) :
    (Circumstances.mk recording true suppressed).kept = true :=
  Bool.or_true recording

theorem persistent_arrivalDispatches {occupancy : Occupancy} (hKnown : occupancy.Known)
    {slot : UInt64} {node : NodeId} {item : ItemId} {position : List UInt32} :
    ∀ sent ∈ arrivalDispatches (occupancy.arrival slot item) true node item position,
      sent.persistent = true := by
  intro sent hSent
  cases hArrival : occupancy.arrival slot item with
  | stays =>
      rw [hArrival] at hSent
      cases hSent
  | enters =>
      rw [hArrival] at hSent
      rw [List.mem_singleton.mp hSent]
  | replaces evicted persistent =>
      rw [hArrival] at hSent
      rcases List.mem_cons.mp hSent with rfl | hEntry
      · exact hKnown.arrival hArrival
      · rw [List.mem_singleton.mp hEntry]

theorem persists_enterNode (hKnown : machine.occupancy.Known) (recording : Bool) (node : NodeId)
    (item : ItemId) (position : List UInt32) :
    machine.Persists suppressed
      (machine.enterNode ⟨recording, true, suppressed⟩ node item position) := by
  apply persists_bind
  intro _
  apply persists_bind
  intro _
  dsimp only
  split
  · exact persists_told hKnown rfl rfl rfl
  · next occupancy hOccupancy =>
      apply persists_ok
      constructor
      · apply hKnown.modify
        intro before hBefore
        rw [kept_persistent, Bool.or_true]
        exact hBefore.enter _ item
      · exact persistent_arrivalDispatches (hKnown node occupancy hOccupancy)
      · intro _
        rfl

theorem persists_exitNode (hKnown : machine.occupancy.Known) (node : NodeId) (item : ItemId)
    (position : List UInt32) :
    machine.Persists suppressed (machine.exitNode true node item position) := by
  apply persists_bind
  intro _
  apply persists_bind
  intro _
  dsimp only
  split
  · exact persists_told hKnown rfl rfl rfl
  · apply persists_bind
    intro _
    apply persists_ok
    constructor
    · exact hKnown.modify node fun before hBefore => hBefore.vacate _
    · intro sent hSent
      rw [List.mem_singleton.mp hSent]
    · intro _
      rfl

theorem persists_tagNode (hKnown : machine.occupancy.Known) (recording : Bool) (node : NodeId)
    (tag : String) (value : TagValue) :
    machine.Persists suppressed
      (machine.tagNode ⟨recording, true, suppressed⟩ node tag value) := by
  apply persists_bind
  intro _
  apply persists_bind
  intro _
  split
  · exact persists_aside hKnown rfl rfl fun sent hSent => nomatch hSent
  · apply persists_ok
    constructor
    · dsimp only
      split
      · exact hKnown
      · exact hKnown
    · intro sent hSent
      rw [List.mem_singleton.mp hSent]
    · intro hTelling
      rw [hTelling, Bool.and_false, if_neg Bool.false_ne_true]

theorem persistent_beginCycle (hKnown : machine.occupancy.Known) (accepts : NodeId → Bool)
    (command : Command) (number : UInt64) :
    (machine.beginCycle true accepts command number).Persistent machine suppressed := by
  constructor
  · exact hKnown.endCycle accepts
  · intro sent hSent
    rcases List.mem_append.mp hSent with hDeparting | hCycle
    · obtain ⟨leaving, hLeaving, rfl⟩ := List.mem_map.mp hDeparting
      exact hKnown.departures accepts leaving hLeaving
    · rw [List.mem_singleton.mp hCycle]
  · intro _
    rfl

theorem persists_clockedCycle (hKnown : machine.occupancy.Known) (cycle : ClockedCycle) :
    machine.Persists suppressed (machine.clockedCycle true cycle) := by
  apply persists_bind
  intro _
  split
  · exact persists_aside hKnown rfl rfl fun sent hSent => nomatch hSent
  · have hBegun := @persistent_beginCycle _ suppressed hKnown (machine.inDomain cycle.clock)
      (.clockedCycle cycle) cycle.cycle
    exact persists_ok ⟨hBegun.known, hBegun.dispatches, hBegun.tagMemory⟩

theorem persists_startActivity (hKnown : machine.occupancy.Known) (cycle : UInt64) :
    machine.Persists suppressed (.ok (machine.startActivity true cycle)) := by
  apply persists_aside hKnown rfl rfl
  intro sent hSent
  rcases List.mem_append.mp hSent with hArchive | hActivity
  · split at hArchive
    · rw [List.mem_singleton.mp hArchive]
    · cases hArchive
  · rw [List.mem_singleton.mp hActivity]

theorem persists_plan (hKnown : machine.occupancy.Known) (recording : Bool) (event : Event) :
    machine.Persists suppressed (machine.plan ⟨recording, true, suppressed⟩ event) := by
  cases event with
  | newNode declaration id =>
      exact persists_bind fun id => persists_told hKnown rfl rfl rfl
  | newEdge declaration id =>
      exact persists_bind fun id => persists_told hKnown rfl rfl rfl
  | newClock declaration =>
      exact persists_bind fun id => persists_told hKnown rfl rfl rfl
  | setLayout node dimensions => exact persists_setLayout hKnown node dimensions
  | setClock node clock =>
      exact persists_bind fun _ => persists_bind fun _ => persists_told hKnown rfl rfl rfl
  | setInputBandwidth node bandwidth =>
      exact persists_bind fun _ => persists_told hKnown rfl rfl rfl
  | setOutputBandwidth node bandwidth =>
      exact persists_bind fun _ => persists_told hKnown rfl rfl rfl
  | newItem id =>
      cases id with
      | none => exact persists_told hKnown rfl rfl rfl
      | some id => exact persists_bind fun _ => persists_told hKnown rfl rfl rfl
  | deleteItem item => exact persists_bind fun _ => persists_told hKnown rfl rfl rfl
  | moveItems edge items positions => exact persists_moveItems hKnown edge items positions
  | enterNode node item position =>
      exact persists_enterNode hKnown recording node item position
  | exitNode node item position => exact persists_exitNode hKnown node item position
  | tagNode node tag value => exact persists_tagNode hKnown recording node tag value
  | tagSlot node position tag value =>
      exact persists_bind fun _ => persists_bind fun _ => persists_told hKnown rfl rfl rfl
  | tagItem item tag value =>
      exact persists_bind fun _ => persists_bind fun _ => persists_told hKnown rfl rfl rfl
  | tagCycle tag value => exact persists_bind fun _ => persists_told hKnown rfl rfl rfl
  | describeTag tag description =>
      exact persists_bind fun _ => persists_bind fun _ => persists_told hKnown rfl rfl rfl
  | cycle number => exact persists_ok (persistent_beginCycle hKnown _ _ _)
  | clockedCycle cycle => exact persists_clockedCycle hKnown cycle
  | comment magic text => exact persists_bind fun _ => persists_told hKnown rfl rfl rfl
  | commentBytes magic data => exact persists_bind fun _ => persists_told hKnown rfl rfl rfl
  | startActivity cycle => exact persists_startActivity hKnown cycle

end Plans

/-- What a persistent event leads to does not depend on whether it is recorded. -/
theorem plan_recording (machine : Machine) (recording other suppressed : Bool) (event : Event) :
    machine.plan ⟨recording, true, suppressed⟩ event
      = machine.plan ⟨other, true, suppressed⟩ event := by
  cases event
  case enterNode => simp only [plan, enterNode, kept_persistent]
  case tagNode => simp only [plan, tagNode, kept_persistent]
  all_goals rfl

end Machine
end Recording
end CycleTrace
