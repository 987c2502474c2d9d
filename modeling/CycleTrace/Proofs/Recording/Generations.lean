/-
Occupants and the cycles they were entered in.

A watched node does not note when its occupants were entered. It has the slots
that were entered in the cycle under way and those that were entered in the
cycle before, and the occupied slots are these together. `Resident` is the same
with a note for each occupant, and `Occupancy.Notes` says that the sets agree
with it. So a boundary empties the slots that were not entered since the last
one, and tells of the occupants that are announced.

A node knows nothing of the others. What happens at it is told by the
operations on it and the boundaries that accept it.
-/

import CycleTrace.Proofs.Recording.Visits
import CycleTrace.Proofs.Structure.Growth
import Mathlib.Data.List.Induction

namespace CycleTrace
namespace Recording

open Structure (Layout)

/-! ### Operations -/

/-- An operation on the slots of one node. -/
inductive NodeOperation where
  | register (layout : Layout) (relaxed : Bool)
  | enter (slot : UInt64) (occupant : Occupant)
  | vacate (slot : UInt64)
  | forgetOutput
  | endCycle
deriving DecidableEq, Repr

/-- An operation on the nodes of a table. -/
inductive TableOperation where
  | register (node : NodeId) (layout : Layout) (relaxed : Bool)
  | enter (node : NodeId) (slot : UInt64) (occupant : Occupant)
  | vacate (node : NodeId) (slot : UInt64)
  | forgetOutput
  | endCycle (accepts : NodeId → Bool)

/-- An occupant, and whether it was entered since the last boundary of its node. -/
structure Resident where
  occupant : Occupant
  fresh : Bool

namespace NodeOperation

/-- The slots of a node after an operation. -/
def run (occupancy? : Option Occupancy) : NodeOperation → Option Occupancy
  | .register layout relaxed => some { layout, relaxed }
  | .enter slot occupant => occupancy?.map (·.enter slot occupant)
  | .vacate slot => occupancy?.map (·.vacate slot)
  | .forgetOutput => occupancy?.map (·.forgetOutput)
  | .endCycle => occupancy?.map (·.endCycle.2)

/-- The resident of a slot after an operation on the node. -/
def houses (slot : UInt64) (resident? : Option Resident) : NodeOperation → Option Resident
  | .register _ _ => none
  | .enter place occupant => if place = slot then some ⟨occupant, true⟩ else resident?
  | .vacate place => if place = slot then none else resident?
  | .forgetOutput => resident?.map fun resident =>
      { resident with occupant := resident.occupant.forgetOutput }
  | .endCycle => (resident?.filter (·.fresh)).map ({ · with fresh := false })

/-- Who enters a slot with an operation. -/
def entrant? (slot : UInt64) : NodeOperation → Option Occupant
  | .enter place occupant => if place = slot then some occupant else none
  | _ => none

/-- What an operation makes of the time since the last boundary: an entry of the
slot falls into it, and a boundary or the registration starts it anew. -/
def renews? (slot : UInt64) : NodeOperation → Option Bool
  | .enter place _ => if place = slot then some true else none
  | .register _ _ | .endCycle => some false
  | _ => none

/-- An operation that fits a node: the layout is one that dimensions have, and
the slot is one of a registered node. -/
def Fits (occupancy? : Option Occupancy) : NodeOperation → Prop
  | .register layout _ => ∃ node, Layout.ofDimensions node layout.dimensions = .ok layout
  | .enter slot _ | .vacate slot =>
      occupancy?.any (fun occupancy => slot < occupancy.layout.capacity) = true
  | .forgetOutput | .endCycle => True

end NodeOperation

/-- Who is in a slot after operations on the node. -/
def resident? (slot : UInt64) (past : List NodeOperation) : Option Resident :=
  past.foldl (NodeOperation.houses slot) none

/-- Who entered a slot last. -/
def lastEntrant? (slot : UInt64) (past : List NodeOperation) : Option Occupant :=
  (past.filterMap (·.entrant? slot)).getLast?

/-- Whether a slot was entered after the last boundary of the node and after its
registration. -/
def enteredSince (slot : UInt64) (past : List NodeOperation) : Bool :=
  (past.filterMap (·.renews? slot)).getLast? == some true

namespace TableOperation

/-- A table after an operation. -/
def run (table : OccupancyTable) : TableOperation → OccupancyTable
  | .register node layout relaxed => table.register node layout relaxed
  | .enter node slot occupant => table.modify node (·.enter slot occupant)
  | .vacate node slot => table.modify node (·.vacate slot)
  | .forgetOutput => table.forgetOutput
  | .endCycle accepts => (table.endCycle accepts).2

/-- What an operation is at a node. -/
def at? (node : NodeId) : TableOperation → Option NodeOperation
  | .register other layout relaxed =>
      if other = node then some (.register layout relaxed) else none
  | .enter other slot occupant => if other = node then some (.enter slot occupant) else none
  | .vacate other slot => if other = node then some (.vacate slot) else none
  | .forgetOutput => some .forgetOutput
  | .endCycle accepts => if accepts node then some .endCycle else none

/-- Nodes are registered with the layouts that dimensions have, and entries and
requested exits are about slots of registered nodes. -/
def Fits (table : OccupancyTable) : TableOperation → Prop
  | .register node layout _ => Layout.ofDimensions node layout.dimensions = .ok layout
  | .enter node slot _ | .vacate node slot =>
      (table.get? node).any (fun occupancy => slot < occupancy.layout.capacity) = true
  | .forgetOutput | .endCycle _ => True

instance (table : OccupancyTable) : (operation : TableOperation) → Decidable (operation.Fits table)
  | .register node layout _ =>
      inferInstanceAs (Decidable (Layout.ofDimensions node layout.dimensions = .ok layout))
  | .enter _ _ _ | .vacate _ _ => inferInstanceAs (Decidable (Option.any _ _ = true))
  | .forgetOutput | .endCycle _ => inferInstanceAs (Decidable True)

end TableOperation

namespace OccupancyTable

/-- A table after operations in order. -/
def after (table : OccupancyTable) (operations : List TableOperation) : OccupancyTable :=
  operations.foldl TableOperation.run table

/-- Each operation fits the table that the ones before it lead to. -/
def Permits (table : OccupancyTable) : List TableOperation → Prop
  | [] => True
  | operation :: operations =>
      operation.Fits table ∧ (operation.run table).Permits operations

instance decidablePermits (table : OccupancyTable) :
    (operations : List TableOperation) → Decidable (table.Permits operations)
  | [] => inferInstanceAs (Decidable True)
  | operation :: operations =>
      have := decidablePermits (operation.run table) operations
      inferInstanceAs (Decidable (operation.Fits table ∧ _))

/-- The occupant of a slot of a node. -/
def occupantIn? (table : OccupancyTable) (node : NodeId) (slot : UInt64) : Option Occupant :=
  (table.get? node).bind (·.contents[slot]?)

end OccupancyTable

/-- The operations at a node. -/
def pastOf (node : NodeId) (operations : List TableOperation) : List NodeOperation :=
  operations.filterMap (·.at? node)

/-! ### What the past says of a slot -/

section Past

variable {slot : UInt64} {past : List NodeOperation}

theorem resident?_concat (slot : UInt64) (past : List NodeOperation) (operation : NodeOperation) :
    resident? slot (past ++ [operation]) = operation.houses slot (resident? slot past) :=
  List.foldl_append

theorem lastEntrant?_concat (slot : UInt64) (past : List NodeOperation)
    (operation : NodeOperation) :
    lastEntrant? slot (past ++ [operation])
      = (operation.entrant? slot).or (lastEntrant? slot past) := by
  unfold lastEntrant?
  rw [List.filterMap_append, List.getLast?_append, List.filterMap_cons]
  cases operation.entrant? slot <;> rfl

theorem enteredSince_concat (slot : UInt64) (past : List NodeOperation)
    (operation : NodeOperation) :
    enteredSince slot (past ++ [operation])
      = (operation.renews? slot).getD (enteredSince slot past) := by
  unfold enteredSince
  rw [List.filterMap_append, List.getLast?_append, List.filterMap_cons]
  cases operation.renews? slot with
  | none => rfl
  | some renewed => cases renewed <;> rfl

/-- A resident was entered last, and is fresh exactly if that was after the last
boundary. -/
theorem entered_of_resident? {resident : Resident}
    (hResident : resident? slot past = some resident) :
    (∃ entered, lastEntrant? slot past = some entered ∧ resident.occupant.item = entered.item ∧
      resident.occupant.persistent = entered.persistent) ∧
    resident.fresh = enteredSince slot past := by
  induction past using List.reverseRecOn generalizing resident with
  | nil => cases hResident
  | append_singleton past operation ih =>
      rw [resident?_concat] at hResident
      rw [lastEntrant?_concat, enteredSince_concat]
      cases operation with
      | register layout relaxed => cases hResident
      | enter place occupant =>
          dsimp only [NodeOperation.houses, NodeOperation.entrant?, NodeOperation.renews?]
            at hResident ⊢
          by_cases hPlace : place = slot
          · rw [if_pos hPlace] at hResident
            rw [if_pos hPlace, if_pos hPlace]
            cases hResident
            exact ⟨⟨occupant, rfl, rfl, rfl⟩, rfl⟩
          · rw [if_neg hPlace] at hResident
            rw [if_neg hPlace, if_neg hPlace]
            exact ih hResident
      | vacate place =>
          unfold NodeOperation.houses at hResident
          dsimp only at hResident
          split at hResident
          · cases hResident
          · exact ih hResident
      | forgetOutput =>
          obtain ⟨before, hBefore, rfl⟩ := Option.map_eq_some_iff.mp hResident
          have hPast := ih hBefore
          exact hPast
      | endCycle =>
          obtain ⟨before, hBefore, rfl⟩ := Option.map_eq_some_iff.mp hResident
          exact ⟨(ih (Option.eq_some_of_filter_eq_some hBefore)).1, rfl⟩

end Past

/-! ### One node -/

namespace Occupancy

variable {occupancy : Occupancy} {slot : UInt64} {housed : Option Resident}

theorem mem_staleSlots :
    slot ∈ occupancy.staleSlots ↔ slot ∈ occupancy.previous ∧ slot ∉ occupancy.current := by
  unfold staleSlots
  rw [List.mem_filter, Std.TreeSet.mem_toList, Bool.not_eq_true', ← Bool.not_eq_true,
    Std.TreeSet.contains_iff_mem]

/-- The two generations of a node agree with what is noted of a slot. -/
structure Notes (occupancy : Occupancy) (slot : UInt64) (housed : Option Resident) : Prop where
  contents : occupancy.contents[slot]? = housed.map (·.occupant)
  current : slot ∈ occupancy.current ↔ ∃ occupant, housed = some ⟨occupant, true⟩
  stale : slot ∈ occupancy.staleSlots ↔ ∃ occupant, housed = some ⟨occupant, false⟩

theorem notes_registered (layout : Layout) (relaxed : Bool) (slot : UInt64) :
    ({ layout, relaxed } : Occupancy).Notes slot none := by
  refine ⟨?_, ?_, ?_⟩
  · simp
  · simp
  · simp [mem_staleSlots]

theorem Notes.enter (hNotes : occupancy.Notes slot housed) (place : UInt64)
    (occupant : Occupant) :
    (occupancy.enter place occupant).Notes slot
      ((NodeOperation.enter place occupant).houses slot housed) := by
  unfold NodeOperation.houses
  have hStale := hNotes.stale
  rw [mem_staleSlots] at hStale
  by_cases hPlace : place = slot
  · refine ⟨?_, ?_, ?_⟩
    · simp [Occupancy.enter, hPlace]
    · simp [Occupancy.enter, hPlace]
    · simp [mem_staleSlots, Occupancy.enter, hPlace]
  · refine ⟨?_, ?_, ?_⟩
    · simpa [Occupancy.enter, Std.TreeMap.getElem?_insert, hPlace] using hNotes.contents
    · simpa [Occupancy.enter, hPlace] using hNotes.current
    · simpa [mem_staleSlots, Occupancy.enter, hPlace] using hStale

theorem Notes.vacate (hNotes : occupancy.Notes slot housed) (place : UInt64) :
    (occupancy.vacate place).Notes slot ((NodeOperation.vacate place).houses slot housed) := by
  unfold NodeOperation.houses
  have hStale := hNotes.stale
  rw [mem_staleSlots] at hStale
  by_cases hPlace : place = slot
  · refine ⟨?_, ?_, ?_⟩
    · simp [Occupancy.vacate, hPlace]
    · simp [Occupancy.vacate, hPlace]
    · simp [mem_staleSlots, Occupancy.vacate, hPlace]
  · refine ⟨?_, ?_, ?_⟩
    · simpa [Occupancy.vacate, Std.TreeMap.getElem?_erase, hPlace] using hNotes.contents
    · simpa [Occupancy.vacate, hPlace] using hNotes.current
    · simpa [mem_staleSlots, Occupancy.vacate, hPlace] using hStale

theorem Notes.forgetOutput (hNotes : occupancy.Notes slot housed) :
    occupancy.forgetOutput.Notes slot (NodeOperation.forgetOutput.houses slot housed) := by
  refine ⟨?_, hNotes.current.trans ?_, hNotes.stale.trans ?_⟩
  · simp only [Occupancy.forgetOutput, Std.TreeMap.getElem?_map, hNotes.contents]
    cases housed <;> rfl
  all_goals
    cases housed with
    | none => simp [NodeOperation.houses]
    | some resident =>
        obtain ⟨occupant, fresh⟩ := resident
        simp [NodeOperation.houses]

theorem Notes.endCycle (hNotes : occupancy.Notes slot housed) :
    occupancy.endCycle.2.Notes slot (NodeOperation.endCycle.houses slot housed) := by
  have hContents : occupancy.endCycle.2.contents[slot]?
      = if slot ∈ occupancy.staleSlots then none else housed.map (·.occupant) := by
    rw [← hNotes.contents]
    exact getElem?_eraseAll _ _ slot
  have hCurrent : slot ∉ occupancy.endCycle.2.current := Std.TreeSet.not_mem_emptyc
  have hStale : slot ∈ occupancy.endCycle.2.staleSlots ↔ slot ∈ occupancy.current := by
    rw [mem_staleSlots]
    exact and_iff_left hCurrent
  -- a fresh resident stays and is stale from now on, and a stale one is erased
  cases housed with
  | none =>
      refine ⟨hContents.trans (ite_self none), ?_, ?_⟩
      · simp [hCurrent, NodeOperation.houses]
      · rw [hStale, hNotes.current]
        simp [NodeOperation.houses]
  | some resident =>
      obtain ⟨occupant, fresh⟩ := resident
      cases fresh with
      | true =>
          have hKept : slot ∉ occupancy.staleSlots := by
            rw [hNotes.stale]
            simp
          refine ⟨hContents.trans (if_neg hKept), ?_, ?_⟩
          · simp [hCurrent, NodeOperation.houses, Option.filter_some]
          · rw [hStale, hNotes.current]
            simp [NodeOperation.houses, Option.filter_some]
      | false =>
          refine ⟨hContents.trans (if_pos (hNotes.stale.mpr ⟨occupant, rfl⟩)), ?_, ?_⟩
          · simp [hCurrent, NodeOperation.houses, Option.filter_some]
          · rw [hStale, hNotes.current]
            simp [NodeOperation.houses, Option.filter_some]

/-- A node whose slots have positions in a layout that dimensions have. -/
structure Regular (occupancy : Occupancy) : Prop where
  proper : occupancy.layout.Proper
  sound : occupancy.Sound

theorem Regular.enter (hRegular : occupancy.Regular) {place : UInt64}
    (hBelow : place < occupancy.layout.capacity) (occupant : Occupant) :
    (occupancy.enter place occupant).Regular := by
  obtain ⟨hProper, hSound⟩ := hRegular
  have hCount : place.toNat < Layout.slotCount occupancy.layout.dimensions := by
    rw [← hProper.capacity]
    exact hBelow
  have hEntered := hSound.enter (Layout.contains_unflatten hProper.nonzero place) occupant
  rw [Layout.flatten_unflatten hProper.nonzero hCount] at hEntered
  exact ⟨hProper, hEntered⟩

theorem departure?_eq_some_iff {departure : Departure} :
    occupancy.departure? slot = some departure ↔
      occupancy.contents[slot]? = some ⟨departure.item, departure.persistent, true⟩ ∧
        departure.position = occupancy.layout.unflatten slot := by
  refine ⟨departure?_eq_some, fun ⟨hContents, hPosition⟩ => ?_⟩
  unfold departure?
  rw [hContents, ← hPosition]

/-- What departs from a slot is a resident that is announced and not fresh. -/
theorem Notes.departs_iff (hNotes : occupancy.Notes slot housed) {departure : Departure} :
    slot ∈ occupancy.staleSlots ∧ occupancy.departure? slot = some departure ↔
      housed = some ⟨⟨departure.item, departure.persistent, true⟩, false⟩ ∧
        departure.position = occupancy.layout.unflatten slot := by
  rw [departure?_eq_some_iff, hNotes.stale, hNotes.contents]
  constructor
  · rintro ⟨⟨occupant, rfl⟩, hContents, hPosition⟩
    cases hContents
    exact ⟨rfl, hPosition⟩
  · rintro ⟨rfl, hPosition⟩
    exact ⟨⟨_, rfl⟩, rfl, hPosition⟩

end Occupancy

/-- What a node has of a slot: nothing before it is registered, and then two
generations that agree with what is noted. -/
inductive Tracks (slot : UInt64) : Option Occupancy → Option Resident → Prop
  | unregistered : Tracks slot none none
  | registered {occupancy : Occupancy} {housed : Option Resident}
      (hNotes : occupancy.Notes slot housed) : Tracks slot (some occupancy) housed

namespace NodeOperation

variable {slot : UInt64} {occupancy? : Option Occupancy} {housed : Option Resident}
  {operation : NodeOperation}

theorem tracks_run (hTracks : Tracks slot occupancy? housed)
    (hFits : operation.Fits occupancy?) :
    Tracks slot (operation.run occupancy?) (operation.houses slot housed) := by
  cases hTracks with
  | unregistered =>
      cases operation with
      | register layout relaxed => exact .registered (Occupancy.notes_registered _ _ slot)
      | enter | vacate => cases hFits
      | forgetOutput | endCycle => exact .unregistered
  | registered hNotes =>
      cases operation with
      | register layout relaxed => exact .registered (Occupancy.notes_registered _ _ slot)
      | enter place occupant => exact .registered (hNotes.enter place occupant)
      | vacate place => exact .registered (hNotes.vacate place)
      | forgetOutput => exact .registered hNotes.forgetOutput
      | endCycle => exact .registered hNotes.endCycle

theorem regular_run (hRegular : ∀ occupancy, occupancy? = some occupancy → occupancy.Regular)
    (hFits : operation.Fits occupancy?) {occupancy : Occupancy}
    (hRun : operation.run occupancy? = some occupancy) : occupancy.Regular := by
  cases operation with
  | register layout relaxed =>
      obtain ⟨node, hLayout⟩ := hFits
      cases hRun
      exact ⟨Layout.proper_ofDimensions hLayout,
        Occupancy.sound_empty (Layout.roomy_ofDimensions hLayout) relaxed⟩
  | enter slot occupant =>
      obtain ⟨before, hBefore, rfl⟩ := Option.map_eq_some_iff.mp hRun
      subst hBefore
      exact (hRegular before rfl).enter (of_decide_eq_true hFits) occupant
  | vacate slot =>
      obtain ⟨before, hBefore, rfl⟩ := Option.map_eq_some_iff.mp hRun
      exact ⟨(hRegular before hBefore).proper, (hRegular before hBefore).sound.vacate slot⟩
  | forgetOutput =>
      obtain ⟨before, hBefore, rfl⟩ := Option.map_eq_some_iff.mp hRun
      exact ⟨(hRegular before hBefore).proper, (hRegular before hBefore).sound.forgetOutput⟩
  | endCycle =>
      obtain ⟨before, hBefore, rfl⟩ := Option.map_eq_some_iff.mp hRun
      exact ⟨(hRegular before hBefore).proper, (hRegular before hBefore).sound.endCycle⟩

end NodeOperation

/-! ### All nodes -/

theorem pastOf_concat (node : NodeId) (operations : List TableOperation)
    (operation : TableOperation) :
    pastOf node (operations ++ [operation])
      = pastOf node operations ++ (operation.at? node).toList := by
  unfold pastOf
  rw [List.filterMap_append, List.filterMap_cons]
  cases operation.at? node <;> rfl

namespace TableOperation

theorem Fits.at_node {table : OccupancyTable} {operation : TableOperation}
    (hFits : operation.Fits table) {node : NodeId} {change : NodeOperation}
    (hChange : operation.at? node = some change) : change.Fits (table.get? node) := by
  unfold at? at hChange
  cases operation with
  | register other layout relaxed =>
      dsimp only at hChange
      split at hChange
      · cases hChange
        exact ⟨other, hFits⟩
      · cases hChange
  | enter other slot occupant | vacate other slot =>
      dsimp only at hChange
      split at hChange
      · next hSame =>
          subst hSame
          cases hChange
          exact hFits
      · cases hChange
  | forgetOutput =>
      cases hChange
      exact trivial
  | endCycle accepts =>
      dsimp only at hChange
      split at hChange
      · cases hChange
        exact trivial
      · cases hChange

/-- At a node, an operation is what it is there, and nothing elsewhere. -/
theorem get?_run (table : OccupancyTable) (operation : TableOperation) (node : NodeId) :
    (operation.run table).get? node
      = (operation.at? node).elim (table.get? node) (·.run (table.get? node)) := by
  cases operation with
  | register other layout relaxed =>
      unfold run at?
      dsimp only
      rw [OccupancyTable.get?_register]
      split
      · rfl
      · rfl
  | enter other slot occupant | vacate other slot =>
      unfold run at?
      dsimp only
      rw [OccupancyTable.get?_modify]
      split
      · next hSame =>
          subst hSame
          rfl
      · rfl
  | forgetOutput => exact OccupancyTable.get?_forgetOutput table node
  | endCycle accepts =>
      unfold run at?
      dsimp only
      rw [OccupancyTable.get?_endCycle]
      cases accepts node with
      | true => rfl
      | false => exact congrFun Option.map_id _

end TableOperation

namespace OccupancyTable

variable {table : OccupancyTable} {before : List TableOperation}

/-- A table that operations have led to, seen slot by slot. -/
structure Follows (table : OccupancyTable) (before : List TableOperation) : Prop where
  tracks : ∀ node slot, Tracks slot (table.get? node) (resident? slot (pastOf node before))
  regular : ∀ node occupancy, table.get? node = some occupancy → occupancy.Regular

theorem follows_empty : Follows {} [] := by
  have hNone (node : NodeId) : ({} : OccupancyTable).get? node = none :=
    Std.TreeMap.getElem?_emptyc
  refine ⟨fun node slot => ?_, fun node occupancy hTracked => ?_⟩
  · rw [hNone]
    exact .unregistered
  · rw [hNone] at hTracked
    cases hTracked

theorem Follows.run (hFollows : table.Follows before) {operation : TableOperation}
    (hFits : operation.Fits table) : (operation.run table).Follows (before ++ [operation]) := by
  refine ⟨fun node slot => ?_, fun node occupancy hTracked => ?_⟩
  · have hTracks := hFollows.tracks node slot
    rw [TableOperation.get?_run, pastOf_concat]
    cases hChange : operation.at? node with
    | none =>
        rw [Option.toList_none, List.append_nil]
        exact hTracks
    | some change =>
        rw [Option.toList_some, resident?_concat]
        exact NodeOperation.tracks_run hTracks (hFits.at_node hChange)
  · rw [TableOperation.get?_run] at hTracked
    cases hChange : operation.at? node with
    | none =>
        rw [hChange] at hTracked
        exact hFollows.regular node occupancy hTracked
    | some change =>
        rw [hChange] at hTracked
        exact NodeOperation.regular_run (hFollows.regular node) (hFits.at_node hChange) hTracked

theorem Follows.after (hFollows : table.Follows before) {operations : List TableOperation}
    (hPermits : table.Permits operations) :
    (table.after operations).Follows (before ++ operations) := by
  induction operations generalizing table before with
  | nil =>
      rw [List.append_nil]
      exact hFollows
  | cons operation operations ih =>
      have hLater := ih (hFollows.run hPermits.1) hPermits.2
      rw [List.append_assoc] at hLater
      exact hLater

theorem Follows.notes (hFollows : table.Follows before) {node : NodeId} {occupancy : Occupancy}
    (hTracked : table.get? node = some occupancy) (slot : UInt64) :
    occupancy.Notes slot (resident? slot (pastOf node before)) := by
  have hTracks := hFollows.tracks node slot
  rw [hTracked] at hTracks
  cases hTracks with
  | registered hNotes => exact hNotes

theorem Follows.occupantIn?_eq (hFollows : table.Follows before) (node : NodeId) (slot : UInt64) :
    table.occupantIn? node slot = (resident? slot (pastOf node before)).map (·.occupant) := by
  have hTracks := hFollows.tracks node slot
  unfold occupantIn?
  generalize table.get? node = occupancy? at hTracks
  generalize resident? slot (pastOf node before) = housed at hTracks
  cases hTracks with
  | unregistered => rfl
  | registered hNotes => exact hNotes.contents

/-! ### The boundary of a cycle -/

/-- A departure that is due from a slot: the slot has an announced occupant and
was not entered since the last boundary of its node. -/
structure Due (table : OccupancyTable) (node : NodeId) (past : List NodeOperation)
    (slot : UInt64) (departure : Departure) : Prop where
  occupied : ∃ occupant, table.occupantIn? node slot = some occupant ∧
    occupant.announced = true ∧ departure.item = occupant.item
  stale : enteredSince slot past = false
  persistent : ∃ entered, lastEntrant? slot past = some entered ∧
    departure.persistent = entered.persistent
  position : ∃ occupancy, table.get? node = some occupancy ∧
    departure.position = occupancy.layout.unflatten slot ∧
    occupancy.layout.flatten departure.position = slot

theorem Follows.due_iff (hFollows : table.Follows before) {node : NodeId}
    {departure : Departure} {slot : UInt64} :
    table.Due node (pastOf node before) slot departure ↔
      ∃ occupancy, table.get? node = some occupancy ∧ slot ∈ occupancy.staleSlots ∧
        occupancy.departure? slot = some departure := by
  constructor
  · rintro ⟨⟨occupant, hOccupant, hAnnounced, hItem⟩, hSince, ⟨entered, hEntered, hPersistent⟩,
      ⟨occupancy, hTracked, hPosition, _⟩⟩
    rw [hFollows.occupantIn?_eq] at hOccupant
    obtain ⟨⟨present, fresh⟩, hResident, rfl⟩ := Option.map_eq_some_iff.mp hOccupant
    obtain ⟨⟨last, hLast, _, hFlag⟩, hFresh⟩ := entered_of_resident? hResident
    cases hLast.symm.trans hEntered
    cases hFresh.trans hSince
    refine ⟨occupancy, hTracked, (hFollows.notes hTracked slot).departs_iff.mpr ⟨?_, hPosition⟩⟩
    rw [hResident, hItem, hPersistent, ← hFlag, ← hAnnounced]
  · rintro ⟨occupancy, hTracked, hDeparts⟩
    obtain ⟨hResident, hPosition⟩ := (hFollows.notes hTracked slot).departs_iff.mp hDeparts
    obtain ⟨⟨entered, hEntered, _, hFlag⟩, hFresh⟩ := entered_of_resident? hResident
    have hOccupant : table.occupantIn? node slot
        = some ⟨departure.item, departure.persistent, true⟩ := by
      rw [hFollows.occupantIn?_eq, hResident]
      rfl
    have hContents := (Occupancy.departure?_eq_some hDeparts.2).1
    refine ⟨⟨_, hOccupant, rfl, rfl⟩, hFresh.symm, ⟨entered, hEntered, hFlag⟩,
      ⟨occupancy, hTracked, hPosition, ?_⟩⟩
    rw [hPosition]
    exact (hFollows.regular node occupancy hTracked).sound.flatten_unflatten hContents

theorem Precedes.irrefl (entry : NodeId × Departure) : ¬ table.Precedes entry entry := by
  rintro (hNode | ⟨_, occupancy, _, hSlot⟩)
  · exact UInt16.lt_irrefl _ hNode
  · exact UInt64.lt_irrefl _ hSlot

theorem Follows.occupantIn?_endCycle (hFollows : table.Follows before) (accepts : NodeId → Bool)
    (node : NodeId) (slot : UInt64) :
    (table.endCycle accepts).2.occupantIn? node slot
      = if accepts node = true ∧ enteredSince slot (pastOf node before) = false then none
        else table.occupantIn? node slot := by
  have hEnded : (table.endCycle accepts).2.Follows (before ++ [.endCycle accepts]) :=
    @Follows.run _ _ hFollows (.endCycle accepts) trivial
  rw [hEnded.occupantIn?_eq, hFollows.occupantIn?_eq, pastOf_concat]
  unfold TableOperation.at?
  dsimp only
  cases hAccepts : accepts node with
  | false => simp
  | true =>
      rw [if_pos rfl, Option.toList_some, resident?_concat]
      cases hResident : resident? slot (pastOf node before) with
      | none => simp [NodeOperation.houses]
      | some resident =>
          obtain ⟨occupant, fresh⟩ := resident
          obtain ⟨_, hFresh⟩ := entered_of_resident? hResident
          rw [← hFresh]
          cases fresh <;> simp [NodeOperation.houses, Option.filter_some]

end OccupancyTable

/-! ### What a node tells -/

/-- The departures of a node at an operation, if it is a boundary. -/
def NodeOperation.exits? (occupancy? : Option Occupancy) :
    NodeOperation → Option (List Departure)
  | .endCycle => some (occupancy?.elim [] (·.endCycle.1))
  | _ => none

/-- The departures of a node at each boundary of operations at it. -/
def exitsAt (occupancy? : Option Occupancy) : List NodeOperation → List (List Departure)
  | [] => []
  | operation :: past =>
      (operation.exits? occupancy?).toList ++ exitsAt (operation.run occupancy?) past

/-- The departures of a node at an operation, if it is a boundary that accepts
the node. -/
def TableOperation.exits? (table : OccupancyTable) (node : NodeId) :
    TableOperation → Option (List Departure)
  | .endCycle accepts =>
      if accepts node then
        some ((table.endCycle accepts).1.filterMap fun left =>
          if left.1 = node then some left.2 else none)
      else none
  | _ => none

namespace OccupancyTable

/-- The departures of a node at each boundary that accepts it. -/
def exitsOf (node : NodeId) (table : OccupancyTable) :
    List TableOperation → List (List Departure)
  | [] => []
  | operation :: operations =>
      (operation.exits? table node).toList ++ exitsOf node (operation.run table) operations

theorem exits?_eq (table : OccupancyTable) (node : NodeId) (operation : TableOperation) :
    operation.exits? table node
      = (operation.at? node).bind (NodeOperation.exits? (table.get? node)) := by
  cases operation with
  | endCycle accepts =>
      unfold TableOperation.exits? TableOperation.at?
      dsimp only
      rw [filterMap_departures]
      cases accepts node with
      | true => rfl
      | false => rfl
  | register | enter | vacate =>
      unfold TableOperation.exits? TableOperation.at?
      dsimp only
      split
      · rfl
      · rfl
  | forgetOutput => rfl

theorem exitsOf_eq (node : NodeId) (table : OccupancyTable) (operations : List TableOperation) :
    table.exitsOf node operations = exitsAt (table.get? node) (pastOf node operations) := by
  induction operations generalizing table with
  | nil => rfl
  | cons operation operations ih =>
      unfold exitsOf pastOf
      rw [ih, exits?_eq, TableOperation.get?_run, List.filterMap_cons]
      cases operation.at? node with
      | none => rfl
      | some change => rfl

/-- What a boundary does follows from what was done at each node before. In the
ascending order of nodes and slots, and none of them twice, it tells exactly the
departures that are due at the accepted nodes. The slots of these nodes that
were not entered since their last boundary are empty afterwards, and all other
slots are as before. Who is in a slot, and so what a node tells at all
boundaries, depends on the operations at that node and on the boundaries that
accept it, however they mingle with those of others. -/
theorem boundary_departures {operations : List TableOperation}
    (hPermits : ({} : OccupancyTable).Permits operations) (accepts : NodeId → Bool) :
    let table := ({} : OccupancyTable).after operations
    let ended := table.endCycle accepts
    (ended.1.Pairwise table.Precedes ∧ ended.1.Nodup ∧
      ∀ node departure, (node, departure) ∈ ended.1 ↔
        accepts node = true ∧ ∃ slot, table.Due node (pastOf node operations) slot departure) ∧
    (∀ node slot, ended.2.occupantIn? node slot
      = if accepts node = true ∧ enteredSince slot (pastOf node operations) = false then none
        else table.occupantIn? node slot) ∧
    (∀ node slot, table.occupantIn? node slot
      = (resident? slot (pastOf node operations)).map (·.occupant)) ∧
    ∀ node others, pastOf node others = pastOf node operations →
      ({} : OccupancyTable).exitsOf node others
        = ({} : OccupancyTable).exitsOf node operations := by
  intro table ended
  have hFollows : table.Follows operations := follows_empty.after hPermits
  have hOrdered : ended.1.Pairwise table.Precedes :=
    pairwise_departures (fun node occupancy hTracked =>
      (hFollows.regular node occupancy hTracked).sound) accepts
  refine ⟨⟨hOrdered, ?_, fun node departure => ?_⟩, hFollows.occupantIn?_endCycle accepts,
    hFollows.occupantIn?_eq, fun node others hSame => ?_⟩
  · refine hOrdered.imp ?_
    rintro entry _ hBefore rfl
    exact Precedes.irrefl entry hBefore
  · rw [mem_departures_iff]
    refine and_congr_right fun _ => ?_
    rw [exists_comm]
    exact exists_congr fun slot => hFollows.due_iff.symm
  · rw [exitsOf_eq, exitsOf_eq, hSame]

/-- A node of four slots in one domain and a node of three slots in another. The
output forgets an occupant that is not persistent before the domain of the first
node ends a cycle. -/
def twoDomains : List TableOperation :=
  [.register 3 ⟨[2, 2], 4⟩ false, .enter 3 2 ⟨7, true, true⟩, .register 1 ⟨[3], 3⟩ true,
    .enter 3 1 ⟨8, false, true⟩, .enter 1 0 ⟨9, false, true⟩, .enter 3 3 ⟨4, true, true⟩,
    .forgetOutput, .endCycle (· == 3), .vacate 1 0, .enter 1 2 ⟨6, true, true⟩,
    .enter 3 3 ⟨5, false, true⟩]

theorem boundary_departures_twoDomains :
    let table := ({} : OccupancyTable).after twoDomains
    let ended := table.endCycle fun _ => true
    ended.1 = [(3, { item := 7, position := [1, 0], persistent := true })] ∧
      (∃ slot, table.Due 3 (pastOf 3 twoDomains) slot
        { item := 7, position := [1, 0], persistent := true }) ∧
      table.occupantIn? 3 1 = some ⟨8, false, false⟩ ∧ ended.2.occupantIn? 3 1 = none ∧
      ended.2.occupantIn? 1 2 = some ⟨6, true, true⟩ := by
  intro table ended
  have hPermits : ({} : OccupancyTable).Permits twoDomains := by decide +kernel
  obtain ⟨⟨_, _, hDue⟩, hEmptied, _⟩ := boundary_departures hPermits fun _ => true
  have hExits : ended.1 = [(3, { item := 7, position := [1, 0], persistent := true })] := by
    decide +kernel
  refine ⟨hExits, ?_, by decide +kernel, ?_, ?_⟩
  · exact ((hDue 3 _).mp (hExits ▸ List.mem_singleton_self _)).2
  · exact (hEmptied 3 1).trans (by decide +kernel)
  · exact (hEmptied 1 2).trans (by decide +kernel)

end OccupancyTable
end Recording
end CycleTrace
