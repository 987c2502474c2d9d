/-
The slots of autoflush nodes.

A slot is the place that a position names on a watched node. The log of a slot
lists the entries and exits dispatched for it, each with the notes on which its
fate depends. `SlotStep` says what one event can do to a slot: it is the only
account of the occupants that the results on outputs use.
-/

import CycleTrace.Proofs.Recording.Plans
import CycleTrace.Proofs.Structure.Layout
import Mathlib.Data.List.Basic

namespace CycleTrace
namespace Recording

open Structure (Layout)

/-! ### Changes of a slot -/

/-- What a command does to a slot. -/
inductive Change where
  | enters (item : ItemId)
  | exits (item : ItemId)
deriving DecidableEq, Repr

/-- What a command does at a position of a node. -/
def changeAt? (node : NodeId) (position : List UInt32) : Command → Option Change
  | .enterNode other item place =>
      if other = node ∧ place = position then some (.enters item) else none
  | .exitNode other item place =>
      if other = node ∧ place = position then some (.exits item) else none
  | _ => none

/-- What commands do at a position of a node, in order. -/
def changesAt (node : NodeId) (position : List UInt32) (commands : List Command) : List Change :=
  commands.filterMap (changeAt? node position)

/-- A dispatch, and whether it was made while recording. -/
structure Entry where
  dispatch : Dispatch
  recording : Bool
deriving DecidableEq, Repr

/-- A change of a slot with what decides about its fate. -/
structure SlotEntry where
  change : Change
  persistent : Bool
  synthesized : Bool
  recording : Bool
deriving DecidableEq, Repr

/-- Whether a change is written or stored, and not dropped. -/
def SlotEntry.kept (entry : SlotEntry) : Bool :=
  entry.recording || entry.persistent

/-- What a dispatch changes at a position of a node. -/
def Entry.at? (entry : Entry) (node : NodeId) (position : List UInt32) : Option SlotEntry :=
  (changeAt? node position entry.dispatch.command).map fun change =>
    { change
      persistent := entry.dispatch.persistent
      synthesized := entry.dispatch.synthesized
      recording := entry.recording }

/-- The part of a log that is about one position of a node. -/
def slotLog (node : NodeId) (position : List UInt32) (log : List Entry) : List SlotEntry :=
  log.filterMap (·.at? node position)

/-- The changes that were not dropped, in order. -/
def keptChanges (entries : List SlotEntry) : List Change :=
  (entries.filter (·.kept)).map (·.change)

/-- The changes that were stored for replay, in order. -/
def storedChanges (entries : List SlotEntry) : List Change :=
  (entries.filter (·.persistent)).map (·.change)

/-- Dispatches as they enter a log. -/
def entriesOf (recording : Bool) (sent : List Dispatch) : List Entry :=
  sent.map (⟨·, recording⟩)

theorem changesAt_append (node : NodeId) (position : List UInt32) (commands others : List Command) :
    changesAt node position (commands ++ others)
      = changesAt node position commands ++ changesAt node position others :=
  List.filterMap_append

theorem slotLog_append (node : NodeId) (position : List UInt32) (log later : List Entry) :
    slotLog node position (log ++ later)
      = slotLog node position log ++ slotLog node position later :=
  List.filterMap_append

theorem entriesOf_append (recording : Bool) (sent others : List Dispatch) :
    entriesOf recording (sent ++ others) = entriesOf recording sent ++ entriesOf recording others :=
  List.map_append

theorem slotLog_entriesOf_cons (node : NodeId) (position : List UInt32) (recording : Bool)
    (first : Dispatch) (rest : List Dispatch) :
    slotLog node position (entriesOf recording (first :: rest))
      = ((changeAt? node position first.command).map
          (⟨·, first.persistent, first.synthesized, recording⟩)).toList
        ++ slotLog node position (entriesOf recording rest) := by
  unfold slotLog entriesOf
  rw [List.map_cons, List.filterMap_cons]
  unfold Entry.at?
  cases changeAt? node position first.command with
  | none => rfl
  | some change => rfl

theorem slotLog_entriesOf_nil (node : NodeId) (position : List UInt32) (recording : Bool) :
    slotLog node position (entriesOf recording []) = [] :=
  rfl

/-- Dispatches that are about other places. -/
theorem slotLog_eq_nil {node : NodeId} {position : List UInt32} {recording : Bool}
    {sent : List Dispatch}
    (hElsewhere : ∀ dispatch ∈ sent, changeAt? node position dispatch.command = none) :
    slotLog node position (entriesOf recording sent) = [] := by
  unfold slotLog entriesOf
  rw [List.filterMap_map, List.filterMap_eq_nil_iff]
  intro dispatch hDispatch
  change (changeAt? node position dispatch.command).map _ = none
  rw [hElsewhere dispatch hDispatch]
  rfl

/-! The kept and the stored changes are chosen in the same way, entry by entry. -/

section Chosen

variable (chosen : SlotEntry → Bool) (entries later : List SlotEntry) (entry : SlotEntry)

private theorem chosen_append :
    ((entries ++ later).filter chosen).map (·.change)
      = (entries.filter chosen).map (·.change) ++ (later.filter chosen).map (·.change) := by
  rw [List.filter_append, List.map_append]

private theorem chosen_snoc :
    ((entries ++ [entry]).filter chosen).map (·.change)
      = (entries.filter chosen).map (·.change) ++ if chosen entry then [entry.change] else [] := by
  rw [chosen_append]
  cases hChosen : chosen entry with
  | true => simp [hChosen]
  | false => simp [hChosen]

theorem keptChanges_append :
    keptChanges (entries ++ later) = keptChanges entries ++ keptChanges later :=
  chosen_append _ entries later

theorem keptChanges_snoc :
    keptChanges (entries ++ [entry])
      = keptChanges entries ++ if entry.kept then [entry.change] else [] :=
  chosen_snoc _ entries entry

theorem storedChanges_append :
    storedChanges (entries ++ later) = storedChanges entries ++ storedChanges later :=
  chosen_append _ entries later

theorem storedChanges_snoc :
    storedChanges (entries ++ [entry])
      = storedChanges entries ++ if entry.persistent then [entry.change] else [] :=
  chosen_snoc _ entries entry

end Chosen

/-- Choosing dispatches and choosing changes of a slot come to the same. -/
theorem changesAt_chosen {node : NodeId} {position : List UInt32} {chosen : Entry → Bool}
    {chosenAt : SlotEntry → Bool}
    (hChosen : ∀ entry change, entry.at? node position = some change →
      chosenAt change = chosen entry) (log : List Entry) :
    changesAt node position ((log.filter chosen).map (·.dispatch.command))
      = ((slotLog node position log).filter chosenAt).map (·.change) := by
  unfold changesAt slotLog
  rw [List.filterMap_map, List.filterMap_filter, List.filter_filterMap, List.map_filterMap]
  apply List.filterMap_congr
  intro entry _
  specialize hChosen entry
  unfold Entry.at? at hChosen ⊢
  dsimp only [Function.comp]
  cases hChange : changeAt? node position entry.dispatch.command with
  | none => exact ite_self none
  | some change =>
      rw [hChange, Option.map_some] at hChosen
      rw [Option.map_some, Option.filter_some, hChosen _ rfl]
      split
      · rfl
      · rfl

/-! ### One slot -/

/-- What an event can do to a slot: the occupant before it, the changes it
dispatches for the slot, and the occupant after it. -/
inductive SlotStep (circumstances : Circumstances) (event : Event) (node : NodeId)
    (position : List UInt32) : Option Occupant → List SlotEntry → Option Occupant → Prop
  | untouched (occupant : Option Occupant) :
      SlotStep circumstances event node position occupant [] occupant
  | enters {before : Option Occupant} (item : ItemId)
      (hUnknown : ∀ occupant, before = some occupant → occupant.announced = false) :
      SlotStep circumstances event node position before
        [⟨.enters item, circumstances.persistent, false, circumstances.recording⟩]
        (some ⟨item, circumstances.persistent, circumstances.kept⟩)
  | stays {item : ItemId} (persistent : Bool) (hEvent : event = .enterNode node item position) :
      SlotStep circumstances event node position (some ⟨item, persistent, true⟩) []
        (some ⟨item, circumstances.persistent, true⟩)
  | replaces (evicted item : ItemId) (persistent : Bool) :
      SlotStep circumstances event node position (some ⟨evicted, persistent, true⟩)
        [⟨.exits evicted, persistent, true, circumstances.recording⟩,
          ⟨.enters item, circumstances.persistent, false, circumstances.recording⟩]
        (some ⟨item, circumstances.persistent, circumstances.kept⟩)
  | leaves (occupant : Occupant) (hEvent : event = .exitNode node occupant.item position) :
      SlotStep circumstances event node position (some occupant)
        [⟨.exits occupant.item, circumstances.persistent, false, circumstances.recording⟩] none
  | departs (item : ItemId) (persistent : Bool) :
      SlotStep circumstances event node position (some ⟨item, persistent, true⟩)
        [⟨.exits item, persistent, true, circumstances.recording⟩] none
  | departsUnseen (item : ItemId) (persistent : Bool) :
      SlotStep circumstances event node position (some ⟨item, persistent, false⟩) [] none

/-- The flag of an occupant, if it is not the opposite of another one. -/
theorem flag_of_ne {item : ItemId} {persistent now : Bool}
    (hFlag : some (Occupant.mk item persistent true) ≠ some ⟨item, !now, true⟩) :
    persistent = now := by
  cases persistent <;> cases now <;> simp_all

/-- An occupant as the next output is told of it: it is announced if its entry
was stored, which its flag says. -/
def Occupant.forgetOutput (occupant : Occupant) : Occupant :=
  { occupant with announced := occupant.announced && occupant.persistent }

theorem announced_of_forget {occupant : Option Occupant} {item : ItemId} {persistent : Bool}
    (hForgotten : occupant.map (·.forgetOutput) = some ⟨item, persistent, true⟩) :
    occupant = some ⟨item, persistent, true⟩ ∧ persistent = true := by
  obtain ⟨⟨present, known, announced⟩, rfl, hSame⟩ := Option.map_eq_some_iff.mp hForgotten
  obtain ⟨rfl, rfl, hBoth⟩ := Occupant.mk.inj hSame
  obtain ⟨rfl, hPersistent⟩ := Bool.and_eq_true_iff.mp hBoth
  exact ⟨rfl, hPersistent⟩

/-! ### One node -/

/-- A list to which only one of its elements contributes. -/
private theorem flatMap_eq_of_only {α β : Type} {list : List α} {only : α}
    (contribution : α → List β) (hNodup : list.Nodup) (hOnly : only ∈ list)
    (hOthers : ∀ other ∈ list, other ≠ only → contribution other = []) :
    list.flatMap contribution = contribution only := by
  obtain ⟨before, after, rfl⟩ := List.append_of_mem hOnly
  rw [List.nodup_append, List.nodup_cons] at hNodup
  obtain ⟨_, ⟨hAfter, _⟩, hBefore⟩ := hNodup
  have hBeforeEmpty : before.flatMap contribution = [] := by
    rw [List.flatMap_eq_nil_iff]
    intro other hOther
    exact hOthers other (List.mem_append_left _ hOther)
      (hBefore other hOther only List.mem_cons_self)
  have hAfterEmpty : after.flatMap contribution = [] := by
    rw [List.flatMap_eq_nil_iff]
    intro other hOther
    refine hOthers other (List.mem_append_right _ (List.mem_cons_of_mem _ hOther)) ?_
    rintro rfl
    exact hAfter hOther
  rw [List.flatMap_append, List.flatMap_cons, hBeforeEmpty, hAfterEmpty, List.nil_append,
    List.append_nil]

namespace Occupancy

/-- The occupant of the slot of a position. -/
def occupantAt (occupancy : Occupancy) (position : List UInt32) : Option Occupant :=
  if occupancy.layout.Contains position then
    occupancy.contents[occupancy.layout.flatten position]?
  else none

/-- Every occupied slot is the slot of a position, in a layout with room for all slots. -/
structure Sound (occupancy : Occupancy) : Prop where
  roomy : occupancy.layout.Roomy
  named : ∀ (slot : UInt64) (occupant : Occupant), occupancy.contents[slot]? = some occupant →
    ∃ position, occupancy.layout.Contains position ∧ occupancy.layout.flatten position = slot

section Slots

variable {occupancy : Occupancy} {position other : List UInt32}

theorem occupantAt_of_contains (hContains : occupancy.layout.Contains position) :
    occupancy.occupantAt position = occupancy.contents[occupancy.layout.flatten position]? :=
  if_pos hContains

theorem occupantAt_of_not_contains (hOutside : ¬ occupancy.layout.Contains position) :
    occupancy.occupantAt position = none :=
  if_neg hOutside

theorem sound_empty {layout : Layout} (hRoomy : layout.Roomy) (relaxed : Bool) :
    ({ layout, relaxed } : Occupancy).Sound := by
  refine ⟨hRoomy, ?_⟩
  intro slot occupant hOccupant
  simp at hOccupant

/-- An occupied slot is the slot of the position that is read back from it. -/
theorem Sound.flatten_unflatten (hSound : occupancy.Sound) {slot : UInt64} {occupant : Occupant}
    (hOccupant : occupancy.contents[slot]? = some occupant) :
    occupancy.layout.flatten (occupancy.layout.unflatten slot) = slot := by
  obtain ⟨place, hPlace, rfl⟩ := hSound.named slot occupant hOccupant
  rw [Layout.unflatten_flatten hSound.roomy hPlace]

/-- Slots stay sound when occupants leave or change. -/
theorem Sound.of_subset (hSound : occupancy.Sound) (changed : Occupancy)
    (hLayout : changed.layout = occupancy.layout)
    (hContents : ∀ (slot : UInt64) (occupant : Occupant), changed.contents[slot]? = some occupant →
      ∃ before, occupancy.contents[slot]? = some before) : changed.Sound := by
  refine ⟨hLayout ▸ hSound.roomy, ?_⟩
  intro slot occupant hOccupant
  obtain ⟨before, hBefore⟩ := hContents slot occupant hOccupant
  rw [hLayout]
  exact hSound.named slot before hBefore

theorem Sound.enter (hSound : occupancy.Sound) (hContains : occupancy.layout.Contains position)
    (occupant : Occupant) :
    (occupancy.enter (occupancy.layout.flatten position) occupant).Sound := by
  refine ⟨hSound.roomy, ?_⟩
  intro slot entered hEntered
  simp only [Occupancy.enter, Std.TreeMap.getElem?_insert, Std.compare_eq_iff_eq] at hEntered
  split at hEntered
  · next hSlot => exact ⟨position, hContains, hSlot⟩
  · exact hSound.named slot entered hEntered

theorem occupantAt_enter (hSound : occupancy.Sound)
    (hContains : occupancy.layout.Contains position) (occupant : Occupant) :
    (occupancy.enter (occupancy.layout.flatten position) occupant).occupantAt other
      = if position = other then some occupant else occupancy.occupantAt other := by
  unfold occupantAt
  by_cases hOther : occupancy.layout.Contains other
  · simp only [Occupancy.enter, hOther, if_true, Std.TreeMap.getElem?_insert,
      Std.compare_eq_iff_eq, Layout.flatten_inj hSound.roomy hContains hOther]
  · have hDifferent : position ≠ other := by
      rintro rfl
      exact hOther hContains
    simp only [Occupancy.enter, hOther, if_false, hDifferent]

theorem Sound.vacate (hSound : occupancy.Sound) (slot : UInt64) :
    (occupancy.vacate slot).Sound := by
  refine hSound.of_subset (occupancy.vacate slot) rfl ?_
  intro other occupant hOccupant
  simp only [Occupancy.vacate, Std.TreeMap.getElem?_erase] at hOccupant
  split at hOccupant
  · cases hOccupant
  · exact ⟨occupant, hOccupant⟩

theorem occupantAt_vacate (hSound : occupancy.Sound)
    (hContains : occupancy.layout.Contains position) :
    (occupancy.vacate (occupancy.layout.flatten position)).occupantAt other
      = if position = other then none else occupancy.occupantAt other := by
  unfold occupantAt
  by_cases hOther : occupancy.layout.Contains other
  · simp only [Occupancy.vacate, hOther, if_true, Std.TreeMap.getElem?_erase,
      Std.compare_eq_iff_eq, Layout.flatten_inj hSound.roomy hContains hOther]
  · simp only [Occupancy.vacate, hOther, if_false, ite_self]

theorem Sound.forgetOutput (hSound : occupancy.Sound) : occupancy.forgetOutput.Sound := by
  refine hSound.of_subset occupancy.forgetOutput rfl ?_
  intro slot occupant hOccupant
  simp only [Occupancy.forgetOutput, Std.TreeMap.getElem?_map] at hOccupant
  obtain ⟨before, hBefore, _⟩ := Option.map_eq_some_iff.mp hOccupant
  exact ⟨before, hBefore⟩

theorem occupantAt_forgetOutput (occupancy : Occupancy) (position : List UInt32) :
    occupancy.forgetOutput.occupantAt position
      = (occupancy.occupantAt position).map (·.forgetOutput) := by
  unfold occupantAt
  by_cases hContains : occupancy.layout.Contains position
  · simp only [Occupancy.forgetOutput, hContains, if_true, Std.TreeMap.getElem?_map]
    rfl
  · simp only [Occupancy.forgetOutput, hContains, if_false, Option.map_none]

/-! ### The end of a cycle -/

theorem getElem?_eraseAll (contents : Std.TreeMap UInt64 Occupant) (slots : List UInt64)
    (slot : UInt64) :
    (slots.foldl (fun contents slot => contents.erase slot) contents)[slot]?
      = if slot ∈ slots then none else contents[slot]? := by
  induction slots generalizing contents with
  | nil => simp
  | cons erased slots ih =>
      rw [List.foldl_cons, ih, Std.TreeMap.getElem?_erase]
      by_cases hErased : erased = slot
      · simp [hErased]
      · simp [hErased, Ne.symm hErased]

theorem pairwise_staleSlots (occupancy : Occupancy) :
    occupancy.staleSlots.Pairwise (· < ·) := by
  apply List.Pairwise.filter
  refine (Std.TreeSet.ordered_toList (t := occupancy.previous)).imp ?_
  intro first second hOrder
  exact Std.compare_eq_lt.mp hOrder

theorem nodup_staleSlots (occupancy : Occupancy) : occupancy.staleSlots.Nodup :=
  occupancy.pairwise_staleSlots.imp fun hOrder => UInt64.ne_of_lt hOrder

theorem Sound.endCycle (hSound : occupancy.Sound) : occupancy.endCycle.2.Sound := by
  refine hSound.of_subset occupancy.endCycle.2 rfl ?_
  intro slot occupant hOccupant
  simp only [Occupancy.endCycle, getElem?_eraseAll] at hOccupant
  split at hOccupant
  · cases hOccupant
  · exact ⟨occupant, hOccupant⟩

theorem occupantAt_endCycle (occupancy : Occupancy) (position : List UInt32) :
    occupancy.endCycle.2.occupantAt position
      = if occupancy.layout.flatten position ∈ occupancy.staleSlots then none
        else occupancy.occupantAt position := by
  unfold occupantAt
  by_cases hContains : occupancy.layout.Contains position
  · simp only [Occupancy.endCycle, hContains, if_true, getElem?_eraseAll]
  · simp only [Occupancy.endCycle, hContains, if_false, ite_self]

theorem checkExit_eq_ok {node : NodeId} {slot : UInt64} {item : ItemId}
    (hChecked : occupancy.checkExit node slot item = .ok ()) :
    ∃ occupant, occupancy.contents[slot]? = some occupant ∧ occupant.item = item := by
  unfold checkExit at hChecked
  split at hChecked
  · cases hChecked
  · split at hChecked
    · next hPresent => exact Option.map_eq_some_iff.mp hPresent
    · cases hChecked

theorem departure?_eq_some {slot : UInt64} {departure : Departure}
    (hDeparture : occupancy.departure? slot = some departure) :
    occupancy.contents[slot]? = some ⟨departure.item, departure.persistent, true⟩ ∧
      departure.position = occupancy.layout.unflatten slot := by
  unfold departure? at hDeparture
  split at hDeparture
  · next item persistent hContents =>
      cases hDeparture
      exact ⟨hContents, rfl⟩
  · cases hDeparture

/-- The exit from a slot at the end of a cycle. -/
def exitAt? (position : List UInt32) (recording : Bool) (departure : Departure) :
    Option SlotEntry :=
  if departure.position = position then
    some ⟨.exits departure.item, departure.persistent, true, recording⟩
  else none

/-- At a position, only the occupant of its own slot departs. -/
theorem Sound.exits_at (hSound : occupancy.Sound) (position : List UInt32) (recording : Bool) :
    occupancy.endCycle.1.filterMap (exitAt? position recording)
      = if occupancy.layout.flatten position ∈ occupancy.staleSlots then
          match occupancy.occupantAt position with
          | some ⟨item, persistent, true⟩ => [⟨.exits item, persistent, true, recording⟩]
          | _ => []
        else [] := by
  -- a departure carries the position read back from its slot, which is this one only here
  have hElsewhere (slot : UInt64)
      (hSlot : occupancy.layout.Contains position → slot ≠ occupancy.layout.flatten position) :
      (occupancy.departure? slot).bind (exitAt? position recording) = none := by
    cases hDeparture : occupancy.departure? slot with
    | none => rfl
    | some departure =>
        obtain ⟨hContents, hPosition⟩ := departure?_eq_some hDeparture
        obtain ⟨place, hPlace, rfl⟩ := hSound.named slot _ hContents
        rw [Layout.unflatten_flatten hSound.roomy hPlace] at hPosition
        apply if_neg
        rintro rfl
        rw [hPosition] at hSlot
        exact hSlot hPlace rfl
  unfold Occupancy.endCycle
  dsimp only
  rw [List.filterMap_filterMap]
  by_cases hHere : occupancy.layout.Contains position ∧
      occupancy.layout.flatten position ∈ occupancy.staleSlots
  · obtain ⟨hContains, hStale⟩ := hHere
    have hOnly := flatMap_eq_of_only
      (fun slot => ((occupancy.departure? slot).bind (exitAt? position recording)).toList)
      occupancy.nodup_staleSlots hStale fun slot _ hSlot => by
        rw [hElsewhere slot fun _ => hSlot]
        rfl
    rw [List.filterMap_eq_flatMap_toList, hOnly, if_pos hStale,
      occupantAt_of_contains hContains]
    unfold departure?
    cases occupancy.contents[occupancy.layout.flatten position]? with
    | none => rfl
    | some occupant =>
        obtain ⟨item, persistent, announced⟩ := occupant
        cases announced with
        | false => rfl
        | true => simp [exitAt?, Layout.unflatten_flatten hSound.roomy hContains]
  · have hNothing : occupancy.staleSlots.filterMap
        (fun slot => (occupancy.departure? slot).bind (exitAt? position recording)) = [] := by
      rw [List.filterMap_eq_nil_iff]
      intro slot hSlot
      apply hElsewhere
      rintro hContains rfl
      exact hHere ⟨hContains, hSlot⟩
    rw [hNothing]
    split
    · next hStale =>
        rw [occupantAt_of_not_contains fun hContains => hHere ⟨hContains, hStale⟩]
    · rfl

end Slots
end Occupancy

/-! ### All nodes -/

namespace OccupancyTable

/-- The occupant of the slot of a position, if the node is watched. -/
def occupantAt (table : OccupancyTable) (node : NodeId) (position : List UInt32) :
    Option Occupant :=
  (table.get? node).bind (·.occupantAt position)

section Nodes

variable {table : OccupancyTable} {node other : NodeId}

theorem get?_register (table : OccupancyTable) (node other : NodeId) (layout : Layout)
    (relaxed : Bool) :
    (table.register node layout relaxed).get? other
      = if node = other then some { layout, relaxed } else table.get? other := by
  simp only [OccupancyTable.get?, OccupancyTable.register, Std.TreeMap.getElem?_insert,
    Std.compare_eq_iff_eq]

theorem get?_modify (table : OccupancyTable) (node other : NodeId)
    (change : Occupancy → Occupancy) :
    (table.modify node change).get? other
      = if node = other then (table.get? node).map change else table.get? other := by
  simp only [OccupancyTable.get?, OccupancyTable.modify, Std.TreeMap.getElem?_modify,
    Std.compare_eq_iff_eq]

theorem get?_forgetOutput (table : OccupancyTable) (node : NodeId) :
    table.forgetOutput.get? node = (table.get? node).map (·.forgetOutput) := by
  simp only [OccupancyTable.get?, OccupancyTable.forgetOutput, Std.TreeMap.getElem?_map]

theorem get?_endCycle (table : OccupancyTable) (accepts : NodeId → Bool) (node : NodeId) :
    (table.endCycle accepts).2.get? node
      = (table.get? node).map fun occupancy =>
          if accepts node then occupancy.endCycle.2 else occupancy := by
  simp only [OccupancyTable.get?, OccupancyTable.endCycle, Std.TreeMap.getElem?_map]

theorem occupantAt_forgetOutput (table : OccupancyTable) (node : NodeId)
    (position : List UInt32) :
    table.forgetOutput.occupantAt node position
      = (table.occupantAt node position).map (·.forgetOutput) := by
  unfold occupantAt
  rw [get?_forgetOutput]
  cases table.get? node with
  | none => rfl
  | some occupancy => exact occupancy.occupantAt_forgetOutput position

theorem pairwise_nodes (table : OccupancyTable) :
    table.nodes.toList.Pairwise fun first second => first.1 < second.1 :=
  (Std.TreeMap.ordered_keys_toList (t := table.nodes)).imp fun hOrder =>
    Std.compare_eq_lt.mp hOrder

/-- What only one node has anything to say about. -/
theorem flatMap_nodes {α : Type} (table : OccupancyTable) (node : NodeId)
    (said : Occupancy → List α) :
    table.nodes.toList.flatMap (fun tracked => if tracked.1 = node then said tracked.2 else [])
      = (table.get? node).elim [] said := by
  have hKnown {occupancy : Occupancy} (hListed : (node, occupancy) ∈ table.nodes.toList) :
      table.get? node = some occupancy :=
    Std.TreeMap.mem_toList_iff_getElem?_eq_some.mp hListed
  cases hTracked : table.get? node with
  | none =>
      rw [Option.elim_none, List.flatMap_eq_nil_iff]
      rintro ⟨other, occupancy⟩ hListed
      apply if_neg
      rintro rfl
      rw [hKnown hListed] at hTracked
      cases hTracked
  | some occupancy =>
      have hListed : (node, occupancy) ∈ table.nodes.toList :=
        Std.TreeMap.mem_toList_iff_getElem?_eq_some.mpr hTracked
      have hNodup : table.nodes.toList.Nodup := table.pairwise_nodes.imp fun hOrder hSame =>
        UInt16.ne_of_lt hOrder (congrArg Prod.fst hSame)
      rw [flatMap_eq_of_only _ hNodup hListed]
      · exact if_pos rfl
      · rintro ⟨other, found⟩ hOther hDifferent
        apply if_neg
        rintro rfl
        rw [hKnown hOther] at hTracked
        cases hTracked
        exact hDifferent rfl

/-- What departs at the end of a cycle was in a stale slot of an accepted node. -/
theorem mem_departures_iff {accepts : NodeId → Bool} {departure : Departure} :
    (node, departure) ∈ (table.endCycle accepts).1 ↔ accepts node = true ∧
      ∃ occupancy slot, table.get? node = some occupancy ∧ slot ∈ occupancy.staleSlots ∧
        occupancy.departure? slot = some departure := by
  unfold endCycle
  rw [List.mem_flatMap]
  constructor
  · rintro ⟨⟨other, occupancy⟩, hListed, hLeaving⟩
    dsimp only at hLeaving
    split at hLeaving
    · next hAccepts =>
        obtain ⟨left, hLeft, hSame⟩ := List.mem_map.mp hLeaving
        cases hSame
        obtain ⟨slot, hStale, hDeparts⟩ := List.mem_filterMap.mp hLeft
        exact ⟨hAccepts, occupancy, slot, Std.TreeMap.mem_toList_iff_getElem?_eq_some.mp hListed,
          hStale, hDeparts⟩
    · cases hLeaving
  · rintro ⟨hAccepts, occupancy, slot, hTracked, hStale, hDeparts⟩
    refine ⟨(node, occupancy), Std.TreeMap.mem_toList_iff_getElem?_eq_some.mpr hTracked, ?_⟩
    dsimp only
    rw [if_pos hAccepts]
    exact List.mem_map_of_mem (List.mem_filterMap.mpr ⟨slot, hStale, hDeparts⟩)

theorem mem_departures {accepts : NodeId → Bool} {departure : Departure}
    (hDeparts : (node, departure) ∈ (table.endCycle accepts).1) :
    ∃ occupancy slot, table.get? node = some occupancy ∧
      occupancy.departure? slot = some departure := by
  obtain ⟨_, occupancy, slot, hTracked, _, hSlot⟩ := mem_departures_iff.mp hDeparts
  exact ⟨occupancy, slot, hTracked, hSlot⟩

theorem slotLog_departures (node : NodeId) (position : List UInt32) (recording : Bool)
    (leaving : List (NodeId × Departure)) :
    slotLog node position (entriesOf recording (Machine.departureDispatches leaving))
      = leaving.filterMap fun left =>
          if left.1 = node then Occupancy.exitAt? position recording left.2 else none := by
  unfold slotLog entriesOf Machine.departureDispatches
  rw [List.map_map, List.filterMap_map]
  apply List.filterMap_congr
  rintro ⟨other, departure⟩ _
  unfold Occupancy.exitAt?
  by_cases hNode : other = node
  · by_cases hPosition : departure.position = position
    · simp [Entry.at?, changeAt?, hNode, hPosition]
    · simp [Entry.at?, changeAt?, hNode, hPosition]
  · simp [Entry.at?, changeAt?, hNode]

/-- At a node, only its own occupants depart. -/
theorem filterMap_departures (table : OccupancyTable) (accepts : NodeId → Bool) (node : NodeId) :
    (table.endCycle accepts).1.filterMap
        (fun left => if left.1 = node then some left.2 else none)
      = (table.get? node).elim [] fun occupancy =>
          if accepts node then occupancy.endCycle.1 else [] := by
  rw [← flatMap_nodes]
  unfold endCycle
  rw [List.filterMap_flatMap]
  congr 1
  funext ⟨other, occupancy⟩
  dsimp only
  by_cases hNode : other = node
  · subst hNode
    rw [if_pos rfl]
    split
    · rw [List.filterMap_map]
      simp
    · rfl
  · rw [if_neg hNode]
    split
    · rw [List.filterMap_map]
      simp [hNode]
    · rfl

theorem exits_at (table : OccupancyTable) (accepts : NodeId → Bool) (node : NodeId)
    (position : List UInt32) (recording : Bool) :
    slotLog node position
        (entriesOf recording (Machine.departureDispatches (table.endCycle accepts).1))
      = (table.get? node).elim [] fun occupancy =>
          if accepts node then
            occupancy.endCycle.1.filterMap (Occupancy.exitAt? position recording)
          else [] := by
  have hOwn (left : NodeId × Departure) :
      (if left.1 = node then Occupancy.exitAt? position recording left.2 else none)
        = (if left.1 = node then some left.2 else none).bind
            (Occupancy.exitAt? position recording) := by
    split
    · rfl
    · rfl
  simp only [slotLog_departures, hOwn]
  rw [← List.filterMap_filterMap, filterMap_departures]
  cases table.get? node with
  | none => rfl
  | some occupancy =>
      rw [Option.elim_some, Option.elim_some]
      split
      · rfl
      · rfl

end Nodes
end OccupancyTable
end Recording
end CycleTrace
