/-
Every command is within the limits.

The limits are checked where they are broken: names by declarations, tags by
their setters, positions by the topology, moves on their own. No check is made
when a command is written, when one is replayed and when one follows from what
the slots hold. Such a command repeats what was checked before, which is told
by an invariant of the machine: no slot and no counter names item 0, no layout
has too many dimensions, and no bandwidth of an edge changes.
-/

import CycleTrace.Proofs.Recording.Acceptance
import CycleTrace.Proofs.Recording.Runs
import CycleTrace.Proofs.Recording.Steps

namespace CycleTrace

open Structure (Topology Layout)

namespace Command

/-- The limits of a recorder for the value of a tag. -/
def ValueWithinLimits : TagValue → Prop
  | .int _ => True
  | .set values => values.length ≤ Limits.setElements
  | .text value => value.utf8ByteSize ≤ Limits.tagTextBytes

/-- The limits of a recorder for its commands. A recorder gives no definitions:
these belong to a stream. -/
def WithinLimits : Command → Prop
  | version major _ => major = formatMajor
  | newNode _ name _ _ | newEdge _ _ _ _ _ name | newClock _ _ _ _ name =>
      name.utf8ByteSize ≤ Limits.nameBytes
  | moveItems _ items positions =>
      items.length ≤ Limits.movedItems ∧ (positions = [] ∨ positions.length = items.length)
  | enterNode _ _ position | exitNode _ _ position => position.length ≤ Limits.dimensions
  | setLayout _ dimensions => dimensions.length ≤ Limits.dimensions
  | tagItem _ tag value | tagCycle tag value =>
      tag.utf8ByteSize ≤ Limits.tagNameBytes ∧ ValueWithinLimits value
  | tagNode _ tag value position =>
      tag.utf8ByteSize ≤ Limits.tagNameBytes ∧ ValueWithinLimits value ∧
        position.length ≤ Limits.dimensions
  | describeTag tag description =>
      tag.utf8ByteSize ≤ Limits.tagNameBytes ∧ description.utf8ByteSize ≤ Limits.tagTextBytes
  | comment _ text => text.utf8ByteSize < UInt32.size
  | commentBytes _ data => data.length < UInt32.size
  | defineTag .. | defineText .. => False
  | newItem _ | deleteItem _ | setInputBandwidth _ _ | setOutputBandwidth _ _ | setClock _ _
  | cycle _ | clockedCycle _ | startActivity _ => True

/-- The items that a command names. -/
def items : Command → List ItemId
  | newItem item | deleteItem item | enterNode _ item _ | exitNode _ item _ | tagItem item _ _ =>
      [item]
  | moveItems _ items _ => items
  | _ => []

/-- The positions of moved items are below the bandwidth of the edge. -/
def LanesWithin (topology : Topology) : Command → Prop
  | moveItems edge _ positions =>
      ∃ bandwidth, topology.bandwidth? edge = some bandwidth ∧
        ∀ position ∈ positions, position < bandwidth
  | _ => True

/-- What a command of a recorder keeps to, with the topology as it is. -/
structure Permitted (topology : Topology) (command : Command) : Prop where
  limits : command.WithinLimits
  items : noItem ∉ command.items
  lanes : command.LanesWithin topology

theorem ValueWithinLimits.fits {value : TagValue} (hWithin : ValueWithinLimits value) :
    ValueFits value := by
  cases value with
  | int number => exact trivial
  | set values => exact hWithin
  | text text => exact Nat.lt_of_le_of_lt hWithin (by decide)

/-- The limits of a recorder are narrower than those of the binary format. -/
theorem WithinLimits.fitsWire {command : Command} (hWithin : command.WithinLimits) :
    command.FitsWire := by
  have hName {name : String} (hShort : name.utf8ByteSize ≤ Limits.nameBytes) : ShortText name :=
    Nat.lt_of_le_of_lt hShort (by decide)
  have hTag {name : String} (hShort : name.utf8ByteSize ≤ Limits.tagNameBytes) :
      ShortText name := Nat.lt_of_le_of_lt hShort (by decide)
  have hText {text : String} (hShort : text.utf8ByteSize ≤ Limits.tagTextBytes) :
      ShortText text := Nat.lt_of_le_of_lt hShort (by decide)
  cases command with
  | newNode id name parent number => exact hName hWithin
  | newEdge id source destination bandwidth latency name => exact hName hWithin
  | newClock id frequency skew divisions name => exact hName hWithin
  | tagItem item tag value => exact ⟨hTag hWithin.1, hWithin.2.fits⟩
  | tagCycle tag value => exact ⟨hTag hWithin.1, hWithin.2.fits⟩
  | tagNode node tag value position =>
      exact ⟨hTag hWithin.1, hWithin.2.1.fits, hWithin.2.2⟩
  | describeTag tag description => exact ⟨hTag hWithin.1, hText hWithin.2⟩
  | defineTag id name => exact hWithin.elim
  | defineText id value => exact hWithin.elim
  | _ => exact hWithin

theorem Permitted.mono {topology later : Topology} {command : Command}
    (hPermitted : command.Permitted topology)
    (hKept : ∀ edge bandwidth, topology.bandwidth? edge = some bandwidth →
      later.bandwidth? edge = some bandwidth) : command.Permitted later := by
  refine ⟨hPermitted.limits, hPermitted.items, ?_⟩
  have hLanes := hPermitted.lanes
  cases command with
  | moveItems edge items positions =>
      obtain ⟨bandwidth, hBandwidth, hBelow⟩ := hLanes
      exact ⟨bandwidth, hKept edge bandwidth hBandwidth, hBelow⟩
  | _ => exact trivial

end Command

/-! ### Checks -/

theorem checkTagName_eq_ok {name : String} (hChecked : checkTagName name = .ok ()) :
    name.utf8ByteSize ≤ Limits.tagNameBytes := by
  unfold checkTagName at hChecked
  split at hChecked
  · cases hChecked
  · next hShort => exact Nat.le_of_not_gt hShort

theorem checkDescription_eq_ok {description : String}
    (hChecked : checkDescription description = .ok ()) :
    description.utf8ByteSize ≤ Limits.tagTextBytes := by
  unfold checkDescription at hChecked
  split at hChecked
  · cases hChecked
  · next hShort => exact Nat.le_of_not_gt hShort

theorem checkValue_eq_ok {value : TagValue} (hChecked : value.check = .ok ()) :
    Command.ValueWithinLimits value := by
  cases value with
  | int number => exact trivial
  | set values =>
      unfold TagValue.check at hChecked
      dsimp only at hChecked
      split at hChecked
      · cases hChecked
      · next hFew => exact Nat.le_of_not_gt hFew
  | text text =>
      unfold TagValue.check at hChecked
      dsimp only at hChecked
      split at hChecked
      · cases hChecked
      · next hShort => exact Nat.le_of_not_gt hShort

namespace Recording

open Output (Directory Encoder openingVersion)

theorem checkItem_eq_ok {item : ItemId} (hChecked : checkItem item = .ok ()) :
    item ≠ noItem := by
  unfold checkItem at hChecked
  split at hChecked
  · cases hChecked
  · next hNamed => exact hNamed

theorem Machine.checkTag_eq_ok {tag : String} {value : TagValue}
    (hChecked : Machine.checkTag tag value = .ok ()) :
    tag.utf8ByteSize ≤ Limits.tagNameBytes ∧ Command.ValueWithinLimits value := by
  obtain ⟨_, hName, hValue⟩ := ok_of_bind hChecked
  exact ⟨checkTagName_eq_ok hName, checkValue_eq_ok hValue⟩

theorem Machine.checkMove_permitted {machine : Machine} {edge : EdgeId} {items : List ItemId}
    {positions : List UInt32} (hChecked : machine.checkMove edge items positions = .ok ()) :
    (Command.moveItems edge items positions).Permitted machine.topology := by
  obtain ⟨known, hEdge, hRest⟩ := ok_of_bind hChecked
  have hBandwidth : machine.topology.bandwidth? edge = some known.bandwidth := by
    rw [Topology.bandwidth?, Topology.edge_eq_ok hEdge]
    rfl
  dsimp only at hRest
  by_cases hMany : items.length > Limits.movedItems
  · rw [if_pos hMany] at hRest
    cases hRest
  rw [if_neg hMany] at hRest
  by_cases hUnpaired : (!positions.isEmpty && decide (positions.length ≠ items.length)) = true
  · rw [if_pos hUnpaired] at hRest
    cases hRest
  rw [if_neg hUnpaired] at hRest
  by_cases hBeyond : (positions.any fun position => decide (known.bandwidth ≤ position)) = true
  · rw [if_pos hBeyond] at hRest
    cases hRest
  rw [if_neg hBeyond] at hRest
  by_cases hUnnamed : items.contains noItem = true
  · rw [if_pos hUnnamed] at hRest
    cases hRest
  refine ⟨⟨Nat.le_of_not_gt hMany, ?_⟩, ?_, known.bandwidth, hBandwidth, ?_⟩
  · cases positions with
    | nil => exact .inl rfl
    | cons first rest =>
        right
        simpa using hUnpaired
  · intro hMember
    exact hUnnamed (List.contains_iff_mem.mpr hMember)
  · intro position hPosition
    have hBelow : ¬ known.bandwidth ≤ position := by
      intro hAbove
      exact hBeyond (List.any_eq_true.mpr ⟨position, hPosition, decide_eq_true hAbove⟩)
    exact UInt32.not_le.mp hBelow

/-! ### What the slots hold -/

namespace Occupancy

/-- No slot holds item 0. -/
def Named (occupancy : Occupancy) : Prop :=
  ∀ (slot : UInt64) (occupant : Occupant), occupancy.contents[slot]? = some occupant →
    occupant.item ≠ noItem

variable {occupancy : Occupancy}

theorem Named.enter (hNamed : occupancy.Named) {occupant : Occupant}
    (hItem : occupant.item ≠ noItem) (slot : UInt64) : (occupancy.enter slot occupant).Named := by
  intro other found hFound
  unfold Occupancy.enter at hFound
  dsimp only at hFound
  rw [Std.TreeMap.getElem?_insert] at hFound
  split at hFound
  · cases hFound
    exact hItem
  · exact hNamed other found hFound

theorem Named.vacate (hNamed : occupancy.Named) (slot : UInt64) :
    (occupancy.vacate slot).Named := by
  intro other found hFound
  unfold Occupancy.vacate at hFound
  dsimp only at hFound
  rw [Std.TreeMap.getElem?_erase] at hFound
  split at hFound
  · cases hFound
  · exact hNamed other found hFound

theorem Named.forgetOutput (hNamed : occupancy.Named) : occupancy.forgetOutput.Named := by
  intro slot found hFound
  unfold Occupancy.forgetOutput at hFound
  dsimp only at hFound
  rw [Std.TreeMap.getElem?_map] at hFound
  obtain ⟨known, hKnown, rfl⟩ := Option.map_eq_some_iff.mp hFound
  exact hNamed slot known hKnown

theorem Named.endCycle (hNamed : occupancy.Named) : occupancy.endCycle.2.Named := by
  intro slot found hFound
  unfold Occupancy.endCycle at hFound
  dsimp only at hFound
  rw [getElem?_eraseAll] at hFound
  split at hFound
  · cases hFound
  · exact hNamed slot found hFound

theorem Named.evicted (hNamed : occupancy.Named) {slot : UInt64} {item evicted : ItemId}
    {persistent : Bool} (hArrival : occupancy.arrival slot item = .replaces evicted persistent) :
    evicted ≠ noItem := by
  unfold Occupancy.arrival at hArrival
  split at hArrival
  · cases hArrival
  · next occupant hOccupant =>
      split at hArrival
      · cases hArrival
      · split at hArrival
        · cases hArrival
        · cases hArrival
          exact hNamed slot occupant hOccupant

end Occupancy

namespace OccupancyTable

/-- No slot of any node holds item 0. -/
def Named (table : OccupancyTable) : Prop :=
  ∀ (node : NodeId) (occupancy : Occupancy), table.get? node = some occupancy → occupancy.Named

variable {table : OccupancyTable}

theorem Named.register (hNamed : table.Named) (node : NodeId) (layout : Layout)
    (relaxed : Bool) : (table.register node layout relaxed).Named := by
  intro other occupancy hWatched
  rw [get?_register] at hWatched
  split at hWatched
  · cases hWatched
    intro slot occupant hOccupant
    rw [Std.TreeMap.getElem?_emptyc] at hOccupant
    cases hOccupant
  · exact hNamed other occupancy hWatched

theorem Named.modify (hNamed : table.Named) (node : NodeId) {change : Occupancy → Occupancy}
    (hChange : ∀ occupancy : Occupancy, occupancy.Named → (change occupancy).Named) :
    (table.modify node change).Named := by
  intro other occupancy hWatched
  rw [get?_modify] at hWatched
  split at hWatched
  · obtain ⟨before, hBefore, rfl⟩ := Option.map_eq_some_iff.mp hWatched
    exact hChange before (hNamed node before hBefore)
  · exact hNamed other occupancy hWatched

theorem Named.forgetOutput (hNamed : table.Named) : table.forgetOutput.Named := by
  intro node occupancy hWatched
  rw [get?_forgetOutput] at hWatched
  obtain ⟨before, hBefore, rfl⟩ := Option.map_eq_some_iff.mp hWatched
  exact (hNamed node before hBefore).forgetOutput

theorem Named.endCycle (hNamed : table.Named) (accepts : NodeId → Bool) :
    (table.endCycle accepts).2.Named := by
  intro node occupancy hWatched
  rw [get?_endCycle] at hWatched
  obtain ⟨before, hBefore, rfl⟩ := Option.map_eq_some_iff.mp hWatched
  split
  · exact (hNamed node before hBefore).endCycle
  · exact hNamed node before hBefore

end OccupancyTable

/-! ### Machines -/

/-- An event whose comment is not too long for its length field. -/
def Event.Moderate : Event → Prop
  | .comment _ text => text.utf8ByteSize < UInt32.size
  | .commentBytes _ data => data.length < UInt32.size
  | _ => True

namespace Machine

/-- What later commands are made of keeps to the limits. -/
structure Bounded (machine : Machine) : Prop where
  shallow : machine.topology.Shallow
  named : machine.occupancy.Named
  nextItem : machine.nextItem ≠ noItem
  archive : ∀ data, machine.archive = some data → data.length < UInt32.size

theorem itemAfter_ne (item : ItemId) : itemAfter item ≠ noItem := by
  unfold itemAfter
  split
  · decide
  · next hNamed => exact hNamed

section Plans

variable {machine : Machine} {circumstances : Circumstances} {event : Event} {plan : Plan}

theorem permitted_departure (hBounded : machine.Bounded) (hWatching : machine.Watching)
    {node : NodeId} {occupancy : Occupancy} {slot : UInt64} {departure : Departure}
    (hWatched : machine.occupancy.get? node = some occupancy)
    (hSlot : occupancy.departure? slot = some departure) :
    (Command.exitNode node departure.item departure.position).Permitted machine.topology := by
  -- nothing checks a departure; item and position were checked when the slot was entered
  obtain ⟨hOccupant, hPosition⟩ := Occupancy.departure?_eq_some hSlot
  obtain ⟨known, hKnown, _, hLayout⟩ := hWatching.of_get? hWatched
  have hItem := hBounded.named node occupancy hWatched slot _ hOccupant
  refine ⟨?_, ?_, trivial⟩
  · change departure.position.length ≤ Limits.dimensions
    rw [hPosition, Layout.length_unflatten]
    exact hBounded.shallow node known occupancy.layout hKnown hLayout
  · intro hZero
    exact hItem (List.mem_singleton.mp hZero).symm

/-- What an accepted event tells of keeps to the limits, asked for or not. -/
theorem Accepts.permitted (hAccepts : machine.Accepts circumstances event plan)
    (hBounded : machine.Bounded) (hWatching : machine.Watching) (hModerate : event.Moderate) :
    ∀ sent ∈ plan.dispatches, sent.command.Permitted machine.topology := by
  have hOnly {item : ItemId} (hItem : checkItem item = .ok ()) : noItem ∉ [item] :=
    fun hZero => checkItem_eq_ok hItem (List.mem_singleton.mp hZero).symm
  have hNone : noItem ∉ ([] : List ItemId) := List.not_mem_nil
  cases hAccepts with
  | newNode hChecked => exact forall_single ⟨(Topology.checkNode_eq_ok hChecked).1, hNone, trivial⟩
  | newEdge hChecked => exact forall_single ⟨(Topology.checkEdge_eq_ok hChecked).1, hNone, trivial⟩
  | newClock hChecked =>
      exact forall_single ⟨(Topology.checkClock_eq_ok hChecked).1, hNone, trivial⟩
  | setLayout hChecked hNode =>
      exact forall_single ⟨(Topology.checkLayout_dimensions hChecked).2.2, hNone, trivial⟩
  | setClock hNode hClock => exact forall_single ⟨trivial, hNone, trivial⟩
  | setInputBandwidth hNode => exact forall_single ⟨trivial, hNone, trivial⟩
  | setOutputBandwidth hNode => exact forall_single ⟨trivial, hNone, trivial⟩
  | chosenItem =>
      refine forall_single ⟨trivial, ?_, trivial⟩
      exact fun hZero => hBounded.nextItem (List.mem_singleton.mp hZero).symm
  | givenItem hItem => exact forall_single ⟨trivial, hOnly hItem, trivial⟩
  | deleteItem hItem => exact forall_single ⟨trivial, hOnly hItem, trivial⟩
  | moveNone hMove hItems => exact List.forall_mem_nil _
  | moveItems hMove hItems => exact forall_single (checkMove_permitted hMove)
  | enterUnwatched hItem hPosition hUnwatched =>
      have hLength := (Topology.checkPosition_length hPosition).2 hBounded.shallow
      exact forall_single ⟨hLength, hOnly hItem, trivial⟩
  | enterSlot hItem hPosition hWatched hSlot hAnnounced =>
      have hLength := (Topology.checkPosition_length hPosition).2 hBounded.shallow
      refine forall_arrivalDispatches ⟨hLength, hOnly hItem, trivial⟩ ?_
      intro evicted evictedPersistent hArrival
      -- the item that leaves is not the one that was checked
      have hNamed := (hBounded.named _ _ hWatched).evicted hArrival
      exact ⟨hLength, fun hZero => hNamed (List.mem_singleton.mp hZero).symm, trivial⟩
  | exitUnwatched hItem hPosition hUnwatched =>
      have hLength := (Topology.checkPosition_length hPosition).2 hBounded.shallow
      exact forall_single ⟨hLength, hOnly hItem, trivial⟩
  | exitSlot hItem hPosition hWatched hSlot hExit =>
      have hLength := (Topology.checkPosition_length hPosition).2 hBounded.shallow
      exact forall_single ⟨hLength, hOnly hItem, trivial⟩
  | tagRepeated hTag hNode hSuppresses hRepeats => exact List.forall_mem_nil _
  | tagNode hTag hNode hNew =>
      obtain ⟨hName, hValue⟩ := checkTag_eq_ok hTag
      exact forall_single ⟨⟨hName, hValue, Nat.zero_le _⟩, hNone, trivial⟩
  | tagSlot hTag hPosition =>
      obtain ⟨hName, hValue⟩ := checkTag_eq_ok hTag
      have hLength := (Topology.checkPosition_length hPosition).2 hBounded.shallow
      exact forall_single ⟨⟨hName, hValue, hLength⟩, hNone, trivial⟩
  | tagItem hItem hTag => exact forall_single ⟨checkTag_eq_ok hTag, hOnly hItem, trivial⟩
  | tagCycle hTag => exact forall_single ⟨checkTag_eq_ok hTag, hNone, trivial⟩
  | describeTag hTag hDescription =>
      have hTexts := And.intro (checkTagName_eq_ok hTag) (checkDescription_eq_ok hDescription)
      exact forall_single ⟨hTexts, hNone, trivial⟩
  | @cycle number =>
      exact forall_beginCycle number ⟨trivial, hNone, trivial⟩
        (permitted_departure hBounded hWatching)
  | repeatedCycle hClock hRepeated => exact List.forall_mem_nil _
  | @clockedCycle cycle plan hClock hNew hPlan =>
      subst hPlan
      exact forall_beginCycle cycle.cycle ⟨trivial, hNone, trivial⟩
        (permitted_departure hBounded hWatching)
  | comment hMagic => exact forall_single ⟨hModerate, hNone, trivial⟩
  | commentBytes hMagic => exact forall_single ⟨hModerate, hNone, trivial⟩
  | startActivity =>
      refine forall_startActivity ?_ ⟨trivial, hNone, trivial⟩
      exact fun data hData => ⟨hBounded.archive data hData, hNone, trivial⟩

/-- An accepted event leaves the machine bounded, and edges with their
bandwidths. -/
theorem Accepts.bounded (hAccepts : machine.Accepts circumstances event plan)
    (hBounded : machine.Bounded) :
    plan.machine.Bounded ∧ ∀ edge bandwidth,
      machine.topology.bandwidth? edge = some bandwidth →
        plan.machine.topology.bandwidth? edge = some bandwidth := by
  obtain ⟨hShallow, hNamed, hNext, hArchive⟩ := hBounded
  cases hAccepts with
  | newNode hChecked =>
      exact ⟨⟨hShallow.insertNode _ _ _ _, hNamed, hNext, hArchive⟩, fun _ _ => id⟩
  | newEdge hChecked =>
      refine ⟨⟨hShallow, hNamed, hNext, hArchive⟩, fun edge bandwidth hKnown => ?_⟩
      exact Topology.bandwidth?_insertEdge (Topology.checkEdge_eq_ok hChecked).2.2.2 hKnown
  | setLayout hChecked hNode =>
      obtain ⟨_, hDimensions, hFew⟩ := Topology.checkLayout_dimensions hChecked
      refine ⟨⟨hShallow.modifyNode _ _ ?_, ?_, hNext, hArchive⟩, fun _ _ => id⟩
      · intro node layout hLayout
        cases hLayout
        exact .inr (hDimensions.symm ▸ hFew)
      · unfold withLayout
        dsimp only
        split
        · exact hNamed.register _ _ _
        · exact hNamed
  | setClock hNode hClock =>
      exact ⟨⟨hShallow.modifyNode _ _ fun _ _ hKept => .inl hKept, hNamed, hNext, hArchive⟩,
        fun _ _ => id⟩
  | setInputBandwidth hNode =>
      exact ⟨⟨hShallow.modifyNode _ _ fun _ _ hKept => .inl hKept, hNamed, hNext, hArchive⟩,
        fun _ _ => id⟩
  | setOutputBandwidth hNode =>
      exact ⟨⟨hShallow.modifyNode _ _ fun _ _ hKept => .inl hKept, hNamed, hNext, hArchive⟩,
        fun _ _ => id⟩
  | chosenItem => exact ⟨⟨hShallow, hNamed, itemAfter_ne _, hArchive⟩, fun _ _ => id⟩
  | enterSlot hItem hPosition hWatched hSlot hAnnounced =>
      refine ⟨⟨hShallow, hNamed.modify _ ?_, hNext, hArchive⟩, fun _ _ => id⟩
      exact fun occupancy hOccupants => hOccupants.enter (checkItem_eq_ok hItem) _
  | exitSlot hItem hPosition hWatched hSlot hExit =>
      refine ⟨⟨hShallow, hNamed.modify _ ?_, hNext, hArchive⟩, fun _ _ => id⟩
      exact fun occupancy hOccupants => hOccupants.vacate _
  | tagNode hTag hNode hNew =>
      dsimp only
      split
      · exact ⟨⟨hShallow, hNamed, hNext, hArchive⟩, fun _ _ => id⟩
      · exact ⟨⟨hShallow, hNamed, hNext, hArchive⟩, fun _ _ => id⟩
  | cycle => exact ⟨⟨hShallow, hNamed.endCycle _, hNext, hArchive⟩, fun _ _ => id⟩
  | clockedCycle hClock hNew hPlan =>
      subst hPlan
      exact ⟨⟨hShallow, hNamed.endCycle _, hNext, hArchive⟩, fun _ _ => id⟩
  | startActivity =>
      refine ⟨⟨hShallow, hNamed, hNext, ?_⟩, fun _ _ => id⟩
      intro data hData
      cases hData
  | _ => exact ⟨⟨hShallow, hNamed, hNext, hArchive⟩, fun _ _ => id⟩

end Plans
end Machine

/-! ### Histories -/

/-- A call whose comment or archive is not too long for its length field. -/
def Call.Moderate : Call → Prop
  | .report event _ => event.Moderate
  | .attachArchive data => data.length < UInt32.size
  | _ => True

instance : (event : Event) → Decidable event.Moderate
  | .comment _ text => inferInstanceAs (Decidable (text.utf8ByteSize < UInt32.size))
  | .commentBytes _ data => inferInstanceAs (Decidable (data.length < UInt32.size))
  | .newNode .. | .newEdge .. | .newClock .. | .setLayout .. | .setClock ..
  | .setInputBandwidth .. | .setOutputBandwidth .. | .newItem .. | .deleteItem .. | .moveItems ..
  | .enterNode .. | .exitNode .. | .tagNode .. | .tagSlot .. | .tagItem .. | .tagCycle ..
  | .describeTag .. | .cycle .. | .clockedCycle .. | .startActivity .. => isTrue trivial

instance : (call : Call) → Decidable call.Moderate
  | .report event _ => inferInstanceAs (Decidable event.Moderate)
  | .attachArchive data => inferInstanceAs (Decidable (data.length < UInt32.size))
  | .turnOn | .turnOff | .flush | .close | .changeFile _ | .setTextForm _ => isTrue trivial

theorem Recorder.live_named {sent : List Dispatch}
    (hSent : ∀ each ∈ sent, noItem ∉ each.command.items) {live : Std.TreeSet ItemId}
    (hLive : noItem ∉ live) : noItem ∉ sent.foldl trackItem live := by
  induction sent generalizing live with
  | nil => exact hLive
  | cons first rest ih =>
      rw [List.forall_mem_cons] at hSent
      refine ih hSent.2 ?_
      have hFirst := hSent.1
      unfold trackItem
      split
      · next id =>
          rw [Std.TreeSet.mem_insert, not_or]
          refine ⟨?_, hLive⟩
          intro hSame
          exact hFirst (List.mem_singleton.mpr (Std.compare_eq_iff_eq.mp hSame).symm)
      · exact fun hErased => hLive (Std.TreeSet.mem_of_mem_erase hErased)
      · exact hLive

namespace History

variable [Lz4.Codec]

/-- An open output was handed the version first. -/
def OpensWithVersion (history : History) : Prop :=
  history.recorder.encoder.isOpen = true →
    ∃ rest, history.current.map (·.command) = openingVersion :: rest

/-- All that was handed over and all that may be handed over later keeps to the
limits. -/
structure Within (history : History) : Prop where
  bounded : history.recorder.machine.Bounded
  stored : ∀ command ∈ history.recorder.store.all.toList, command.Permitted history.topology
  destined : ∀ command ∈ history.destined, command.Permitted history.topology
  handed : history.current.map (·.command) ⊆ history.destined
  live : noItem ∉ history.recorder.live
  opens : history.OpensWithVersion

variable {history : History} {call : Call}

theorem OpensWithVersion.of_kept {next : History} (hOpens : history.OpensWithVersion)
    (hOpen : next.recorder.encoder.isOpen = history.recorder.encoder.isOpen)
    (hCurrent : next.current = history.earlier) : next.OpensWithVersion := by
  intro hNext
  have hBefore := hOpen.symm.trans hNext
  rw [hCurrent, earlier_of_open hBefore]
  exact hOpens hBefore

theorem opensWithVersion_of_closed (hClosed : history.recorder.encoder.isOpen = false) :
    history.OpensWithVersion := by
  intro hOpen
  rw [hClosed] at hOpen
  cases hOpen

theorem OpensWithVersion.after (hOpens : history.OpensWithVersion)
    (hConsistent : history.Consistent) (call : Call) :
    (history.after call).OpensWithVersion := by
  have hStep := step_after hConsistent call
  generalize history.after call = next at hStep
  cases hStep with
  | recorded hPlan hOn hEncode =>
      obtain ⟨rest, hRest⟩ := hOpens (hConsistent.isOpen hOn)
      intro _
      rw [List.map_append, hRest]
      exact ⟨_, rfl⟩
  | noted hPlan hOff => exact hOpens.of_kept rfl rfl
  | idle hNothing => exact hOpens.of_kept rfl rfl
  | resumed hOff hOpen hEncode =>
      obtain ⟨rest, hRest⟩ := hOpens hOpen
      intro _
      rw [List.map_append, hRest]
      exact ⟨_, rfl⟩
  | begun hOff hClosed hName hBegin hOpened hEncode => exact fun _ => ⟨_, rfl⟩
  | stopped hOn => exact hOpens.of_kept (Encoder.isOpen_flush _) rfl
  | flushed => exact hOpens.of_kept (Encoder.isOpen_flush _) rfl
  | closed => exact opensWithVersion_of_closed hConsistent.ready.close.2
  | renamed hOff => exact opensWithVersion_of_closed hConsistent.ready.close.2
  | reformed hOff hOther => exact opensWithVersion_of_closed (Encoder.isOpen_ofForm _ _ _)
  | attached => exact hOpens.of_kept rfl rfl

theorem handed_after (history : History) (call : Call) :
    (history.after call).current.map (·.command) ⊆ (history.after call).destined := by
  cases hOpen : (history.after call).recorder.encoder.isOpen with
  | true => exact handed_subset_destined hOpen
  | false =>
      have hNone : (history.after call).current = [] := if_neg (Bool.eq_false_iff.mp hOpen)
      rw [hNone]
      exact List.nil_subset _

theorem Consistent.permitted_after (hConsistent : history.Consistent)
    (hBounded : history.recorder.machine.Bounded) (call : Call) {command : Command}
    (hPermitted : command.Permitted history.topology) :
    command.Permitted (history.after call).topology := by
  cases moves hConsistent call with
  | @reports event persistent plan hCall hPlan hMachine =>
      unfold topology
      rw [hMachine]
      exact hPermitted.mono ((Machine.accepts_of_plan hPlan).bounded hBounded).2
  | begins _ _ hTopology _ =>
      rw [hTopology]
      exact hPermitted
  | rests _ hTopology _ =>
      rw [hTopology]
      exact hPermitted

theorem bounded_after (hConsistent : history.Consistent)
    (hBounded : history.recorder.machine.Bounded) (hModerate : call.Moderate) :
    (history.after call).recorder.machine.Bounded := by
  have hStep := step_after hConsistent call
  generalize history.after call = next at hStep
  cases hStep with
  | recorded hPlan hOn hEncode => exact ((Machine.accepts_of_plan hPlan).bounded hBounded).1
  | noted hPlan hOff => exact ((Machine.accepts_of_plan hPlan).bounded hBounded).1
  | begun hOff hClosed hName hBegin hOpened hEncode =>
      exact ⟨hBounded.shallow, hBounded.named.forgetOutput, hBounded.nextItem, hBounded.archive⟩
  | attached =>
      refine ⟨hBounded.shallow, hBounded.named, hBounded.nextItem, ?_⟩
      intro data hData
      cases hData
      exact hModerate
  | _ => exact ⟨hBounded.shallow, hBounded.named, hBounded.nextItem, hBounded.archive⟩

theorem Within.dispatches (hWithin : history.Within) (hSound : history.Sound)
    (hModerate : call.Moderate) :
    ∀ sent ∈ history.recorder.dispatchesOf call, sent.command.Permitted history.topology := by
  intro sent hSent
  obtain ⟨event, persistent, plan, hCall, hPlan, hDispatched⟩ := Recorder.mem_dispatchesOf hSent
  subst hCall
  exact (Machine.accepts_of_plan hPlan).permitted hWithin.bounded hSound.watching hModerate sent
    hDispatched

theorem Within.live_after (hWithin : history.Within) (hSound : history.Sound)
    (hModerate : call.Moderate) : noItem ∉ (history.after call).recorder.live := by
  have hDispatches := hWithin.dispatches hSound hModerate
  have hStep := step_after hSound.consistent call
  generalize history.after call = next at hStep
  cases hStep with
  | noted hPlan hOff =>
      rw [Recorder.dispatchesOf_report hPlan] at hDispatches
      exact Recorder.live_named (fun sent hSent => (hDispatches sent hSent).items) hWithin.live
  | resumed hOff hOpen hEncode => exact Std.TreeSet.not_mem_emptyc
  | begun hOff hClosed hName hBegin hOpened hEncode => exact Std.TreeSet.not_mem_emptyc
  | _ => exact hWithin.live

theorem Within.after (hWithin : history.Within) (hSound : history.Sound)
    (hModerate : call.Moderate) : (history.after call).Within := by
  have hConsistent := hSound.consistent
  have hLater {command : Command} (hPermitted : command.Permitted history.topology) :
      command.Permitted (history.after call).topology :=
    hConsistent.permitted_after hWithin.bounded call hPermitted
  have hSent : ∀ command ∈ (history.recorder.dispatchesOf call).map (·.command),
      command.Permitted (history.after call).topology := by
    intro command hCommand
    obtain ⟨sent, hDispatched, rfl⟩ := List.mem_map.mp hCommand
    exact hLater (hWithin.dispatches hSound hModerate sent hDispatched)
  have hStored : ∀ command ∈ (history.after call).recorder.store.all.toList,
      command.Permitted (history.after call).topology := by
    rw [hConsistent.toList_all_after, List.forall_mem_append]
    exact ⟨fun command hOld => hLater (hWithin.stored command hOld),
      fun command hNew => hSent command (persistentCommands_subset _ hNew)⟩
  refine ⟨bounded_after hConsistent hWithin.bounded hModerate, hStored, ?_,
    handed_after history call, hWithin.live_after hSound hModerate,
    hWithin.opens.after hConsistent call⟩
  cases hConsistent.destines call with
  | startsOver hStartsOver hClosed =>
      rw [destined_closed hClosed]
      exact hStored
  | adds opening items hOpening hItems hDestined =>
      rw [hDestined, List.forall_mem_append, List.forall_mem_append, List.forall_mem_append]
      refine ⟨?_, ⟨?_, ?_⟩, ?_⟩
      · intro command hCommand
        rw [List.mem_singleton.mp (hOpening hCommand)]
        exact ⟨rfl, List.not_mem_nil, trivial⟩
      · exact fun command hOld => hLater (hWithin.destined command hOld)
      · exact fun command hNew => hSent command (kept_subset history call hNew)
      · intro command hCommand
        obtain ⟨item, hItem, rfl⟩ := List.mem_map.mp hCommand
        refine ⟨trivial, ?_, trivial⟩
        intro hZero
        rw [← List.mem_singleton.mp hZero] at hItem
        exact hWithin.live (Std.TreeSet.mem_toList.mp (hItems hItem))

theorem within_start (settings : Settings) (directory : Directory) :
    (start settings directory).Within := by
  have hNothing (topology : Topology) :
      ∀ command ∈ ([] : List Command), command.Permitted topology :=
    fun command hNone => nomatch hNone
  have hFirst : (1 : ItemId) ≠ noItem := by decide
  refine ⟨⟨?_, ?_, hFirst, ?_⟩, hNothing _, ?_, List.nil_subset _, Std.TreeSet.not_mem_emptyc,
    opensWithVersion_of_closed (Encoder.isOpen_ofForm _ _ _)⟩
  · intro id node layout hNode
    cases hNode
  · intro node occupancy hOccupancy
    cases hOccupancy
  · intro data hData
    cases hData
  · rw [destined_start]
    exact hNothing _

theorem Within.afterAll (hWithin : history.Within) (hSound : history.Sound)
    {calls : List Call} (hModerate : ∀ call ∈ calls, call.Moderate) :
    (history.afterAll calls).Within := by
  induction calls generalizing history with
  | nil => exact hWithin
  | cons call calls ih =>
      rw [List.forall_mem_cons] at hModerate
      exact ih (hWithin.after hSound hModerate.1) (hSound.after call) hModerate.2

end History
end Recording
end CycleTrace
