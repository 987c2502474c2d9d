/-
Visits of slots while everything is recorded.

An output that has been recorded to from the start, and without a break, was
told of every visit: an item enters a slot, it leaves it again, and only then
another item enters. The end of a cycle tells its departures in the order of
nodes and slots, and directly before its marker.
-/

import CycleTrace.Lz4.StoredBlocks
import CycleTrace.Proofs.Recording.Runs

namespace CycleTrace
namespace Recording

open Output (Directory Encoder stateAfter stateAfter_of_ok)

/-! ### The order of departures -/

theorem Occupancy.Sound.pairwise_departures {occupancy : Occupancy} (hSound : occupancy.Sound) :
    occupancy.endCycle.1.Pairwise fun first second =>
      occupancy.layout.flatten first.position < occupancy.layout.flatten second.position := by
  have hSlot {slot : UInt64} {departure : Departure}
      (hDeparture : occupancy.departure? slot = some departure) :
      occupancy.layout.flatten departure.position = slot := by
    obtain ⟨hContents, hPosition⟩ := Occupancy.departure?_eq_some hDeparture
    rw [hPosition, hSound.flatten_unflatten hContents]
  unfold Occupancy.endCycle
  rw [List.pairwise_filterMap]
  refine occupancy.pairwise_staleSlots.imp ?_
  intro slot later hBefore first hFirst second hSecond
  rw [hSlot hFirst, hSlot hSecond]
  exact hBefore

/-- A departure from an earlier node, or from an earlier slot of the same node. -/
def OccupancyTable.Precedes (table : OccupancyTable) (first second : NodeId × Departure) : Prop :=
  first.1 < second.1 ∨ first.1 = second.1 ∧ ∃ occupancy, table.get? first.1 = some occupancy ∧
    occupancy.layout.flatten first.2.position < occupancy.layout.flatten second.2.position

theorem OccupancyTable.pairwise_departures {table : OccupancyTable}
    (hSound : ∀ node occupancy, table.get? node = some occupancy → occupancy.Sound)
    (accepts : NodeId → Bool) : (table.endCycle accepts).1.Pairwise table.Precedes := by
  unfold OccupancyTable.endCycle
  rw [List.pairwise_flatMap]
  constructor
  · rintro ⟨node, occupancy⟩ hListed
    have hTracked : table.get? node = some occupancy :=
      Std.TreeMap.mem_toList_iff_getElem?_eq_some.mp hListed
    dsimp only
    split
    · rw [List.pairwise_map]
      refine (hSound node occupancy hTracked).pairwise_departures.imp ?_
      intro first second hBefore
      exact .inr ⟨rfl, occupancy, hTracked, hBefore⟩
    · exact .nil
  · have hNode {tracked : NodeId × Occupancy} {leaving : NodeId × Departure}
        (hLeaving : leaving ∈ if accepts tracked.1 then
          tracked.2.endCycle.1.map (tracked.1, ·) else []) : leaving.1 = tracked.1 := by
      split at hLeaving
      · obtain ⟨departure, _, rfl⟩ := List.mem_map.mp hLeaving
        rfl
      · cases hLeaving
    refine table.pairwise_nodes.imp ?_
    intro first second hBefore leaving hLeaving later hLater
    left
    rw [hNode hLeaving, hNode hLater]
    exact hBefore

/-! ### Visits -/

/-- All changes are visits, the last of which goes on if there is an occupant. -/
structure Visited (entries : List SlotEntry) (occupant : Option Occupant) : Prop where
  announced : ∀ present, occupant = some present → present.announced = true
  visits : ∃ visited : List ItemId, keptChanges entries
    = visited.flatMap (fun item => [.enters item, .exits item])
      ++ occupant.toList.map fun present => .enters present.item

section Visited

variable {entries : List SlotEntry} {occupant after : Option Occupant}

theorem visited_nil : Visited [] none := by
  constructor
  · intro present hPresent
    cases hPresent
  · exact ⟨[], rfl⟩

theorem Visited.entered (hVisited : Visited entries none) (item : ItemId)
    (persistent announced : Bool) (hAnnounced : announced = true) :
    Visited (entries ++ [⟨.enters item, persistent, false, true⟩])
      (some ⟨item, persistent, announced⟩) := by
  obtain ⟨visited, hVisits⟩ := hVisited.visits
  constructor
  · intro present hPresent
    cases hPresent
    exact hAnnounced
  · refine ⟨visited, ?_⟩
    rw [keptChanges_append, hVisits, Option.toList_none, List.map_nil, List.append_nil]
    rfl

theorem Visited.left {present : Occupant} (hVisited : Visited entries (some present))
    (persistent synthesized : Bool) :
    Visited (entries ++ [⟨.exits present.item, persistent, synthesized, true⟩]) none := by
  obtain ⟨visited, hVisits⟩ := hVisited.visits
  constructor
  · intro other hOther
    cases hOther
  · refine ⟨visited ++ [present.item], ?_⟩
    rw [keptChanges_append, hVisits, List.flatMap_append, List.append_assoc, List.append_assoc]
    rfl

theorem Visited.step {circumstances : Circumstances} {event : Event} {node : NodeId}
    {position : List UInt32} {added : List SlotEntry} (hVisited : Visited entries occupant)
    (hRecording : circumstances.recording = true)
    (hStep : SlotStep circumstances event node position occupant added after) :
    Visited (entries ++ added) after := by
  have hKept : circumstances.kept = true := by
    unfold Circumstances.kept
    rw [hRecording, Bool.true_or]
  cases hStep with
  | untouched =>
      rw [List.append_nil]
      exact hVisited
  | enters item hUnknown =>
      cases occupant with
      | none =>
          rw [hRecording]
          exact hVisited.entered item circumstances.persistent circumstances.kept hKept
      | some present =>
          have hAnnounced := hVisited.announced present rfl
          rw [hUnknown present rfl] at hAnnounced
          cases hAnnounced
  | @stays item persistent hEvent =>
      rw [List.append_nil]
      constructor
      · intro present hPresent
        cases hPresent
        rfl
      · exact hVisited.visits
  | replaces evicted item persistent =>
      rw [hRecording, List.append_cons]
      exact (hVisited.left persistent true).entered item circumstances.persistent
        circumstances.kept hKept
  | leaves present hEvent =>
      rw [hRecording]
      exact hVisited.left circumstances.persistent false
  | departs item persistent =>
      rw [hRecording]
      exact hVisited.left persistent true
  | departsUnseen item persistent => cases hVisited.announced _ rfl

end Visited

namespace History

/-- A call made while on that leaves the recorder on. -/
def StaysOn [Lz4.Codec] (history : History) (call : Call) : Prop :=
  history.recorder.on = true ∧ (history.after call).recorder.on = true

section Runs

variable [Lz4.Codec] {settings : Settings} {directory : Directory} {origin history : History}
  {log : List Entry} {call : Call}

theorem Consistent.on_after (hConsistent : history.Consistent) (hOn : history.recorder.on = true)
    (call : Call) (hCall : call ≠ .turnOff ∧ call ≠ .close) :
    (history.after call).recorder.on = true := by
  have hSame {next : Recorder}
      (hNext : stateAfter (Recorder.perform call history.recorder) = next)
      (hNextOn : next.on = true) : (history.after call).recorder.on = true := by
    rw [← hNext] at hNextOn
    exact hNextOn
  cases call with
  | report event persistent =>
      cases hPlan : history.recorder.planned event persistent with
      | error fault => exact hSame (Recorder.stateAfter_refused hConsistent.isOpen hPlan) hOn
      | ok plan =>
          obtain ⟨encoder, tally, hReport, _⟩ :=
            Recorder.report_on hPlan hOn (hConsistent.isOpen hOn)
          exact hSame (stateAfter_of_ok hReport) hOn
  | turnOn => exact hSame (stateAfter_of_ok (Recorder.turnOn_ignored hOn)) hOn
  | turnOff => exact absurd rfl hCall.1
  | flush => exact hOn
  | close => exact absurd rfl hCall.2
  | changeFile name => exact hSame (stateAfter_of_ok (Recorder.changeFile_ignored hOn)) hOn
  | setTextForm text => exact hSame (stateAfter_of_ok (Recorder.setTextForm_ignored hOn)) hOn
  | attachArchive data => exact hOn

theorem Consistent.allows_staysOn (hConsistent : history.Consistent)
    (hOn : history.recorder.on = true) {calls : List Call}
    (hCalls : ∀ call ∈ calls, call ≠ .turnOff ∧ call ≠ .close) :
    history.Allows StaysOn calls ∧ (history.afterAll calls).recorder.on = true := by
  induction calls generalizing history with
  | nil => exact ⟨trivial, hOn⟩
  | cons call calls ih =>
      rw [List.forall_mem_cons] at hCalls
      have hNext := hConsistent.on_after hOn call hCalls.1
      obtain ⟨hAllows, hLast⟩ := ih (hConsistent.after call) hNext hCalls.2
      exact ⟨⟨⟨hOn, hNext⟩, hAllows⟩, hLast⟩

theorem Run.visited (hRun : Run StaysOn origin history log) (hOrigin : origin.Sound)
    {node : NodeId} (hNode : history.topology.Autoflush node) (position : List UInt32)
    (hEmpty : origin.occupantAt node position = none) :
    Visited (slotLog node position log) (history.occupantAt node position) := by
  refine hRun.invariant (motive := fun _ => Visited) hOrigin
    (Structure.Topology.not_unwatched hNode) ?_ ?_
  · rw [hEmpty]
    exact visited_nil
  · intro history call entries added before after hSound hStays _ hVisited hTouch
    cases hTouch with
    | step _ hStep => exact hVisited.step hStays.1 hStep
    | forget hClosed =>
        have hOpen := hSound.consistent.isOpen hStays.1
        rw [hClosed] at hOpen
        cases hOpen
    | rest =>
        rw [List.append_nil]
        exact hVisited

/-! ### The end of a cycle -/

/-- What the end of a cycle hands over: exits in the order of nodes and slots,
and directly after them the marker. -/
def EndsCycle (history : History) (marker : Handed) (handed : List Handed) : Prop :=
  ∃ leaving : List (NodeId × Departure),
    handed = (Machine.departureDispatches leaving).map .direct ++ [marker] ∧
    leaving.Pairwise history.recorder.machine.occupancy.Precedes

theorem Consistent.current_after_report (hConsistent : history.Consistent)
    (hOn : history.recorder.on = true) (event : Event) (persistent : Bool) :
    (history.after (.report event persistent)).current
      = history.current
        ++ (history.recorder.dispatchesOf (.report event persistent)).map .direct := by
  have hNextOn := hConsistent.on_after hOn (.report event persistent) (by simp)
  rw [current_after_open ((hConsistent.after _).isOpen hNextOn),
    if_pos (hConsistent.isOpen hOn), Recorder.hands_report, if_pos hOn]

theorem Sound.endsCycle (hSound : history.Sound) (persistent : Bool) (accepts : NodeId → Bool)
    (marker : Command) (number : UInt64) :
    history.EndsCycle ⟨marker, persistent⟩
      ((history.recorder.machine.beginCycle persistent accepts marker number).dispatches.map
        .direct) := by
  refine ⟨(history.recorder.machine.occupancy.endCycle accepts).1, ?_,
    OccupancyTable.pairwise_departures hSound.watching.sound accepts⟩
  exact List.map_append

theorem Sound.handed_cycle (hSound : history.Sound) (hOn : history.recorder.on = true)
    (number : UInt64) (persistent : Bool) :
    ∃ handed, (history.after (.report (.cycle number) persistent)).current
        = history.current ++ handed ∧ history.EndsCycle ⟨.cycle number, persistent⟩ handed :=
  ⟨_, hSound.consistent.current_after_report hOn (.cycle number) persistent,
    hSound.endsCycle persistent _ (.cycle number) number⟩

/-- A cycle of a clock domain that is refused, or reported again, hands nothing over. -/
theorem Sound.handed_clockedCycle (hSound : history.Sound) (hOn : history.recorder.on = true)
    (cycle : ClockedCycle) (persistent : Bool) :
    ∃ handed, (history.after (.report (.clockedCycle cycle) persistent)).current
        = history.current ++ handed ∧
      (handed = [] ∨ history.EndsCycle ⟨.clockedCycle cycle, persistent⟩ handed) := by
  refine ⟨_, hSound.consistent.current_after_report hOn (.clockedCycle cycle) persistent, ?_⟩
  cases hPlan : history.recorder.planned (.clockedCycle cycle) persistent with
  | error fault =>
      rw [Recorder.dispatchesOf_report_refused hPlan]
      exact .inl rfl
  | ok plan =>
      rw [Recorder.dispatchesOf_report hPlan]
      obtain ⟨_, _, hRest⟩ := ok_of_bind hPlan
      dsimp only at hRest
      split at hRest
      · cases hRest
        exact .inl rfl
      · cases hRest
        exact .inr (hSound.endsCycle persistent _ (.clockedCycle cycle) cycle.cycle)

/-- With everything recorded from the start, the entries and exits that the
output was handed for a slot are visits: an item enters, the same item leaves,
and so on. The last entry is open exactly if its item is in the slot. The end
of a cycle tells its departures in the order of nodes and slots, directly
before its marker. -/
theorem handed_visits
    (hGranted : Recorder.answer (Recorder.perform .turnOn (.ofSettings settings directory))
      = .ok .done) {calls : List Call} (hCalls : ∀ call ∈ calls, call ≠ .turnOff ∧ call ≠ .close) :
    let history := (start settings directory).afterAll (.turnOn :: calls)
    (∀ node position, history.topology.Autoflush node → ∃ visited : List ItemId,
      changesAt node position (history.current.map (·.command))
        = visited.flatMap (fun item => [.enters item, .exits item])
          ++ (history.occupantAt node position).toList.map fun present =>
              .enters present.item) ∧
    (∀ number persistent, ∃ handed,
      (history.after (.report (.cycle number) persistent)).current = history.current ++ handed ∧
      history.EndsCycle ⟨.cycle number, persistent⟩ handed) ∧
    ∀ cycle persistent, ∃ handed,
      (history.after (.report (.clockedCycle cycle) persistent)).current
        = history.current ++ handed ∧
      (handed = [] ∨ history.EndsCycle ⟨.clockedCycle cycle, persistent⟩ handed) := by
  have hStart := sound_start settings directory
  have hClosed : (start settings directory).recorder.encoder.isOpen = false :=
    Encoder.isOpen_ofForm settings.text settings.bufferBytes directory
  obtain ⟨hOriginOn, hForgotten⟩ := begun_of_granted hStart.consistent hClosed hGranted
  have hOrigin := hStart.after .turnOn
  obtain ⟨hAllows, hOn⟩ := hOrigin.consistent.allows_staysOn hOriginOn hCalls
  have hRun := Run.idle.afterAll calls hAllows
  have hSound := hRun.sound hOrigin
  refine ⟨?_, hSound.handed_cycle hOn, hSound.handed_clockedCycle hOn⟩
  intro node position hNode
  have hEmpty : ((start settings directory).after .turnOn).occupantAt node position = none := by
    rw [hForgotten]
    rfl
  have hNothing : changesAt node position ((start settings directory).after .turnOn).destined
      = [] := by
    rw [hStart.consistent.destined_after (keepsOutput_of_closed hClosed .turnOn),
      destined_start]
    rfl
  have hKeeps {history : History} {call : Call} (hConsistent : history.Consistent)
      (hStays : history.StaysOn call) : history.KeepsOutput call := by
    intro _
    exact (hConsistent.after call).isOpen hStays.2
  have hDestined := hRun.destined_eq hOrigin hKeeps node position
  rw [hSound.consistent.destined_on hOn, hNothing, List.nil_append] at hDestined
  obtain ⟨visited, hVisits⟩ := (hRun.visited hOrigin hNode position hEmpty).visits
  exact ⟨visited, hDestined.trans hVisits⟩

end Runs

/-- An item that is replaced in the one slot of a node, and the other left there. -/
def replaced : List Call :=
  [.report (.newNode { name := "queue", autoflush := true } (some 0)) true,
    .report (.setLayout 0 [1]) true, .report (.enterNode 0 1 [0]) false,
    .report (.cycle 1) true, .report (.enterNode 0 2 [0]) true]

theorem handed_visits_replaced :
    Recorder.answer (Recorder.perform .turnOn (.ofSettings {} {})) = .ok .done ∧
      ∃ visited : List ItemId, [Change.enters 1, .exits 1, .enters 2]
        = visited.flatMap (fun item => [.enters item, .exits item]) ++ [.enters 2] := by
  have hGranted : Recorder.answer (Recorder.perform .turnOn (.ofSettings {} {})) = .ok .done := by
    decide +kernel
  have hNode : ((start {} {}).afterAll (.turnOn :: replaced)).topology.Autoflush 0 :=
    ⟨_, rfl, rfl⟩
  have hCalls : ∀ call ∈ replaced, call ≠ .turnOff ∧ call ≠ .close := by decide
  exact ⟨hGranted, (handed_visits hGranted hCalls).1 0 [0] hNode⟩

end History
end Recording
end CycleTrace
