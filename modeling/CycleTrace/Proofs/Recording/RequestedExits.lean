/-
Exits that are requested.

A relaxed autoflush node lets an occupant leave by request. The occupant is the
item that entered last at its slot, so its exit answers that entry. The exit is
written whether or not the output was told of the entry: an entry that was not
persistent and made while off is dropped, and what is requested after it is an
exit of an item that never entered, as far as the output knows.
-/

import CycleTrace.Lz4.StoredBlocks
import CycleTrace.Proofs.Recording.Acceptance
import CycleTrace.Proofs.Recording.Steps

namespace CycleTrace
namespace Recording

open Output (Directory)

/-- The last change of a slot with an occupant is the entry of its item. -/
def Entered (entries : List SlotEntry) (occupant : Option Occupant) : Prop :=
  ∀ present, occupant = some present →
    ∃ earlier entry, entries = earlier ++ [entry] ∧ entry.change = .enters present.item

section Entered

variable {entries : List SlotEntry} {occupant after : Option Occupant}

theorem entered_none (entries : List SlotEntry) : Entered entries none := by
  intro present hPresent
  cases hPresent

theorem Entered.congr (hEntered : Entered entries occupant)
    (hSame : ∀ present, after = some present →
      ∃ before, occupant = some before ∧ before.item = present.item) : Entered entries after := by
  intro present hPresent
  obtain ⟨before, hBefore, hItem⟩ := hSame present hPresent
  obtain ⟨earlier, entry, hEntries, hChange⟩ := hEntered before hBefore
  exact ⟨earlier, entry, hEntries, hItem ▸ hChange⟩

theorem Entered.step {circumstances : Circumstances} {event : Event} {node : NodeId}
    {position : List UInt32} {added : List SlotEntry} (hEntered : Entered entries occupant)
    (hStep : SlotStep circumstances event node position occupant added after) :
    Entered (entries ++ added) after := by
  cases hStep with
  | untouched =>
      rw [List.append_nil]
      exact hEntered
  | enters item hUnknown =>
      rintro _ ⟨⟩
      exact ⟨entries, _, rfl, rfl⟩
  | stays persistent hEvent =>
      rw [List.append_nil]
      apply hEntered.congr
      rintro _ ⟨⟩
      exact ⟨_, rfl, rfl⟩
  | replaces evicted item persistent =>
      rintro _ ⟨⟩
      exact ⟨_, _, List.append_cons _ _ _, rfl⟩
  | leaves => exact entered_none _
  | departs => exact entered_none _
  | departsUnseen => exact entered_none _

theorem Entered.touch [Lz4.Codec] {history : History} {call : Call} {node : NodeId}
    {position : List UInt32} {added : List SlotEntry} (hEntered : Entered entries occupant)
    (hTouch : history.Touch call node position occupant added after) :
    Entered (entries ++ added) after := by
  cases hTouch with
  | step _ hStep => exact hEntered.step hStep
  | forget _ =>
      rw [List.append_nil]
      apply hEntered.congr
      intro present hForgotten
      obtain ⟨before, hBefore, rfl⟩ := Option.map_eq_some_iff.mp hForgotten
      exact ⟨before, hBefore, rfl⟩
  | rest =>
      rw [List.append_nil]
      exact hEntered

/-- An exit that is asked for ends the stay of the item that it names. -/
theorem History.Touch.asked_exit [Lz4.Codec] {history : History} {call : Call} {node : NodeId}
    {position : List UInt32} {item : ItemId} {persistent recording : Bool}
    (hTouch : history.Touch call node position occupant
      [⟨.exits item, persistent, false, recording⟩] after) :
    (∃ present, occupant = some present ∧ present.item = item) ∧ after = none := by
  cases hTouch with
  | step _ hStep =>
      cases hStep with
      | leaves present hEvent => exact ⟨⟨present, rfl, rfl⟩, rfl⟩

end Entered

/-- A request that is granted dispatches the exit and nothing else. -/
theorem Machine.Accepts.dispatches_exitNode {machine : Machine} {circumstances : Circumstances}
    {plan : Plan} {node : NodeId} {item : ItemId} {position : List UInt32}
    (hAccepts : machine.Accepts circumstances (.exitNode node item position) plan) :
    plan.dispatches = [⟨.exitNode node item position, circumstances.persistent, false⟩] := by
  cases hAccepts with
  | exitUnwatched => rfl
  | exitSlot => rfl

namespace History

section Runs

variable [Lz4.Codec] {allowed : History → Call → Prop} {settings : Settings} {directory : Directory}
  {history : History} {log : List Entry}

theorem Run.entered (hRun : Run allowed (start settings directory) history log)
    {node : NodeId} (hNode : history.topology.Autoflush node) (position : List UInt32) :
    Entered (slotLog node position log) (history.occupantAt node position) := by
  apply hRun.invariant (motive := fun _ entries occupant => Entered entries occupant)
    (sound_start settings directory) (Structure.Topology.not_unwatched hNode)
  · exact entered_none []
  · intro _ _ _ _ _ _ _ _ _ hEntered hTouch
    exact hEntered.touch hTouch

/-- An exit that is requested while recording is written, and the slot is empty
after it. The output saw the item enter last, unless the entry was dropped. -/
theorem requested_exit_after_entry
    (hRun : Run KeepsOutput (start settings directory) history log)
    (hOn : history.recorder.on = true) {node : NodeId} (hNode : history.topology.Autoflush node)
    {item : ItemId} {position : List UInt32} {persistent : Bool}
    (hAnswer : Recorder.answer (Recorder.perform
      (.report (.exitNode node item position) persistent) history.recorder) = .ok .done) :
    let handed := changesAt node position (history.current.map (·.command))
    let next := history.after (.report (.exitNode node item position) persistent)
    next.current = history.current ++ [⟨.exitNode node item position, persistent⟩] ∧
    next.occupantAt node position = none ∧
    ∃ earlier entry, slotLog node position log = earlier ++ [entry] ∧
      entry.change = .enters item ∧
      (handed.getLast? = some (.enters item) ∨
        entry.persistent = false ∧ entry.recording = false) := by
  intro handed next
  have hStart := sound_start settings directory
  have hSound := hRun.sound hStart
  obtain ⟨plan, hPlan, _, _⟩ := hSound.consistent.granted_report hAnswer
  have hDispatches := (Machine.accepts_of_plan hPlan).dispatches_exitNode
  have hCurrent := hSound.consistent.current_report hOn hPlan
  rw [hDispatches] at hCurrent
  have hAfter : next.topology.Autoflush node := hSound.marked_after _ hNode
  have hTouch := hSound.touch_after (.report (.exitNode node item position) persistent)
    (Structure.Topology.not_unwatched hAfter) position
  have hAdded : slotLog node position
      (history.entries (.report (.exitNode node item position) persistent))
      = [⟨.exits item, persistent, false, history.recorder.on⟩] := by
    rw [entries_report hPlan, hDispatches]
    simp [slotLog_entriesOf_cons, slotLog_entriesOf_nil, changeAt?, Recorder.circumstances]
  rw [hAdded] at hTouch
  obtain ⟨⟨present, hPresent, rfl⟩, hGone⟩ := hTouch.asked_exit
  obtain ⟨earlier, entry, hEntries, hChange⟩ := hRun.entered hNode position present hPresent
  refine ⟨hCurrent, hGone, earlier, entry, hEntries, hChange, ?_⟩
  -- while recording, the output was handed what was not dropped, in the order of the log
  have hDestined := hRun.destined_eq hStart (fun _ => id) node position
  rw [destined_start, hSound.consistent.destined_on hOn, hEntries, keptChanges_snoc]
    at hDestined
  cases hKept : entry.kept with
  | true =>
      rw [hKept, if_pos rfl, hChange, ← List.append_assoc] at hDestined
      exact .inl ((congrArg List.getLast? hDestined).trans List.getLast?_concat)
  | false =>
      obtain ⟨hRecording, hPersistent⟩ := Bool.or_eq_false_iff.mp hKept
      exact .inr ⟨hPersistent, hRecording⟩

end Runs

/-- An item that enters the one slot of a relaxed node off the record. -/
def unrecordedEntry (persistent : Bool) : List Call :=
  [.turnOn,
    .report (.newNode { name := "queue", autoflush := true, relaxed := true } (some 0)) true,
    .report (.setLayout 0 [1]) true, .turnOff, .report (.enterNode 0 1 [0]) persistent, .turnOn]

theorem allows_unrecordedEntry (persistent : Bool) :
    (start {} {}).Allows KeepsOutput (unrecordedEntry persistent) := by
  cases persistent <;>
    exact ⟨fun _ => rfl, fun _ => rfl, fun _ => rfl, fun _ => rfl, fun _ => rfl, fun _ => rfl,
      trivial⟩

theorem requested_exit_after_entry_stored :
    let history := (start {} {}).afterAll (unrecordedEntry true)
    let next := history.after (.report (.exitNode 0 1 [0]) false)
    (changesAt 0 [0] (history.current.map (·.command))).getLast? = some (.enters 1) ∧
      next.current = history.current ++ [⟨.exitNode 0 1 [0], false⟩] ∧
      next.occupantAt 0 [0] = none := by
  intro history next
  have hRun : Run KeepsOutput (start {} {}) history _ :=
    Run.idle.afterAll (unrecordedEntry true) (allows_unrecordedEntry true)
  have hAnswer : Recorder.answer (Recorder.perform (.report (.exitNode 0 1 [0]) false)
      history.recorder) = .ok .done := by decide +kernel
  obtain ⟨hCurrent, hGone, earlier, entry, hEntries, _, hSeen | ⟨hDropped, _⟩⟩ :=
    requested_exit_after_entry hRun rfl ⟨_, rfl, rfl⟩ hAnswer
  · exact ⟨hSeen, hCurrent, hGone⟩
  · have hLog : slotLog 0 [0] ([] ++ (start {} {}).logAll (unrecordedEntry true))
        = [⟨.enters 1, true, false, false⟩] := by decide +kernel
    have hLast := congrArg List.getLast? (hLog.symm.trans hEntries)
    rw [List.getLast?_concat] at hLast
    cases hLast
    cases hDropped

/-- The entry is dropped, and its exit is written all the same: all that the
output is told of the slot is that an item leaves it. -/
theorem requested_exit_unseen :
    let history := (start {} {}).afterAll (unrecordedEntry false)
    let next := history.after (.report (.exitNode 0 1 [0]) false)
    (start {} {}).Allows KeepsOutput (unrecordedEntry false) ∧
      history.recorder.on = true ∧ history.topology.Autoflush 0 ∧
      Recorder.answer (Recorder.perform (.report (.exitNode 0 1 [0]) false) history.recorder)
        = .ok .done ∧
      changesAt 0 [0] (history.current.map (·.command)) = [] ∧
      next.current = history.current ++ [⟨.exitNode 0 1 [0], false⟩] ∧
      changesAt 0 [0] (next.current.map (·.command)) = [.exits 1] := by
  refine ⟨allows_unrecordedEntry false, ?_, ⟨_, rfl, rfl⟩, ?_⟩
  all_goals decide +kernel

end History
end Recording
end CycleTrace
