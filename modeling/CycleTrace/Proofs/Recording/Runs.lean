/-
Runs, with the log of all they dispatched.

A call does one of three things to a slot: it leaves it alone, it takes it one
step on by a report, or it makes it forget what the last output was told.
Invariants of slots are proved against these three, once for all calls.

What is kept of a log is on its way to the output. It was handed over, or it
waits for the next replay, and the order is that of the log.
-/

import CycleTrace.Proofs.Recording.History
import CycleTrace.Proofs.Recording.Watching

namespace CycleTrace
namespace Recording

open Output (Directory Encoder stateAfter stateAfter_of_ok stateAfter_of_error)

/-! ### Changes of a slot -/

/-- The changes of a slot that are stored. -/
theorem changesAt_persistentCommands (node : NodeId) (position : List UInt32)
    (recording : Bool) (sent : List Dispatch) :
    changesAt node position (persistentCommands sent)
      = storedChanges (slotLog node position (entriesOf recording sent)) := by
  have hStored : persistentCommands sent
      = ((entriesOf recording sent).filter (·.dispatch.persistent)).map (·.dispatch.command) := by
    unfold persistentCommands entriesOf
    rw [List.filter_map, List.map_map]
    rfl
  rw [hStored]
  apply changesAt_chosen
  intro entry change hChange
  obtain ⟨_, _, rfl⟩ := Option.map_eq_some_iff.mp hChange
  rfl

theorem changesAt_announced (node : NodeId) (position : List UInt32) (items : List ItemId) :
    changesAt node position (items.map .newItem) = [] := by
  unfold changesAt
  rw [List.filterMap_map, List.filterMap_eq_nil_iff]
  intro item _
  rfl

/-! ### Histories with their logs -/

variable [Lz4.Codec]

namespace History

def entries (history : History) (call : Call) : List Entry :=
  entriesOf history.recorder.on (history.recorder.dispatchesOf call)

/-- The histories that allowed calls make of a history, with what was
dispatched on the way. -/
inductive Run (allowed : History → Call → Prop) (origin : History) :
    History → List Entry → Prop
  | idle : Run allowed origin origin []
  | after {history : History} {log : List Entry} (hRun : Run allowed origin history log)
      (call : Call) (hAllowed : allowed history call) :
      Run allowed origin (history.after call) (log ++ history.entries call)

/-- Calls in order, each allowed where it is made. -/
def Allows (allowed : History → Call → Prop) (history : History) : List Call → Prop
  | [] => True
  | call :: calls => allowed history call ∧ (history.after call).Allows allowed calls

/-- What calls in order dispatch. -/
def logAll (history : History) : List Call → List Entry
  | [] => []
  | call :: calls => history.entries call ++ (history.after call).logAll calls

/-- A call does not end the output. -/
def KeepsOutput (history : History) (call : Call) : Prop :=
  history.recorder.encoder.isOpen = true → (history.after call).recorder.encoder.isOpen = true

/-- The occupant of the slot of a position. -/
def occupantAt (history : History) (node : NodeId) (position : List UInt32) : Option Occupant :=
  history.recorder.machine.occupantAt node position

def topology (history : History) : Structure.Topology :=
  history.recorder.machine.topology

theorem Allows.of_append {allowed : History → Call → Prop} {history : History}
    {calls later : List Call} (hAllows : history.Allows allowed (calls ++ later)) :
    history.Allows allowed calls := by
  induction calls generalizing history with
  | nil => exact trivial
  | cons call calls ih => exact ⟨hAllows.1, ih hAllows.2⟩

/-- The history is consistent, and its machine watches the autoflush nodes. -/
structure Sound (history : History) : Prop where
  consistent : history.Consistent
  watching : history.recorder.machine.Watching

theorem sound_start (settings : Settings) (directory : Directory) :
    (start settings directory).Sound :=
  ⟨consistent_start settings directory, Machine.watching_initial rfl rfl⟩

/-- A report that an announced occupant is still there, persistent where the
last report was not or the other way round. Nothing is dispatched for it. -/
def Reflags (history : History) : Call → Prop
  | .report (.enterNode node item position) persistent =>
      history.occupantAt node position = some ⟨item, !persistent, true⟩
  | _ => False

/-! ### The machine after a call -/

/-- What a call does to the machine, as far as slots are concerned. -/
inductive Moves (history : History) (call : Call) : Prop
  | reports {event : Event} {persistent : Bool} {plan : Plan}
      (hCall : call = .report event persistent)
      (hPlan : history.recorder.planned event persistent = .ok plan)
      (hMachine : (history.after call).recorder.machine = plan.machine)
  | begins (hEntries : history.entries call = [])
      (hClosed : history.recorder.encoder.isOpen = false)
      (hTopology : (history.after call).topology = history.topology)
      (hOccupancy : (history.after call).recorder.machine.occupancy
        = history.recorder.machine.occupancy.forgetOutput)
  | rests (hEntries : history.entries call = [])
      (hTopology : (history.after call).topology = history.topology)
      (hOccupancy : (history.after call).recorder.machine.occupancy
        = history.recorder.machine.occupancy)

section Calls

variable {history : History} {call : Call}

theorem moves_of_state {next : Recorder} (hEntries : history.entries call = [])
    (hNext : stateAfter (Recorder.perform call history.recorder) = next)
    (hTopology : next.machine.topology = history.recorder.machine.topology)
    (hOccupancy : next.machine.occupancy = history.recorder.machine.occupancy) :
    history.Moves call := by
  subst hNext
  exact .rests hEntries hTopology hOccupancy

theorem moves_report (hConsistent : history.Consistent) (event : Event) (persistent : Bool) :
    history.Moves (.report event persistent) := by
  cases hPlan : history.recorder.planned event persistent with
  | error fault =>
      refine moves_of_state ?_ (Recorder.stateAfter_refused hConsistent.isOpen hPlan) rfl rfl
      unfold entries
      rw [Recorder.dispatchesOf_report_refused hPlan]
      rfl
  | ok plan =>
      refine .reports rfl hPlan ?_
      change (stateAfter (Recorder.perform _ history.recorder)).machine = _
      cases hOn : history.recorder.on with
      | true =>
          obtain ⟨encoder, tally, hReport, _⟩ :=
            Recorder.report_on hPlan hOn (hConsistent.isOpen hOn)
          rw [hReport]
          rfl
      | false =>
          obtain ⟨tally, hReport⟩ := Recorder.report_off hPlan hOn
          rw [hReport]
          rfl

theorem moves_turnOn (hConsistent : history.Consistent) : history.Moves .turnOn := by
  rcases Recorder.turnOn_cases hConsistent.ready with hOn | ⟨hOff, hOpen⟩ |
    ⟨hOff, hClosed, name, begun, _, hBegin, hBegun⟩ | ⟨_, _, fault, hNoFile⟩
  · exact moves_of_state rfl (stateAfter_of_ok (Recorder.turnOn_ignored hOn)) rfl rfl
  · obtain ⟨encoder, tally, hTurnOn, _⟩ := Recorder.turnOn_open hOff hOpen
    exact moves_of_state rfl (stateAfter_of_ok hTurnOn) rfl rfl
  · obtain ⟨encoder, tally, hTurnOn, _⟩ := Recorder.turnOn_begin hOff hClosed hBegin hBegun.isOpen
    have hNext := after_of_state (stateAfter_of_ok hTurnOn)
    refine .begins rfl hClosed ?_ ?_
    · rw [hNext]
      rfl
    · rw [hNext]
  · exact moves_of_state rfl (stateAfter_of_error hNoFile) rfl rfl

theorem moves (hConsistent : history.Consistent) (call : Call) : history.Moves call := by
  cases call with
  | report event persistent => exact moves_report hConsistent event persistent
  | turnOn => exact moves_turnOn hConsistent
  | turnOff =>
      cases hOn : history.recorder.on with
      | false => exact moves_of_state rfl (stateAfter_of_ok (Recorder.turnOff_ignored hOn)) rfl rfl
      | true => exact moves_of_state rfl (stateAfter_of_ok (Recorder.turnOff_on hOn)) rfl rfl
  | flush => exact .rests rfl rfl rfl
  | close => exact .rests rfl rfl rfl
  | changeFile name =>
      cases hOn : history.recorder.on with
      | true =>
          exact moves_of_state rfl (stateAfter_of_ok (Recorder.changeFile_ignored hOn)) rfl rfl
      | false => exact moves_of_state rfl (stateAfter_of_ok (Recorder.changeFile_off hOn)) rfl rfl
  | setTextForm text =>
      cases hOn : history.recorder.on with
      | true =>
          exact moves_of_state rfl (stateAfter_of_ok (Recorder.setTextForm_ignored hOn)) rfl rfl
      | false =>
          by_cases hSame : history.recorder.settings.text = text
          · exact moves_of_state rfl (stateAfter_of_ok (Recorder.setTextForm_same hOn hSame))
              rfl rfl
          · exact moves_of_state rfl (stateAfter_of_ok (Recorder.setTextForm_other hOn hSame))
              rfl rfl
  | attachArchive data => exact .rests rfl rfl rfl

theorem occupantAt_forgotten {later : History}
    (hOccupancy : later.recorder.machine.occupancy
      = history.recorder.machine.occupancy.forgetOutput) (node : NodeId)
    (position : List UInt32) :
    later.occupantAt node position
      = (history.occupantAt node position).map (·.forgetOutput) := by
  unfold occupantAt Machine.occupantAt
  rw [hOccupancy, OccupancyTable.occupantAt_forgetOutput]

/-- Turning on without an open output begins one, and what it was not told of
is forgotten. -/
theorem begun_of_granted (hConsistent : history.Consistent)
    (hClosed : history.recorder.encoder.isOpen = false)
    (hGranted : Recorder.answer (Recorder.perform .turnOn history.recorder) = .ok .done) :
    (history.after .turnOn).recorder.on = true ∧
      ∀ node position, (history.after .turnOn).occupantAt node position
        = (history.occupantAt node position).map (·.forgetOutput) := by
  rcases Recorder.turnOn_cases hConsistent.ready with hOn | ⟨_, hOpen⟩ |
    ⟨hOff, _, name, begun, _, hBegin, hBegun⟩ | ⟨_, _, fault, hNoFile⟩
  · have hOpen := hConsistent.isOpen hOn
    rw [hClosed] at hOpen
    cases hOpen
  · rw [hClosed] at hOpen
    cases hOpen
  · obtain ⟨encoder, tally, hTurnOn, _⟩ := Recorder.turnOn_begin hOff hClosed hBegin hBegun.isOpen
    rw [after_of_state (stateAfter_of_ok hTurnOn)]
    exact ⟨rfl, occupantAt_forgotten rfl⟩
  · rw [hNoFile] at hGranted
    cases hGranted

theorem regular_report (hWatching : history.recorder.machine.Watching) {event : Event}
    {persistent : Bool} {plan : Plan}
    (hPlan : history.recorder.planned event persistent = .ok plan) :
    history.recorder.machine.Regular (history.recorder.circumstances persistent) event plan :=
  Machine.regulates_plan hWatching _ event plan hPlan

theorem entries_report {event : Event} {persistent : Bool} {plan : Plan}
    (hPlan : history.recorder.planned event persistent = .ok plan) :
    history.entries (.report event persistent)
      = entriesOf (history.recorder.circumstances persistent).recording plan.dispatches := by
  unfold entries
  rw [Recorder.dispatchesOf_report hPlan]
  rfl

theorem Sound.after (hSound : history.Sound) (call : Call) : (history.after call).Sound := by
  refine ⟨hSound.consistent.after call, ?_⟩
  cases moves hSound.consistent call with
  | reports hCall hPlan hMachine =>
      rw [hMachine]
      exact (regular_report hSound.watching hPlan).watching
  | begins _ _ hTopology hOccupancy =>
      exact hSound.watching.forgetOutput.congr hTopology hOccupancy
  | rests _ hTopology hOccupancy => exact hSound.watching.congr hTopology hOccupancy

/-- Attributes of nodes never change. -/
theorem Sound.marked_after (hSound : history.Sound) (call : Call) {autoflush : Bool}
    {node : NodeId} (hNode : history.topology.Marked autoflush node) :
    (history.after call).topology.Marked autoflush node := by
  cases moves hSound.consistent call with
  | reports hCall hPlan hMachine =>
      unfold topology
      rw [hMachine]
      exact (regular_report hSound.watching hPlan).marks autoflush node hNode
  | begins _ _ hTopology _ => exact hTopology ▸ hNode
  | rests _ hTopology _ => exact hTopology ▸ hNode

/-- Only autoflush nodes have occupants. -/
theorem Sound.occupantAt_eq_none (hSound : history.Sound) {node : NodeId}
    (hNode : ¬ history.topology.Autoflush node) (position : List UInt32) :
    history.occupantAt node position = none :=
  hSound.watching.occupantAt_eq_none hNode position

/-! ### A slot after a call -/

/-- What a call does to a slot: the occupant before it, what it dispatches for
the slot, and the occupant after it. -/
inductive Touch (history : History) (call : Call) (node : NodeId) (position : List UInt32) :
    Option Occupant → List SlotEntry → Option Occupant → Prop
  | step {event : Event} {persistent : Bool} {before after : Option Occupant}
      {added : List SlotEntry} (hCall : call = .report event persistent)
      (hStep : SlotStep (history.recorder.circumstances persistent) event node position before
        added after) : Touch history call node position before added after
  | forget (hClosed : history.recorder.encoder.isOpen = false) (occupant : Option Occupant) :
      Touch history call node position occupant [] (occupant.map (·.forgetOutput))
  | rest (occupant : Option Occupant) : Touch history call node position occupant [] occupant

theorem Sound.touch_after (hSound : history.Sound) (call : Call) {node : NodeId}
    (hNode : ¬ (history.after call).topology.Unwatched node) (position : List UInt32) :
    history.Touch call node position (history.occupantAt node position)
      (slotLog node position (history.entries call))
      ((history.after call).occupantAt node position) := by
  cases moves hSound.consistent call with
  | @reports event persistent plan hCall hPlan hMachine =>
      subst hCall
      have hTopology : (history.after (.report event persistent)).topology
          = plan.machine.topology := congrArg Machine.topology hMachine
      refine .step rfl ?_
      unfold occupantAt
      rw [entries_report hPlan, hMachine]
      exact (regular_report hSound.watching hPlan).slots node position (hTopology ▸ hNode)
  | begins hEntries hClosed _ hOccupancy =>
      rw [hEntries, occupantAt_forgotten hOccupancy]
      exact .forget hClosed _
  | rests hEntries _ hOccupancy =>
      rw [hEntries]
      unfold occupantAt Machine.occupantAt
      rw [hOccupancy]
      exact .rest _

/-- What a call dispatches for a node without slots was asked for. -/
theorem Sound.asked_after (hSound : history.Sound) (call : Call) {node : NodeId}
    (hNode : (history.after call).topology.Unwatched node) (position : List UInt32) :
    ∀ entry ∈ slotLog node position (history.entries call), entry.synthesized = false := by
  cases moves hSound.consistent call with
  | @reports event persistent plan hCall hPlan hMachine =>
      subst hCall
      have hTopology : (history.after (.report event persistent)).topology
          = plan.machine.topology := congrArg Machine.topology hMachine
      rw [entries_report hPlan]
      exact (regular_report hSound.watching hPlan).elsewhere node position (hTopology ▸ hNode)
  | begins hEntries _ _ _ =>
      rw [hEntries]
      exact fun _ hEntry => nomatch hEntry
  | rests hEntries _ _ =>
      rw [hEntries]
      exact fun _ hEntry => nomatch hEntry

/-! ### What is on its way to the output -/

/-- The commands that the next replay writes. -/
def waiting (history : History) : List Command :=
  if history.recorder.encoder.isOpen then history.recorder.store.partialReplay.toList
  else history.recorder.store.all.toList

/-- The commands that the open output was handed, and those that it, or the
output begun next, will be handed when recording is turned on. -/
def destined (history : History) : List Command :=
  (if history.recorder.encoder.isOpen then history.current.map (·.command) else [])
    ++ history.waiting

theorem destined_closed (hClosed : history.recorder.encoder.isOpen = false) :
    history.destined = history.recorder.store.all.toList := by
  unfold destined waiting
  rw [hClosed]
  rfl

theorem keepsOutput_of_closed (hClosed : history.recorder.encoder.isOpen = false) (call : Call) :
    history.KeepsOutput call := by
  intro hOpen
  rw [hClosed] at hOpen
  cases hOpen

theorem KeepsOutput.closed_before (hKeeps : history.KeepsOutput call)
    (hClosed : (history.after call).recorder.encoder.isOpen = false) :
    history.recorder.encoder.isOpen = false := by
  cases hOpen : history.recorder.encoder.isOpen with
  | true => exact absurd (hKeeps hOpen) (by simp [hClosed])
  | false => rfl

/-- While recording, the output has all that is destined for it. -/
theorem Consistent.destined_on (hConsistent : history.Consistent)
    (hOn : history.recorder.on = true) :
    history.destined = history.current.map (·.command) := by
  have hOpen := hConsistent.isOpen hOn
  unfold destined waiting
  rw [if_pos hOpen, if_pos hOpen, hConsistent.nothingWaits hOn]
  exact List.append_nil _

/-- The changes of a slot that a call does not drop. -/
theorem changesAt_kept (history : History) (call : Call) (node : NodeId)
    (position : List UInt32) :
    keptChanges (slotLog node position (history.entries call))
      = changesAt node position (if history.recorder.on then
          (history.recorder.dispatchesOf call).map (·.command)
        else persistentCommands (history.recorder.dispatchesOf call)) := by
  have hKept : (if history.recorder.on then
        (history.recorder.dispatchesOf call).map (·.command)
      else persistentCommands (history.recorder.dispatchesOf call))
      = ((history.entries call).filter fun entry =>
          entry.recording || entry.dispatch.persistent).map (·.dispatch.command) := by
    unfold entries entriesOf persistentCommands
    rw [List.filter_map, List.map_map]
    cases history.recorder.on with
    | true => simp [Function.comp_def]
    | false => simp [Function.comp_def]
  rw [hKept]
  symm
  apply changesAt_chosen
  intro entry change hChange
  obtain ⟨_, _, rfl⟩ := Option.map_eq_some_iff.mp hChange
  rfl

theorem Consistent.toList_all_after (hConsistent : history.Consistent) (call : Call) :
    (history.after call).recorder.store.all.toList
      = history.recorder.store.all.toList
        ++ persistentCommands (history.recorder.dispatchesOf call) := by
  rw [(hConsistent.after call).stored, hConsistent.stored, ← persistentCommands_append]
  rfl

theorem current_after_open (hOpen : (history.after call).recorder.encoder.isOpen = true) :
    (history.after call).current
      = (if history.recorder.encoder.isOpen then history.current else [])
        ++ history.recorder.hands call :=
  if_pos hOpen

/-- What was stored is handed over or goes on waiting. -/
theorem Consistent.partialReplay_after (hConsistent : history.Consistent)
    (hOpen : (history.after call).recorder.encoder.isOpen = true) :
    persistentHanded (history.recorder.hands call)
        ++ (history.after call).recorder.store.partialReplay.toList
      = history.waiting ++ persistentCommands (history.recorder.dispatchesOf call) := by
  have hHanded := (hConsistent.after call).handed hOpen
  rw [hConsistent.toList_all_after call] at hHanded
  rw [current_after_open hOpen, persistentHanded_append, List.append_assoc] at hHanded
  unfold waiting
  cases hBefore : history.recorder.encoder.isOpen with
  | true =>
      rw [hBefore, if_pos rfl, ← hConsistent.handed hBefore, List.append_assoc] at hHanded
      exact List.append_cancel_left hHanded
  | false =>
      rw [hBefore] at hHanded
      exact hHanded

/-- Turning on replays what waits. -/
theorem changesAt_turnOn (hOff : history.recorder.on = false) (node : NodeId)
    (position : List UInt32) :
    persistentHanded (history.recorder.hands .turnOn) = history.waiting ∧
      changesAt node position ((history.recorder.hands .turnOn).map (·.command))
        = changesAt node position history.waiting := by
  have hReplayed (commands : List Command) (items : List ItemId) :
      persistentHanded (commands.map .replayed ++ items.map .announced) = commands ∧
        changesAt node position
            ((commands.map Handed.replayed ++ items.map Handed.announced).map (·.command))
          = changesAt node position commands := by
    rw [persistentHanded_append, persistentHanded_replayed, persistentHanded_announced,
      List.map_append, command_replayed, command_announced, changesAt_append,
      changesAt_announced]
    exact ⟨List.append_nil _, List.append_nil _⟩
  unfold waiting
  cases hOpen : history.recorder.encoder.isOpen with
  | true =>
      rw [Recorder.hands_turnOn_open hOff hOpen]
      exact hReplayed _ _
  | false =>
      rw [Recorder.hands_turnOn_closed hOff hOpen]
      exact hReplayed _ _

theorem Consistent.changesAt_handed (hConsistent : history.Consistent)
    (hOpen : (history.after call).recorder.encoder.isOpen = true) (node : NodeId)
    (position : List UInt32) :
    changesAt node position ((history.recorder.hands call).map (·.command)
        ++ (history.after call).recorder.store.partialReplay.toList)
      = changesAt node position history.waiting
        ++ keptChanges (slotLog node position (history.entries call)) := by
  have hWaits := hConsistent.partialReplay_after hOpen
  rw [changesAt_append, changesAt_kept]
  -- turning on replays what waits; otherwise nothing waits while on, and nothing is
  -- handed over while off
  by_cases hTurnOn : call = .turnOn ∧ history.recorder.on = false
  · obtain ⟨rfl, hOff⟩ := hTurnOn
    obtain ⟨hHanded, hChanges⟩ := changesAt_turnOn hOff node position
    have hNothing : persistentCommands (history.recorder.dispatchesOf .turnOn) = [] := rfl
    rw [hHanded, hNothing] at hWaits
    rw [hChanges, List.append_cancel_left hWaits, hOff, if_neg Bool.false_ne_true, hNothing]
  · cases hOn : history.recorder.on with
    | true =>
        have hHands : history.recorder.hands call
            = (history.recorder.dispatchesOf call).map .direct := by
          cases call with
          | turnOn => exact if_pos hOn
          | _ => exact if_pos hOn
        have hNone : history.waiting = [] := by
          unfold waiting
          rw [if_pos (hConsistent.isOpen hOn), hConsistent.nothingWaits hOn]
        rw [hHands, persistentHanded_direct, hNone, List.nil_append] at hWaits
        have hLeft : (history.after call).recorder.store.partialReplay.toList = [] :=
          List.append_cancel_left (hWaits.trans (List.append_nil _).symm)
        rw [hHands, hLeft, hNone, command_direct, if_pos rfl]
        exact List.append_nil _
    | false =>
        have hHands : history.recorder.hands call = [] := by
          cases call with
          | turnOn => exact absurd ⟨rfl, hOn⟩ hTurnOn
          | _ => exact if_neg (Bool.eq_false_iff.mp hOn)
        rw [hHands] at hWaits
        change (history.after call).recorder.store.partialReplay.toList = _ at hWaits
        rw [hHands, hWaits, changesAt_append, if_neg Bool.false_ne_true]
        rfl

/-- A call that keeps the output adds to what is destined for it what the call
does not drop. -/
theorem Consistent.destined_after (hConsistent : history.Consistent)
    (hKeeps : history.KeepsOutput call) (node : NodeId) (position : List UInt32) :
    changesAt node position (history.after call).destined
      = changesAt node position history.destined
        ++ keptChanges (slotLog node position (history.entries call)) := by
  cases hNext : (history.after call).recorder.encoder.isOpen with
  | true =>
      have hDestined : (history.after call).destined
          = (if history.recorder.encoder.isOpen then history.current.map (·.command) else [])
            ++ ((history.recorder.hands call).map (·.command)
              ++ (history.after call).recorder.store.partialReplay.toList) := by
        unfold destined waiting
        rw [if_pos hNext, if_pos hNext, current_after_open hNext, List.map_append,
          List.append_assoc]
        split
        · rfl
        · rfl
      rw [hDestined, changesAt_append, hConsistent.changesAt_handed hNext, ← List.append_assoc,
        ← changesAt_append]
      rfl
  | false =>
      have hClosed := hKeeps.closed_before hNext
      rw [destined_closed hNext, destined_closed hClosed, hConsistent.toList_all_after,
        changesAt_append, changesAt_kept, hConsistent.off_of_closed hClosed]
      rfl

end Calls

/-! ### All runs -/

section Runs

variable {allowed : History → Call → Prop} {origin history : History} {log : List Entry}

theorem destined_start (settings : Settings) (directory : Directory) :
    (start settings directory).destined = [] := by
  rw [destined_closed (Encoder.isOpen_ofForm settings.text settings.bufferBytes directory)]
  rfl

theorem Run.afterAll (hRun : Run allowed origin history log) (calls : List Call)
    (hAllows : history.Allows allowed calls) :
    Run allowed origin (history.afterAll calls) (log ++ history.logAll calls) := by
  induction calls generalizing history log with
  | nil =>
      rw [logAll, List.append_nil]
      exact hRun
  | cons call calls ih =>
      rw [logAll, ← List.append_assoc]
      exact ih (hRun.after call hAllows.1) hAllows.2

theorem Run.sound (hRun : Run allowed origin history log) (hOrigin : origin.Sound) :
    history.Sound := by
  induction hRun with
  | idle => exact hOrigin
  | after _ call _ ih => exact ih.after call

/-- An invariant that every allowed call keeps for the slots of a node. -/
theorem Run.invariant {node : NodeId} {position : List UInt32}
    {motive : History → List SlotEntry → Option Occupant → Prop}
    (hRun : Run allowed origin history log) (hOrigin : origin.Sound)
    (hNode : ¬ history.topology.Unwatched node)
    (hStart : motive origin [] (origin.occupantAt node position))
    (hTouch : ∀ {history : History} {call : Call} {entries added : List SlotEntry}
      {before after : Option Occupant}, history.Sound → allowed history call →
      history.occupantAt node position = before → motive history entries before →
      history.Touch call node position before added after →
      motive (history.after call) (entries ++ added) after) :
    motive history (slotLog node position log) (history.occupantAt node position) := by
  induction hRun with
  | idle => exact hStart
  | after hRun call hAllowed ih =>
      have hSound := hRun.sound hOrigin
      -- a node without slots before the call would have none after it
      have hKnown := fun hUnwatched => hNode (hSound.marked_after call hUnwatched)
      rw [slotLog_append]
      exact hTouch hSound hAllowed rfl (ih hKnown) (hSound.touch_after call hNode position)

/-- The store has the persistent part of the log. -/
theorem Run.stored_eq (hRun : Run allowed origin history log) (hOrigin : origin.Sound)
    (node : NodeId) (position : List UInt32) :
    changesAt node position history.recorder.store.all.toList
      = changesAt node position origin.recorder.store.all.toList
        ++ storedChanges (slotLog node position log) := by
  induction hRun with
  | idle => exact (List.append_nil _).symm
  | @after history log hRun call _ ih =>
      rw [(hRun.sound hOrigin).consistent.toList_all_after, changesAt_append, ih,
        changesAt_persistentCommands node position history.recorder.on, slotLog_append,
        storedChanges_append, List.append_assoc]
      rfl

/-- What is destined for the output is what was not dropped, in the order of the log. -/
theorem Run.destined_eq (hRun : Run allowed origin history log) (hOrigin : origin.Sound)
    (hKeeps : ∀ {history call}, history.Consistent → allowed history call →
      history.KeepsOutput call) (node : NodeId) (position : List UInt32) :
    changesAt node position history.destined
      = changesAt node position origin.destined ++ keptChanges (slotLog node position log) := by
  induction hRun with
  | idle => exact (List.append_nil _).symm
  | after hRun call hAllowed ih =>
      have hConsistent := (hRun.sound hOrigin).consistent
      rw [hConsistent.destined_after (hKeeps hConsistent hAllowed), ih, slotLog_append,
        keptChanges_append, List.append_assoc]

end Runs
end History
end Recording
end CycleTrace
