/-
What an output has been handed, and why.

A history is a recorder together with two records that it does not keep itself:
every dispatch it has carried out, and every command the open output has been
handed since it was begun, each with the note whether it was dispatched as
persistent. A command can reach an output directly while the recorder is on, by
the replay of everything stored when the output is begun, or by the replay of
what was stored while off.

Whatever the calls, an output that is being recorded to has been handed each
persistent command exactly once and in the order of the dispatches.
-/

import CycleTrace.Lz4.StoredBlocks
import CycleTrace.Proofs.Recording.Calls

namespace CycleTrace
namespace Recording

open Output (Directory Encoder openingVersion stateAfter stateAfter_of_ok stateAfter_of_error)

/-- A command handed to an output, and whether it was dispatched as persistent. -/
structure Handed where
  command : Command
  persistent : Bool
deriving DecidableEq, Repr

/-- The persistent ones of the commands handed to an output, in order. -/
def persistentHanded (handed : List Handed) : List Command :=
  (handed.filter (·.persistent)).map (·.command)

/-- A command that goes to the output as it is dispatched. -/
def Handed.direct (sent : Dispatch) : Handed :=
  ⟨sent.command, sent.persistent⟩

/-- A command that was stored and is replayed; only persistent ones are stored. -/
def Handed.replayed (command : Command) : Handed :=
  ⟨command, true⟩

/-- An item that came into being while off without being stored. -/
def Handed.announced (item : ItemId) : Handed :=
  ⟨.newItem item, false⟩

section Codec

variable [Lz4.Codec]

namespace Recorder

/-- What a call dispatches. -/
def dispatchesOf (recorder : Recorder) : Call → List Dispatch
  | .report event persistent =>
      match recorder.planned event persistent with
      | .ok plan => plan.dispatches
      | .error _ => []
  | _ => []

/-- What a call hands to the output that is open after it. -/
def hands (recorder : Recorder) : Call → List Handed
  | .turnOn =>
      if recorder.on then []
      else if recorder.encoder.isOpen then
        recorder.store.partialReplay.toList.map .replayed
          ++ recorder.live.toList.map .announced
      else
        ⟨openingVersion, false⟩ :: (recorder.store.all.toList.map .replayed
          ++ recorder.live.toList.map .announced)
  | call => if recorder.on then (recorder.dispatchesOf call).map .direct else []

theorem dispatchesOf_report {recorder : Recorder} {event : Event} {persistent : Bool}
    {plan : Plan} (hPlan : recorder.planned event persistent = .ok plan) :
    recorder.dispatchesOf (.report event persistent) = plan.dispatches := by
  simp only [dispatchesOf, hPlan]

theorem dispatchesOf_report_refused {recorder : Recorder} {event : Event} {persistent : Bool}
    {fault : Fault} (hPlan : recorder.planned event persistent = .error fault) :
    recorder.dispatchesOf (.report event persistent) = [] := by
  simp only [dispatchesOf, hPlan]

theorem mem_dispatchesOf {recorder : Recorder} {call : Call} {sent : Dispatch}
    (hSent : sent ∈ recorder.dispatchesOf call) :
    ∃ event persistent plan, call = .report event persistent ∧
      recorder.planned event persistent = .ok plan ∧ sent ∈ plan.dispatches := by
  cases call with
  | report event persistent =>
      cases hPlan : recorder.planned event persistent with
      | ok plan =>
          rw [dispatchesOf_report hPlan] at hSent
          exact ⟨event, persistent, plan, rfl, hPlan, hSent⟩
      | error fault =>
          rw [dispatchesOf_report_refused hPlan] at hSent
          cases hSent
  | _ => cases hSent

theorem hands_report (recorder : Recorder) (event : Event) (persistent : Bool) :
    recorder.hands (.report event persistent)
      = if recorder.on then (recorder.dispatchesOf (.report event persistent)).map .direct
        else [] :=
  rfl

theorem hands_turnOn_open {recorder : Recorder} (hOff : recorder.on = false)
    (hOpen : recorder.encoder.isOpen = true) :
    recorder.hands .turnOn = recorder.store.partialReplay.toList.map .replayed
      ++ recorder.live.toList.map .announced := by
  dsimp only [hands]
  rw [hOff, hOpen, if_neg Bool.false_ne_true, if_pos rfl]

theorem hands_turnOn_closed {recorder : Recorder} (hOff : recorder.on = false)
    (hClosed : recorder.encoder.isOpen = false) :
    recorder.hands .turnOn = ⟨openingVersion, false⟩ ::
      (recorder.store.all.toList.map .replayed ++ recorder.live.toList.map .announced) := by
  dsimp only [hands]
  rw [hOff, hClosed, if_neg Bool.false_ne_true, if_neg Bool.false_ne_true]

end Recorder

end Codec

/-! ### Lists of handed commands -/

theorem mem_persistentHanded {handed : List Handed} {command : Command} :
    command ∈ persistentHanded handed
      ↔ ∃ entry ∈ handed, entry.persistent = true ∧ entry.command = command := by
  simp only [persistentHanded, List.mem_map, List.mem_filter, and_assoc]

theorem persistentHanded_append (handed others : List Handed) :
    persistentHanded (handed ++ others) = persistentHanded handed ++ persistentHanded others := by
  unfold persistentHanded
  rw [List.filter_append, List.map_append]

theorem persistentHanded_direct (sent : List Dispatch) :
    persistentHanded (sent.map .direct) = persistentCommands sent := by
  unfold persistentHanded persistentCommands
  rw [List.filter_map, List.map_map]
  rfl

theorem persistentHanded_replayed (commands : List Command) :
    persistentHanded (commands.map .replayed) = commands := by
  induction commands with
  | nil => rfl
  | cons command commands ih => exact congrArg (command :: ·) ih

theorem persistentHanded_announced (items : List ItemId) :
    persistentHanded (items.map .announced) = [] := by
  induction items with
  | nil => rfl
  | cons item items ih => exact ih

theorem command_direct (sent : List Dispatch) :
    (sent.map Handed.direct).map (·.command) = sent.map (·.command) := by
  rw [List.map_map]
  rfl

theorem command_replayed (commands : List Command) :
    (commands.map Handed.replayed).map (·.command) = commands := by
  rw [List.map_map]
  exact List.map_id commands

theorem command_announced (items : List ItemId) :
    (items.map Handed.announced).map (·.command) = items.map .newItem := by
  rw [List.map_map]
  rfl

/-! ### Histories -/

section Codec

variable [Lz4.Codec]

/-- A recorder with what it has dispatched since it was made, and what the open
output has been handed since it was begun. -/
structure History where
  recorder : Recorder
  dispatched : List Dispatch := []
  current : List Handed := []

namespace History

/-- A history after a call, granted or refused. -/
def after (history : History) (call : Call) : History :=
  let recorder := stateAfter (Recorder.perform call history.recorder)
  let earlier := if history.recorder.encoder.isOpen then history.current else []
  { recorder
    dispatched := history.dispatched ++ history.recorder.dispatchesOf call
    current := if recorder.encoder.isOpen then earlier ++ history.recorder.hands call else [] }

/-- The history of a new recorder. -/
def start (settings : Settings) (directory : Directory) : History :=
  { recorder := .ofSettings settings directory }

/-- A history after calls in order. -/
def afterAll (history : History) (calls : List Call) : History :=
  calls.foldl after history

theorem afterAll_append (history : History) (calls others : List Call) :
    history.afterAll (calls ++ others) = (history.afterAll calls).afterAll others :=
  List.foldl_append

/-- What holds in every history: the output carries what it was handed, what
was handed and what waits for an open output are together everything stored,
and nothing waits while on. -/
structure Consistent (history : History) : Prop where
  ready : history.recorder.encoder.Ready history.recorder.settings.text
  isOpen : history.recorder.on = true → history.recorder.encoder.isOpen = true
  carries : history.recorder.encoder.isOpen = true →
    ∃ name, Directory.fileName? history.recorder.settings.fileName = some name ∧
      history.recorder.encoder.Carries history.recorder.settings.text name
        history.recorder.settings.compressed (history.current.map (·.command))
  nothingWaits : history.recorder.on = true → history.recorder.store.partialReplay = #[]
  nothingLive : history.recorder.on = true → history.recorder.live = {}
  handed : history.recorder.encoder.isOpen = true →
    persistentHanded history.current ++ history.recorder.store.partialReplay.toList
      = history.recorder.store.all.toList
  stored : history.recorder.store.all.toList = persistentCommands history.dispatched

theorem Consistent.off_of_closed {history : History} (hConsistent : history.Consistent)
    (hClosed : history.recorder.encoder.isOpen = false) : history.recorder.on = false := by
  cases hOn : history.recorder.on with
  | true => exact absurd (hConsistent.isOpen hOn) (by simp [hClosed])
  | false => rfl

theorem consistent_start (settings : Settings) (directory : Directory) :
    (start settings directory).Consistent := by
  have hClosed : (start settings directory).recorder.encoder.isOpen = false :=
    Encoder.isOpen_ofForm settings.text settings.bufferBytes directory
  constructor
  · exact Encoder.ready_ofForm settings.text settings.bufferBytes directory
  · intro hOn
    cases hOn
  · intro hOpen
    rw [hClosed] at hOpen
    cases hOpen
  · intro hOn
    cases hOn
  · intro hOn
    cases hOn
  · intro hOpen
    rw [hClosed] at hOpen
    cases hOpen
  · rfl

section Steps

variable {history : History} {call : Call} {next : Recorder}

theorem after_of_state (hNext : stateAfter (Recorder.perform call history.recorder) = next) :
    history.after call =
      { recorder := next
        dispatched := history.dispatched ++ history.recorder.dispatchesOf call
        current :=
          if next.encoder.isOpen then
            (if history.recorder.encoder.isOpen then history.current else [])
              ++ history.recorder.hands call
          else [] } := by
  subst hNext
  rfl

/-- A call that hands nothing over and dispatches nothing. -/
theorem Consistent.after_quiet (hConsistent : history.Consistent)
    (hNext : stateAfter (Recorder.perform call history.recorder) = next)
    (hHands : history.recorder.hands call = [])
    (hDispatches : history.recorder.dispatchesOf call = [])
    (hSettings : next.settings = history.recorder.settings)
    (hStore : next.store = history.recorder.store)
    (hLive : next.live = history.recorder.live)
    (hOn : next.on = true → history.recorder.on = true)
    (hOpen : next.encoder.isOpen = history.recorder.encoder.isOpen)
    (hReady : next.encoder.Ready history.recorder.settings.text)
    (hCarries : ∀ name commands, history.recorder.encoder.Carries history.recorder.settings.text
        name history.recorder.settings.compressed commands →
      next.encoder.Carries history.recorder.settings.text name
        history.recorder.settings.compressed commands) :
    (history.after call).Consistent := by
  rw [after_of_state hNext, hHands, hDispatches]
  constructor
  · dsimp only
    rw [hSettings]
    exact hReady
  · intro hNextOn
    rw [hOpen]
    exact hConsistent.isOpen (hOn hNextOn)
  · intro hNextOpen
    dsimp only at hNextOpen ⊢
    have hBefore := hOpen.symm.trans hNextOpen
    obtain ⟨name, hName, hBeforeCarries⟩ := hConsistent.carries hBefore
    rw [if_pos hNextOpen, if_pos hBefore, List.append_nil, hSettings]
    exact ⟨name, hName, hCarries _ _ hBeforeCarries⟩
  · intro hNextOn
    dsimp only
    rw [hStore]
    exact hConsistent.nothingWaits (hOn hNextOn)
  · intro hNextOn
    dsimp only
    rw [hLive]
    exact hConsistent.nothingLive (hOn hNextOn)
  · intro hNextOpen
    dsimp only at hNextOpen ⊢
    have hBefore := hOpen.symm.trans hNextOpen
    rw [if_pos hNextOpen, if_pos hBefore, List.append_nil, hStore]
    exact hConsistent.handed hBefore
  · dsimp only
    rw [hStore, List.append_nil]
    exact hConsistent.stored

/-- A call that leaves the recorder off and without an output. -/
theorem Consistent.after_closing (hConsistent : history.Consistent)
    (hNext : stateAfter (Recorder.perform call history.recorder) = next)
    (hDispatches : history.recorder.dispatchesOf call = []) (hOff : next.on = false)
    (hStore : next.store = history.recorder.store) (hClosed : next.encoder.isOpen = false)
    (hReady : next.encoder.Ready next.settings.text) : (history.after call).Consistent := by
  rw [after_of_state hNext, hDispatches]
  constructor
  · exact hReady
  · intro hOn
    exact absurd hOn (by simp [hOff])
  · intro hOpen
    exact absurd hOpen (by simp [hClosed])
  · intro hOn
    exact absurd hOn (by simp [hOff])
  · intro hOn
    exact absurd hOn (by simp [hOff])
  · intro hOpen
    exact absurd hOpen (by simp [hClosed])
  · dsimp only
    rw [hStore, List.append_nil]
    exact hConsistent.stored

/-! ### Reports -/

theorem Consistent.after_report_on (hConsistent : history.Consistent) {event : Event}
    {persistent : Bool} {plan : Plan}
    (hPlan : history.recorder.planned event persistent = .ok plan)
    (hOn : history.recorder.on = true) :
    (history.after (.report event persistent)).Consistent := by
  have hOpen := hConsistent.isOpen hOn
  obtain ⟨name, hName, hCarries⟩ := hConsistent.carries hOpen
  obtain ⟨encoder, tally, hReport, hEncode⟩ := Recorder.report_on hPlan hOn hOpen
  have hDispatches := Recorder.dispatchesOf_report hPlan
  have hHands : history.recorder.hands (.report event persistent)
      = plan.dispatches.map .direct := by
    rw [Recorder.hands_report, if_pos hOn, hDispatches]
  have hAfter := hCarries.of_encodeAll hEncode
  have hNothing := hConsistent.nothingWaits hOn
  rw [after_of_state (stateAfter_of_ok hReport), hDispatches, hHands]
  dsimp only
  rw [if_pos hAfter.isOpen, if_pos hOpen]
  constructor
  · exact hAfter.ready
  · intro _
    exact hAfter.isOpen
  · intro _
    refine ⟨name, hName, ?_⟩
    rw [List.map_append, command_direct]
    exact hAfter
  · intro _
    exact (ReplayStore.partialReplay_storeAll_false _ _).trans hNothing
  · intro _
    exact hConsistent.nothingLive hOn
  · intro _
    have hBefore := hConsistent.handed hOpen
    rw [hNothing, List.append_nil] at hBefore
    rw [persistentHanded_append, persistentHanded_direct, ReplayStore.toList_all_storeAll,
      ReplayStore.partialReplay_storeAll_false, hNothing, hBefore, List.append_nil]
  · rw [ReplayStore.toList_all_storeAll, persistentCommands_append, hConsistent.stored]

theorem Consistent.after_report_off (hConsistent : history.Consistent) {event : Event}
    {persistent : Bool} {plan : Plan}
    (hPlan : history.recorder.planned event persistent = .ok plan)
    (hOff : history.recorder.on = false) :
    (history.after (.report event persistent)).Consistent := by
  obtain ⟨tally, hReport⟩ := Recorder.report_off hPlan hOff
  have hDispatches := Recorder.dispatchesOf_report hPlan
  have hHands : history.recorder.hands (.report event persistent) = [] := by
    rw [Recorder.hands_report, hOff, if_neg Bool.false_ne_true]
  rw [after_of_state (stateAfter_of_ok hReport), hDispatches, hHands]
  dsimp only
  constructor
  · exact hConsistent.ready
  · intro hOn
    exact absurd hOn (by simp [hOff])
  · intro hOpen
    rw [if_pos hOpen, if_pos hOpen, List.append_nil]
    exact hConsistent.carries hOpen
  · intro hOn
    exact absurd hOn (by simp [hOff])
  · intro hOn
    exact absurd hOn (by simp [hOff])
  · intro hOpen
    rw [if_pos hOpen, if_pos hOpen, List.append_nil, ReplayStore.toList_all_storeAll,
      ReplayStore.toList_partialReplay_storeAll_true, ← List.append_assoc,
      hConsistent.handed hOpen]
  · rw [ReplayStore.toList_all_storeAll, persistentCommands_append, hConsistent.stored]

theorem Consistent.after_report (hConsistent : history.Consistent) (event : Event)
    (persistent : Bool) : (history.after (.report event persistent)).Consistent := by
  cases hPlan : history.recorder.planned event persistent with
  | error fault =>
      have hDispatches := Recorder.dispatchesOf_report_refused hPlan
      have hHands : history.recorder.hands (.report event persistent) = [] := by
        rw [Recorder.hands_report, hDispatches]
        exact ite_self []
      exact hConsistent.after_quiet (Recorder.stateAfter_refused hConsistent.isOpen hPlan) hHands
        hDispatches rfl rfl rfl id rfl hConsistent.ready fun _ _ => id
  | ok plan =>
      cases hOn : history.recorder.on with
      | false => exact hConsistent.after_report_off hPlan hOn
      | true => exact hConsistent.after_report_on hPlan hOn

/-! ### Turning on -/

theorem Consistent.after_turnOn_open (hConsistent : history.Consistent)
    (hOff : history.recorder.on = false) (hOpen : history.recorder.encoder.isOpen = true) :
    (history.after .turnOn).Consistent := by
  obtain ⟨name, hName, hCarries⟩ := hConsistent.carries hOpen
  obtain ⟨encoder, tally, hTurnOn, hEncode⟩ := Recorder.turnOn_open hOff hOpen
  have hAfter := hCarries.of_encodeAll hEncode
  rw [after_of_state (stateAfter_of_ok hTurnOn), Recorder.hands_turnOn_open hOff hOpen]
  dsimp only
  rw [if_pos hAfter.isOpen, if_pos hOpen]
  constructor
  · exact hAfter.ready
  · intro _
    exact hAfter.isOpen
  · intro _
    refine ⟨name, hName, ?_⟩
    rw [List.map_append, List.map_append, command_replayed, command_announced]
    exact hAfter
  · intro _
    rfl
  · intro _
    rfl
  · intro _
    rw [persistentHanded_append, persistentHanded_append, persistentHanded_replayed,
      persistentHanded_announced, List.append_nil, hConsistent.handed hOpen]
    exact List.append_nil _
  · rw [persistentCommands_append, ← hConsistent.stored]
    exact (List.append_nil _).symm

theorem Consistent.after_turnOn_begin (hConsistent : history.Consistent)
    (hOff : history.recorder.on = false) (hClosed : history.recorder.encoder.isOpen = false)
    {begun : Encoder} {name : String}
    (hName : Directory.fileName? history.recorder.settings.fileName = some name)
    (hBegin : Encoder.beginFile history.recorder.settings.fileName
      history.recorder.settings.compressed history.recorder.encoder = .ok () begun)
    (hBegun : begun.Carries history.recorder.settings.text name
      history.recorder.settings.compressed [openingVersion]) :
    (history.after .turnOn).Consistent := by
  obtain ⟨encoder, tally, hTurnOn, hEncode⟩ :=
    Recorder.turnOn_begin hOff hClosed hBegin hBegun.isOpen
  have hAfter := hBegun.of_encodeAll hEncode
  rw [after_of_state (stateAfter_of_ok hTurnOn), Recorder.hands_turnOn_closed hOff hClosed]
  dsimp only
  rw [if_pos hAfter.isOpen, hClosed, if_neg Bool.false_ne_true, List.nil_append]
  constructor
  · exact hAfter.ready
  · intro _
    exact hAfter.isOpen
  · intro _
    refine ⟨name, hName, ?_⟩
    rw [List.map_cons, List.map_append, command_replayed, command_announced]
    exact hAfter
  · intro _
    rfl
  · intro _
    rfl
  · intro _
    change persistentHanded (history.recorder.store.all.toList.map .replayed
      ++ history.recorder.live.toList.map .announced) ++ [] = history.recorder.store.all.toList
    rw [persistentHanded_append, persistentHanded_replayed, persistentHanded_announced,
      List.append_nil, List.append_nil]
  · rw [persistentCommands_append, ← hConsistent.stored]
    exact (List.append_nil _).symm

theorem Consistent.after_turnOn (hConsistent : history.Consistent) :
    (history.after .turnOn).Consistent := by
  rcases Recorder.turnOn_cases hConsistent.ready with hOn | ⟨hOff, hOpen⟩ |
    ⟨hOff, hClosed, name, begun, hName, hBegin, hBegun⟩ | ⟨hOff, hClosed, fault, hNoFile⟩
  · have hHands : history.recorder.hands .turnOn = [] := if_pos hOn
    exact hConsistent.after_quiet (stateAfter_of_ok (Recorder.turnOn_ignored hOn)) hHands rfl rfl
      rfl rfl id rfl hConsistent.ready fun _ _ => id
  · exact hConsistent.after_turnOn_open hOff hOpen
  · exact hConsistent.after_turnOn_begin hOff hClosed hName hBegin hBegun
  · exact hConsistent.after_closing (stateAfter_of_error hNoFile) rfl hOff rfl hClosed
      hConsistent.ready

/-! ### All calls -/

theorem Consistent.after (hConsistent : history.Consistent) (call : Call) :
    (history.after call).Consistent := by
  have hIdle (other : Call) (hNothing : history.recorder.dispatchesOf other = []) :
      (if history.recorder.on then
        (history.recorder.dispatchesOf other).map Handed.direct else []) = [] := by
    rw [hNothing]
    exact ite_self []
  have hClosed := hConsistent.ready.close
  cases call with
  | report event persistent => exact hConsistent.after_report event persistent
  | turnOn => exact hConsistent.after_turnOn
  | turnOff =>
      cases hOn : history.recorder.on with
      | false =>
          exact hConsistent.after_quiet (stateAfter_of_ok (Recorder.turnOff_ignored hOn))
            (hIdle .turnOff rfl) rfl rfl rfl rfl id rfl hConsistent.ready fun _ _ => id
      | true =>
          refine hConsistent.after_quiet (stateAfter_of_ok (Recorder.turnOff_on hOn))
            (hIdle .turnOff rfl) rfl rfl rfl rfl ?_ ?_ hConsistent.ready.flush ?_
          · intro hOff
            cases hOff
          · exact Encoder.isOpen_flush _
          · intro name commands hCarries
            exact hCarries.flush
  | flush =>
      refine hConsistent.after_quiet rfl (hIdle .flush rfl) rfl rfl rfl rfl id
        (Encoder.isOpen_flush _) hConsistent.ready.flush ?_
      intro name commands hCarries
      exact hCarries.flush
  | close => exact hConsistent.after_closing rfl rfl rfl rfl hClosed.2 hClosed.1
  | changeFile name =>
      cases hOn : history.recorder.on with
      | true =>
          exact hConsistent.after_quiet (stateAfter_of_ok (Recorder.changeFile_ignored hOn))
            (hIdle (.changeFile name) rfl) rfl rfl rfl rfl id rfl hConsistent.ready
            fun _ _ => id
      | false =>
          exact hConsistent.after_closing (stateAfter_of_ok (Recorder.changeFile_off hOn)) rfl
            hOn rfl hClosed.2 hClosed.1
  | setTextForm text =>
      cases hOn : history.recorder.on with
      | true =>
          exact hConsistent.after_quiet (stateAfter_of_ok (Recorder.setTextForm_ignored hOn))
            (hIdle (.setTextForm text) rfl) rfl rfl rfl rfl id rfl hConsistent.ready
            fun _ _ => id
      | false =>
          by_cases hSame : history.recorder.settings.text = text
          · exact hConsistent.after_quiet
              (stateAfter_of_ok (Recorder.setTextForm_same hOn hSame))
              (hIdle (.setTextForm text) rfl) rfl rfl rfl rfl id rfl hConsistent.ready
              fun _ _ => id
          · exact hConsistent.after_closing
              (stateAfter_of_ok (Recorder.setTextForm_other hOn hSame)) rfl hOn rfl
              (Encoder.isOpen_ofForm _ _ _) (Encoder.ready_ofForm _ _ _)
  | attachArchive data =>
      exact hConsistent.after_quiet rfl (hIdle (.attachArchive data) rfl) rfl rfl rfl rfl id rfl
        hConsistent.ready fun _ _ => id

theorem Consistent.afterAll (hConsistent : history.Consistent) (calls : List Call) :
    (history.afterAll calls).Consistent := by
  induction calls generalizing history with
  | nil => exact hConsistent
  | cons call calls ih => exact ih (hConsistent.after call)

end Steps

/-- The recorder of a history is what the calls make of a new recorder. -/
theorem recorder_afterAll (history : History) (calls : List Call) :
    (history.afterAll calls).recorder = history.recorder.afterCalls calls := by
  induction calls generalizing history with
  | nil => rfl
  | cons call calls ih => exact ih (history.after call)

/-- The histories of new recorders. -/
def Reached (history : History) : Prop :=
  ∃ settings directory calls, history = (start settings directory).afterAll calls

theorem Reached.consistent {history : History} (hReached : history.Reached) :
    history.Consistent := by
  obtain ⟨settings, directory, calls, rfl⟩ := hReached
  exact (consistent_start settings directory).afterAll calls

/-- Replay loses, doubles and reorders nothing. While the recorder is on, what
the open output was handed since it was begun holds every persistent dispatch
once, in the order of the dispatches, as the store does. Nothing waits for
replay, and no item is still to be announced. What was handed is what the file
holds, so none of this is true of the record alone. -/
theorem handed_eq_stored {history : History} (hReached : history.Reached)
    (hOn : history.recorder.on = true) :
    persistentHanded history.current = history.recorder.store.all.toList ∧
    history.recorder.store.all.toList = persistentCommands history.dispatched ∧
    history.recorder.store.partialReplay = #[] ∧ history.recorder.live = {} ∧
    ∃ name, Directory.fileName? history.recorder.settings.fileName = some name ∧
      history.recorder.encoder.Carries history.recorder.settings.text name
        history.recorder.settings.compressed (history.current.map (·.command)) := by
  have hConsistent := hReached.consistent
  have hOpen := hConsistent.isOpen hOn
  have hNothing := hConsistent.nothingWaits hOn
  have hHanded := hConsistent.handed hOpen
  rw [hNothing, List.append_nil] at hHanded
  exact ⟨hHanded, hConsistent.stored, hNothing, hConsistent.nothingLive hOn,
    hConsistent.carries hOpen⟩

end History

end Codec

namespace History

/-- A recorder that could not create its first file, and was turned off and on
again while reports went on. -/
def resumed : History :=
  (start { fileName := "" } {}).afterAll
    [.report (.cycle 1) true, .turnOn, .changeFile "run.ptr", .report (.newItem none) false,
      .turnOn, .report (.cycle 2) true, .turnOff, .report (.cycle 3) true, .turnOn]

theorem handed_eq_stored_resumed :
    resumed.recorder.on = true ∧
      persistentHanded resumed.current = [.cycle 1, .cycle 2, .cycle 3] := by
  have hReached : resumed.Reached := ⟨_, _, _, rfl⟩
  have hOn : resumed.recorder.on = true := rfl
  exact ⟨hOn, (handed_eq_stored hReached hOn).1⟩

end History
end Recording
end CycleTrace
