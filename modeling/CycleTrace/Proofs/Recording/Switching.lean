/-
Recording later equals recording from the start.

Persistent reports are kept whether or not they are recorded, and what they
lead to does not depend on it. So two recorders that take the same persistent
reports hold the same machine and the same store, whenever each of them was
turned on and off. While on, the open output of either has been handed the
opening and then the whole store, and nothing else.

An output may also be closed and another begun, for it is given the whole
store. Another file makes a difference where repeated tags are suppressed: it
is told their values anew.
-/

import CycleTrace.Lz4.StoredBlocks
import CycleTrace.Proofs.Recording.History
import CycleTrace.Proofs.Recording.Persistence

namespace CycleTrace
namespace Recording

open Output (Directory Encoder openingVersion stateAfter stateAfter_of_ok stateAfter_of_error)

namespace Call

/-- Calls about the simulated machine whose commands are all kept. -/
def isPersistent : Call → Bool
  | .report _ persistent => persistent
  | .attachArchive _ => true
  | _ => false

/-- Calls about the recording. Changing the file counts only where repeated
tags are written, for the memory of tags is lost with it. -/
def isSwitch (suppressed : Bool) : Call → Bool
  | .turnOn | .turnOff | .flush | .close => true
  | .changeFile _ => !suppressed
  | _ => false

end Call

/-- Calls that are the given persistent ones with switches put in anywhere. -/
def SwitchesIn (suppressed : Bool) (reports calls : List Call) : Prop :=
  calls.filter Call.isPersistent = reports ∧
    ∀ call ∈ calls, call.isPersistent = true ∨ call.isSwitch suppressed = true

namespace Recorder

/-! ### Persistent dispatches -/

theorem trackItem_persistent {sent : Dispatch} (hPersistent : sent.persistent = true) :
    trackItem {} sent = {} := by
  obtain ⟨command, persistent, synthesized⟩ := sent
  cases hPersistent
  cases command <;> rfl

theorem trackItem_allPersistent {sent : List Dispatch}
    (hPersistent : ∀ each ∈ sent, each.persistent = true) : sent.foldl trackItem {} = {} := by
  induction sent with
  | nil => rfl
  | cons first rest ih =>
      rw [List.foldl_cons, trackItem_persistent (hPersistent first List.mem_cons_self)]
      exact ih fun each hEach => hPersistent each (List.mem_cons_of_mem first hEach)

theorem direct_allPersistent {sent : List Dispatch}
    (hPersistent : ∀ each ∈ sent, each.persistent = true) :
    sent.map Handed.direct = (sent.map (·.command)).map .replayed := by
  rw [List.map_map]
  apply List.map_congr_left
  intro each hEach
  unfold Handed.direct
  rw [hPersistent each hEach]
  rfl

/-! ### Recorders -/

variable [Lz4.Codec]

/-- Recorders that differ at most in what became of the output. -/
structure Agrees (recorder other : Recorder) : Prop where
  machine : recorder.machine = other.machine
  stored : recorder.store.all.toList = other.store.all.toList
  settings : recorder.settings = { other.settings with fileName := recorder.settings.fileName }

/-- What holds of a recorder as long as all its reports are persistent. -/
structure Settled (recorder : Recorder) : Prop where
  known : recorder.machine.occupancy.Known
  tagMemory : recorder.settings.suppressRepeatedTags = false → recorder.machine.tagMemory = {}
  live : recorder.live = {}

section Calls

variable {recorder other next : Recorder}

theorem Agrees.refl (recorder : Recorder) : recorder.Agrees recorder :=
  ⟨rfl, rfl, rfl⟩

theorem Agrees.trans (hAgrees : recorder.Agrees other) (hNext : other.Agrees next) :
    recorder.Agrees next := by
  refine ⟨hAgrees.machine.trans hNext.machine, hAgrees.stored.trans hNext.stored, ?_⟩
  rw [hAgrees.settings, hNext.settings]

theorem Agrees.suppressed (hAgrees : recorder.Agrees other) :
    recorder.settings.suppressRepeatedTags = other.settings.suppressRepeatedTags := by
  rw [hAgrees.settings]

theorem settled_ofSettings (settings : Settings) (directory : Directory) :
    (ofSettings settings directory).Settled :=
  ⟨OccupancyTable.known_empty, fun _ => rfl, rfl⟩

theorem Settled.of_agrees (hSettled : recorder.Settled) (hAgrees : next.Agrees recorder)
    (hLive : next.live = {}) : next.Settled := by
  constructor
  · rw [hAgrees.machine]
    exact hSettled.known
  · intro hTelling
    rw [hAgrees.machine]
    exact hSettled.tagMemory (hAgrees.suppressed.symm.trans hTelling)
  · exact hLive

/-- The answers to the persistent calls of a run, in order. -/
def reportAnswers (recorder : Recorder) (calls : List Call) : List (Except Fault Reply) :=
  ((calls.zip (recorder.answers calls)).filter (·.1.isPersistent)).map (·.2)

theorem reportAnswers_of_persistent (recorder : Recorder) {call : Call} {calls : List Call}
    (hPersistent : call.isPersistent = true) :
    recorder.reportAnswers (call :: calls)
      = answer (perform call recorder)
        :: (stateAfter (perform call recorder)).reportAnswers calls := by
  simp only [reportAnswers, answers, List.zip_cons_cons, List.filter_cons, hPersistent, if_true,
    List.map_cons]

theorem reportAnswers_of_other (recorder : Recorder) {call : Call} {calls : List Call}
    (hOther : call.isPersistent = false) :
    recorder.reportAnswers (call :: calls)
      = (stateAfter (perform call recorder)).reportAnswers calls := by
  simp only [reportAnswers, answers, List.zip_cons_cons, List.filter_cons, hOther,
    Bool.false_eq_true, if_false]

/-- The file of the last output, once the recorder is gone. -/
def lastFile? (recorder : Recorder) : Option (Array UInt8) :=
  recorder.finalDirectory.find? recorder.settings.fileName

/-! ### Reports -/

theorem Settled.persistent_plan (hSettled : recorder.Settled) {event : Event} {plan : Plan}
    (hPlan : recorder.planned event true = .ok plan) :
    plan.Persistent recorder.machine recorder.settings.suppressRepeatedTags :=
  Machine.persists_plan hSettled.known recorder.on event plan hPlan

/-- Agreeing recorders plan a persistent report alike. -/
theorem Agrees.planned (hAgrees : recorder.Agrees other) (event : Event) :
    recorder.planned event true = other.planned event true := by
  unfold Recorder.planned circumstances
  rw [hAgrees.machine, hAgrees.suppressed]
  exact Machine.plan_recording other.machine recorder.on other.on _ event

theorem Settled.perform_report (hSettled : recorder.Settled)
    (hOpen : recorder.on = true → recorder.encoder.isOpen = true) {event : Event} {plan : Plan}
    (hPlan : recorder.planned event true = .ok plan) :
    ∃ next, perform (.report event true) recorder = .ok plan.reply next ∧
      next.machine = plan.machine ∧ next.settings = recorder.settings ∧ next.live = {} ∧
      next.store.all.toList
        = recorder.store.all.toList ++ persistentCommands plan.dispatches := by
  cases hOn : recorder.on with
  | true =>
      obtain ⟨encoder, tally, hReport, _⟩ := report_on hPlan hOn (hOpen hOn)
      exact ⟨_, hReport, rfl, rfl, hSettled.live, ReplayStore.toList_all_storeAll _ _ _⟩
  | false =>
      obtain ⟨tally, hReport⟩ := report_off hPlan hOn
      refine ⟨_, hReport, rfl, rfl, ?_, ReplayStore.toList_all_storeAll _ _ _⟩
      dsimp only
      rw [hSettled.live]
      exact trackItem_allPersistent (hSettled.persistent_plan hPlan).dispatches

theorem Settled.after_persistent (hSettled : recorder.Settled)
    (hOpen : recorder.on = true → recorder.encoder.isOpen = true) {call : Call}
    (hPersistent : call.isPersistent = true) : (stateAfter (perform call recorder)).Settled := by
  cases call with
  | report event persistent =>
      cases hPersistent
      cases hPlan : recorder.planned event true with
      | error fault =>
          rw [stateAfter_refused hOpen hPlan]
          exact hSettled
      | ok plan =>
          obtain ⟨next, hReport, hMachine, hSettings, hLive, _⟩ :=
            hSettled.perform_report hOpen hPlan
          have hPlanned := hSettled.persistent_plan hPlan
          rw [stateAfter_of_ok hReport]
          constructor
          · rw [hMachine]
            exact hPlanned.known
          · intro hTelling
            rw [hSettings] at hTelling
            rw [hMachine, hPlanned.tagMemory hTelling]
            exact hSettled.tagMemory hTelling
          · exact hLive
  | attachArchive data => exact ⟨hSettled.known, hSettled.tagMemory, hSettled.live⟩
  | turnOn | turnOff | flush | close | changeFile | setTextForm => cases hPersistent

theorem Settled.settings_after_persistent (hSettled : recorder.Settled)
    (hOpen : recorder.on = true → recorder.encoder.isOpen = true) {call : Call}
    (hPersistent : call.isPersistent = true) :
    (stateAfter (perform call recorder)).settings = recorder.settings := by
  cases call with
  | report event persistent =>
      cases hPersistent
      cases hPlan : recorder.planned event true with
      | error fault => rw [stateAfter_refused hOpen hPlan]
      | ok plan =>
          obtain ⟨next, hReport, _, hSettings, _⟩ := hSettled.perform_report hOpen hPlan
          rw [stateAfter_of_ok hReport, hSettings]
  | attachArchive data => rfl
  | turnOn | turnOff | flush | close | changeFile | setTextForm => cases hPersistent

/-- Agreeing recorders answer a persistent call alike and agree after it. -/
theorem Agrees.after_persistent (hAgrees : recorder.Agrees other) (hSettled : recorder.Settled)
    (hOtherSettled : other.Settled)
    (hOpen : recorder.on = true → recorder.encoder.isOpen = true)
    (hOtherOpen : other.on = true → other.encoder.isOpen = true) {call : Call}
    (hPersistent : call.isPersistent = true) :
    answer (perform call recorder) = answer (perform call other) ∧
      (stateAfter (perform call recorder)).Agrees (stateAfter (perform call other)) := by
  cases call with
  | report event persistent =>
      cases hPersistent
      have hSame := hAgrees.planned event
      cases hPlan : recorder.planned event true with
      | error fault =>
          rw [report_refused hOpen hPlan, report_refused hOtherOpen (hSame.symm.trans hPlan)]
          exact ⟨rfl, hAgrees⟩
      | ok plan =>
          obtain ⟨next, hReport, hMachine, hSettings, _, hStored⟩ :=
            hSettled.perform_report hOpen hPlan
          obtain ⟨otherNext, hOtherReport, hOtherMachine, hOtherSettings, _, hOtherStored⟩ :=
            hOtherSettled.perform_report hOtherOpen (hSame.symm.trans hPlan)
          rw [hReport, hOtherReport]
          refine ⟨rfl, hMachine.trans hOtherMachine.symm, ?_, ?_⟩
          · exact hStored.trans (hAgrees.stored ▸ hOtherStored.symm)
          · dsimp only [stateAfter]
            rw [hSettings, hOtherSettings]
            exact hAgrees.settings
  | attachArchive data =>
      refine ⟨rfl, ?_, hAgrees.stored, hAgrees.settings⟩
      exact congrArg (fun machine => { machine with archive := some data }) hAgrees.machine
  | turnOn | turnOff | flush | close | changeFile | setTextForm => cases hPersistent

/-! ### Switches -/

theorem Settled.forgetOutput (hSettled : recorder.Settled) :
    { recorder.machine with occupancy := recorder.machine.occupancy.forgetOutput }
      = recorder.machine := by
  rw [hSettled.known.forgetOutput]

theorem Settled.forgetTags (hSettled : recorder.Settled)
    (hTelling : recorder.settings.suppressRepeatedTags = false) :
    { recorder.machine with tagMemory := {} } = recorder.machine := by
  rw [← hSettled.tagMemory hTelling]

theorem Settled.agrees_turnOn (hSettled : recorder.Settled)
    (hReady : recorder.encoder.Ready recorder.settings.text) :
    (stateAfter (perform .turnOn recorder)).Agrees recorder ∧
      (stateAfter (perform .turnOn recorder)).live = {} := by
  rcases turnOn_cases hReady with hOn | ⟨hOff, hOpen⟩ |
    ⟨hOff, hClosed, name, begun, _, hBegin, hBegun⟩ | ⟨_, _, fault, hNoFile⟩
  · rw [stateAfter_of_ok (turnOn_ignored hOn)]
    exact ⟨.refl recorder, hSettled.live⟩
  · obtain ⟨encoder, tally, hTurnOn, _⟩ := turnOn_open hOff hOpen
    rw [stateAfter_of_ok hTurnOn]
    exact ⟨⟨rfl, rfl, rfl⟩, rfl⟩
  · obtain ⟨encoder, tally, hTurnOn, _⟩ := turnOn_begin hOff hClosed hBegin hBegun.isOpen
    rw [stateAfter_of_ok hTurnOn]
    exact ⟨⟨hSettled.forgetOutput, rfl, rfl⟩, rfl⟩
  · rw [stateAfter_of_error hNoFile]
    exact ⟨.refl recorder, hSettled.live⟩

/-- A switch changes nothing but what becomes of the output. -/
theorem Settled.agrees_switch (hSettled : recorder.Settled)
    (hReady : recorder.encoder.Ready recorder.settings.text) {call : Call}
    (hSwitch : call.isSwitch recorder.settings.suppressRepeatedTags = true) :
    (stateAfter (perform call recorder)).Agrees recorder ∧
      (stateAfter (perform call recorder)).live = {} := by
  cases call with
  | turnOn => exact hSettled.agrees_turnOn hReady
  | turnOff =>
      cases hOn : recorder.on with
      | true =>
          rw [stateAfter_of_ok (turnOff_on hOn)]
          exact ⟨⟨rfl, rfl, rfl⟩, hSettled.live⟩
      | false =>
          rw [stateAfter_of_ok (turnOff_ignored hOn)]
          exact ⟨.refl recorder, hSettled.live⟩
  | flush => exact ⟨⟨rfl, rfl, rfl⟩, hSettled.live⟩
  | close => exact ⟨⟨rfl, rfl, rfl⟩, hSettled.live⟩
  | changeFile name =>
      have hTelling : recorder.settings.suppressRepeatedTags = false := by
        simpa [Call.isSwitch] using hSwitch
      cases hOn : recorder.on with
      | true =>
          rw [stateAfter_of_ok (changeFile_ignored hOn)]
          exact ⟨.refl recorder, hSettled.live⟩
      | false =>
          rw [stateAfter_of_ok (changeFile_off hOn)]
          exact ⟨⟨hSettled.forgetTags hTelling, rfl, rfl⟩, hSettled.live⟩
  | report | setTextForm | attachArchive => cases hSwitch

/-! ### What is handed over -/

/-- Without an open output, only turning on opens one. -/
theorem isOpen_after_closed (hOff : recorder.on = false)
    (hClosed : recorder.encoder.isOpen = false)
    (hReady : recorder.encoder.Ready recorder.settings.text) {call : Call}
    (hOther : call ≠ .turnOn) :
    (stateAfter (perform call recorder)).encoder.isOpen = false := by
  cases call with
  | report event persistent =>
      cases hPlan : recorder.planned event persistent with
      | error fault =>
          rw [stateAfter_refused (hasOutput_of_off hOff) hPlan]
          exact hClosed
      | ok plan =>
          obtain ⟨tally, hReport⟩ := report_off hPlan hOff
          rw [stateAfter_of_ok hReport]
          exact hClosed
  | turnOn => exact absurd rfl hOther
  | turnOff =>
      rw [stateAfter_of_ok (turnOff_ignored hOff)]
      exact hClosed
  | flush => exact (Encoder.isOpen_flush _).trans hClosed
  | close => exact hReady.close.2
  | changeFile name =>
      rw [stateAfter_of_ok (changeFile_off hOff)]
      exact hReady.close.2
  | setTextForm text =>
      by_cases hSame : recorder.settings.text = text
      · rw [stateAfter_of_ok (setTextForm_same hOff hSame)]
        exact hClosed
      · rw [stateAfter_of_ok (setTextForm_other hOff hSame)]
        exact Encoder.isOpen_ofForm _ _ _
  | attachArchive data => exact hClosed

theorem announced_of_settled (hSettled : recorder.Settled) :
    recorder.live.toList.map Handed.announced = [] := by
  rw [hSettled.live]
  rfl

/-- An open output is handed persistent commands only. -/
theorem Settled.hands_open (hSettled : recorder.Settled)
    (hOpen : recorder.encoder.isOpen = true) {call : Call}
    (hCall : call.isPersistent = true ∨
      call.isSwitch recorder.settings.suppressRepeatedTags = true) :
    ∃ commands : List Command, recorder.hands call = commands.map .replayed := by
  have hIdle (other : Call)
      (hHands : recorder.hands other = if recorder.on then ([] : List Handed) else []) :
      ∃ commands : List Command, recorder.hands other = commands.map .replayed :=
    ⟨[], hHands.trans (ite_self [])⟩
  cases call with
  | report event persistent =>
      have hPersistent : persistent = true := by
        rcases hCall with hPersistent | hSwitch
        · exact hPersistent
        · cases hSwitch
      cases hPersistent
      rw [hands_report]
      cases hPlan : recorder.planned event true with
      | error fault =>
          rw [dispatchesOf_report_refused hPlan]
          exact ⟨[], ite_self []⟩
      | ok plan =>
          rw [dispatchesOf_report hPlan,
            direct_allPersistent (hSettled.persistent_plan hPlan).dispatches]
          split
          · exact ⟨_, rfl⟩
          · exact ⟨[], rfl⟩
  | turnOn =>
      cases hOn : recorder.on with
      | true => exact ⟨[], if_pos hOn⟩
      | false =>
          rw [hands_turnOn_open hOn hOpen, announced_of_settled hSettled, List.append_nil]
          exact ⟨_, rfl⟩
  | turnOff => exact hIdle .turnOff rfl
  | flush => exact hIdle .flush rfl
  | close => exact hIdle .close rfl
  | changeFile name => exact hIdle (.changeFile name) rfl
  | setTextForm text => exact hIdle (.setTextForm text) rfl
  | attachArchive data => exact hIdle (.attachArchive data) rfl

theorem Settled.hands_closed (hSettled : recorder.Settled) (hOff : recorder.on = false)
    (hClosed : recorder.encoder.isOpen = false) :
    recorder.hands .turnOn
      = ⟨openingVersion, false⟩ :: recorder.store.all.toList.map .replayed := by
  rw [hands_turnOn_closed hOff hClosed, announced_of_settled hSettled, List.append_nil]

end Calls
end Recorder

namespace History

section Codec

variable [Lz4.Codec]

/-- What holds in the histories of persistent reports: the open output has been
handed persistent commands after its opening, and no others. -/
structure Settled (history : History) : Prop where
  consistent : history.Consistent
  recorder : history.recorder.Settled
  replayed : history.recorder.encoder.isOpen = true →
    ∃ commands : List Command,
      history.current = ⟨openingVersion, false⟩ :: commands.map .replayed

theorem settled_start (settings : Settings) (directory : Directory) :
    (start settings directory).Settled := by
  have hClosed : (start settings directory).recorder.encoder.isOpen = false :=
    Encoder.isOpen_ofForm settings.text settings.bufferBytes directory
  refine ⟨consistent_start settings directory, Recorder.settled_ofSettings settings directory, ?_⟩
  intro hOpen
  rw [hClosed] at hOpen
  cases hOpen

section Runs

variable {history other : History} {call : Call}

theorem Settled.recorder_after (hSettled : history.Settled)
    (hCall : call.isPersistent = true ∨
      call.isSwitch history.recorder.settings.suppressRepeatedTags = true) :
    (history.after call).recorder.Settled := by
  rcases hCall with hPersistent | hSwitch
  · exact hSettled.recorder.after_persistent hSettled.consistent.isOpen hPersistent
  · obtain ⟨hAgrees, hLive⟩ :=
      hSettled.recorder.agrees_switch hSettled.consistent.ready hSwitch
    exact hSettled.recorder.of_agrees hAgrees hLive

theorem Settled.after (hSettled : history.Settled)
    (hCall : call.isPersistent = true ∨
      call.isSwitch history.recorder.settings.suppressRepeatedTags = true) :
    (history.after call).Settled := by
  refine ⟨hSettled.consistent.after call, hSettled.recorder_after hCall, ?_⟩
  intro hNextOpen
  rw [after_of_state rfl] at hNextOpen ⊢
  dsimp only at hNextOpen ⊢
  rw [if_pos hNextOpen]
  cases hOpen : history.recorder.encoder.isOpen with
  | true =>
      obtain ⟨commands, hCurrent⟩ := hSettled.replayed hOpen
      obtain ⟨later, hHands⟩ := hSettled.recorder.hands_open hOpen hCall
      refine ⟨commands ++ later, ?_⟩
      rw [if_pos rfl, hCurrent, hHands, List.map_append]
      rfl
  | false =>
      have hOff := hSettled.consistent.off_of_closed hOpen
      by_cases hTurnOn : call = .turnOn
      · subst hTurnOn
        rw [if_neg Bool.false_ne_true, hSettled.recorder.hands_closed hOff hOpen]
        exact ⟨_, rfl⟩
      · have hClosed := Recorder.isOpen_after_closed hOff hOpen hSettled.consistent.ready hTurnOn
        rw [hClosed] at hNextOpen
        cases hNextOpen

/-- While on, the open output has been handed the opening and the store. -/
theorem Settled.current_eq (hSettled : history.Settled) (hOn : history.recorder.on = true) :
    history.current
      = ⟨openingVersion, false⟩ :: history.recorder.store.all.toList.map .replayed := by
  have hOpen := hSettled.consistent.isOpen hOn
  have hHanded := hSettled.consistent.handed hOpen
  obtain ⟨commands, hCurrent⟩ := hSettled.replayed hOpen
  rw [hSettled.consistent.nothingWaits hOn, hCurrent, List.append_nil] at hHanded
  have hStored : commands = history.recorder.store.all.toList :=
    (persistentHanded_replayed commands).symm.trans hHanded
  rw [hCurrent, hStored]

/-- The closed file is what the commands handed to its output make of it. -/
theorem Consistent.lastFile (hConsistent : history.Consistent)
    (hOn : history.recorder.on = true) :
    ∃ content, history.recorder.lastFile? = some content ∧
      Output.Writer.FileReads content.toList history.recorder.settings.compressed
        (Output.streamBytes history.recorder.settings.text
          (history.current.map (·.command))) := by
  obtain ⟨name, hName, hCarries⟩ := hConsistent.carries (hConsistent.isOpen hOn)
  obtain ⟨content, hFile, hReads⟩ := hCarries.close
  exact ⟨content, (Directory.find?_of_fileName? hName).trans hFile, hReads⟩

/-- A history with switches beside one of the same reports without them. -/
structure Mirrors (settings : Settings) (history other : History) : Prop where
  settled : history.Settled
  otherSettled : other.Settled
  agrees : history.recorder.Agrees other.recorder
  otherSettings : other.recorder.settings = settings

theorem Mirrors.suppressed {settings : Settings} (hMirrors : Mirrors settings history other) :
    history.recorder.settings.suppressRepeatedTags = settings.suppressRepeatedTags := by
  rw [hMirrors.agrees.suppressed, hMirrors.otherSettings]

theorem Mirrors.report {settings : Settings} (hMirrors : Mirrors settings history other)
    (hPersistent : call.isPersistent = true) :
    Mirrors settings (history.after call) (other.after call) ∧
      Recorder.answer (Recorder.perform call history.recorder)
        = Recorder.answer (Recorder.perform call other.recorder) := by
  obtain ⟨hSettled, hOtherSettled, hAgrees, hSettings⟩ := hMirrors
  obtain ⟨hAnswer, hAgreesAfter⟩ := hAgrees.after_persistent hSettled.recorder
    hOtherSettled.recorder hSettled.consistent.isOpen hOtherSettled.consistent.isOpen hPersistent
  have hSettingsAfter := hOtherSettled.recorder.settings_after_persistent
    hOtherSettled.consistent.isOpen hPersistent
  exact ⟨⟨hSettled.after (.inl hPersistent), hOtherSettled.after (.inl hPersistent), hAgreesAfter,
    hSettingsAfter.trans hSettings⟩, hAnswer⟩

theorem Mirrors.switch {settings : Settings} (hMirrors : Mirrors settings history other)
    (hSwitch : call.isSwitch settings.suppressRepeatedTags = true) :
    Mirrors settings (history.after call) other := by
  rw [← hMirrors.suppressed] at hSwitch
  obtain ⟨hSettled, hOtherSettled, hAgrees, hSettings⟩ := hMirrors
  obtain ⟨hSame, _⟩ := hSettled.recorder.agrees_switch hSettled.consistent.ready hSwitch
  exact ⟨hSettled.after (.inr hSwitch), hOtherSettled, hSame.trans hAgrees, hSettings⟩

theorem Mirrors.afterAll {settings : Settings} (hMirrors : Mirrors settings history other)
    {calls : List Call}
    (hCalls : ∀ call ∈ calls, call.isPersistent = true ∨
      call.isSwitch settings.suppressRepeatedTags = true) :
    Mirrors settings (history.afterAll calls)
        (other.afterAll (calls.filter Call.isPersistent)) ∧
      history.recorder.reportAnswers calls
        = other.recorder.answers (calls.filter Call.isPersistent) := by
  -- a report is taken by both sides, a switch by one of them
  induction calls generalizing history other with
  | nil => exact ⟨hMirrors, rfl⟩
  | cons call calls ih =>
      have hLater : ∀ later ∈ calls, later.isPersistent = true ∨
          later.isSwitch settings.suppressRepeatedTags = true :=
        fun later hLater => hCalls later (List.mem_cons_of_mem call hLater)
      cases hPersistent : call.isPersistent with
      | true =>
          obtain ⟨hAfter, hAnswer⟩ := hMirrors.report hPersistent
          obtain ⟨hEnd, hAnswers⟩ := ih hAfter hLater
          rw [List.filter_cons_of_pos hPersistent]
          refine ⟨hEnd, ?_⟩
          rw [Recorder.reportAnswers_of_persistent _ hPersistent, hAnswer]
          exact congrArg (_ :: ·) hAnswers
      | false =>
          have hSwitch : call.isSwitch settings.suppressRepeatedTags = true := by
            rcases hCalls call List.mem_cons_self with hReport | hSwitch
            · exact absurd hReport (by simp [hPersistent])
            · exact hSwitch
          obtain ⟨hEnd, hAnswers⟩ := ih (hMirrors.switch hSwitch) hLater
          rw [List.filter_cons_of_neg (by simp [hPersistent])]
          refine ⟨hEnd, ?_⟩
          rw [Recorder.reportAnswers_of_other _ hPersistent]
          exact hAnswers

end Runs

theorem mirrors_start (settings : Settings) (directory : Directory) :
    Mirrors settings (start settings directory) (start settings directory) :=
  ⟨settled_start settings directory, settled_start settings directory, .refl _, rfl⟩

/-- Recording later equals recording from the start. Two runs of the same
persistent calls, switched on and off at any points and both on at the end,
have answered these calls alike and have handed their last outputs the same
commands, so that uncompressed files hold the same bytes. -/
theorem switching_unseen {settings : Settings} {directory : Directory}
    {reports first second : List Call}
    (hFirst : SwitchesIn settings.suppressRepeatedTags reports first)
    (hSecond : SwitchesIn settings.suppressRepeatedTags reports second)
    (hFirstOn : ((start settings directory).afterAll first).recorder.on = true)
    (hSecondOn : ((start settings directory).afterAll second).recorder.on = true) :
    (Recorder.ofSettings settings directory).reportAnswers first
        = (Recorder.ofSettings settings directory).reportAnswers second ∧
      ((start settings directory).afterAll first).current
        = ((start settings directory).afterAll second).current ∧
      (settings.compressed = false → ∃ content,
        ((start settings directory).afterAll first).recorder.lastFile? = some content ∧
        ((start settings directory).afterAll second).recorder.lastFile? = some content) := by
  obtain ⟨hFirstEnd, hFirstAnswers⟩ := (mirrors_start settings directory).afterAll hFirst.2
  obtain ⟨hSecondEnd, hSecondAnswers⟩ := (mirrors_start settings directory).afterAll hSecond.2
  rw [hFirst.1] at hFirstEnd hFirstAnswers
  rw [hSecond.1] at hSecondEnd hSecondAnswers
  have hStored := hFirstEnd.agrees.stored.trans hSecondEnd.agrees.stored.symm
  have hCurrent : ((start settings directory).afterAll first).current
      = ((start settings directory).afterAll second).current := by
    rw [hFirstEnd.settled.current_eq hFirstOn, hSecondEnd.settled.current_eq hSecondOn, hStored]
  refine ⟨hFirstAnswers.trans hSecondAnswers.symm, hCurrent, ?_⟩
  intro hPlain
  obtain ⟨content, hFile, hReads⟩ := hFirstEnd.settled.consistent.lastFile hFirstOn
  obtain ⟨other, hOtherFile, hOtherReads⟩ := hSecondEnd.settled.consistent.lastFile hSecondOn
  rw [hFirstEnd.agrees.settings, hFirstEnd.otherSettings] at hReads
  rw [hSecondEnd.agrees.settings, hSecondEnd.otherSettings, ← hCurrent] at hOtherReads
  dsimp only at hReads hOtherReads
  rw [hPlain] at hReads hOtherReads
  have hSame : content = other :=
    Array.toList_inj.mp ((Output.Writer.fileReads_plain.mp hReads).trans
      (Output.Writer.fileReads_plain.mp hOtherReads).symm)
  exact ⟨content, hFile, hSame ▸ hOtherFile⟩

end Codec

/-- An item and an archive, recorded as they come and into a second file. -/
def reopened : List Call :=
  [.turnOn, .report (.newItem none) true, .turnOff, .attachArchive [7], .changeFile "late.ptr",
    .report (.startActivity 3) true, .turnOn]

/-- The same item and archive, recorded at the end. -/
def belated : List Call :=
  [.report (.newItem none) true, .attachArchive [7], .report (.startActivity 3) true, .turnOn]

theorem switching_unseen_reopened :
    ∃ content,
      ((start { suppressRepeatedTags := false } {}).afterAll reopened).recorder.lastFile?
        = some content ∧
      ((start { suppressRepeatedTags := false } {}).afterAll belated).recorder.lastFile?
        = some content := by
  have hReopened : SwitchesIn false (belated.take 3) reopened := ⟨rfl, by decide⟩
  have hBelated : SwitchesIn false (belated.take 3) belated := ⟨rfl, by decide⟩
  exact (@switching_unseen Lz4.storedBlocks { suppressRepeatedTags := false } {} _ _ _ hReopened
    hBelated rfl rfl).2.2 rfl

end History
end Recording
end CycleTrace
