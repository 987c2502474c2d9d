/-
A refused call has no effect.

Two kinds of calls are refused: a report that the machine does not accept, and
turning on where no file can be created. The first is refused before anything
is dispatched. The second has an encoder without an open file, and closing
nothing changes nothing. No other call can fail, for an output that is open
takes every command.
-/

import CycleTrace.Lz4.StoredBlocks
import CycleTrace.Proofs.Recording.History

namespace CycleTrace
namespace Recording

open Output (stateAfter stateAfter_of_ok stateAfter_of_error)

section Codec

variable [Lz4.Codec]

theorem History.Consistent.refused_report {history : History}
    (hConsistent : history.Consistent) {event : Event} {persistent : Bool} {fault : Fault}
    {after : Recorder}
    (hRefused : Recorder.perform (.report event persistent) history.recorder
      = .error fault after) :
    history.recorder.planned event persistent = .error fault ∧ after = history.recorder := by
  cases hPlan : history.recorder.planned event persistent with
  | error reason =>
      rw [Recorder.report_refused hConsistent.isOpen hPlan] at hRefused
      cases hRefused
      exact ⟨rfl, rfl⟩
  | ok plan =>
      cases hOn : history.recorder.on with
      | true =>
          obtain ⟨encoder, tally, hReport, _⟩ :=
            Recorder.report_on hPlan hOn (hConsistent.isOpen hOn)
          rw [hReport] at hRefused
          cases hRefused
      | false =>
          obtain ⟨tally, hReport⟩ := Recorder.report_off hPlan hOn
          rw [hReport] at hRefused
          cases hRefused

theorem History.Consistent.refused_turnOn {history : History}
    (hConsistent : history.Consistent) {fault : Fault} {after : Recorder}
    (hRefused : Recorder.perform .turnOn history.recorder = .error fault after) :
    fault = .inputOutput "the file cannot be created" ∧ after = history.recorder := by
  rcases Recorder.turnOn_cases hConsistent.ready with hOn | ⟨hOff, hOpen⟩ |
    ⟨hOff, hClosed, name, begun, _, hBegin, hBegun⟩ | ⟨hOff, hClosed, reason, hNoFile⟩
  · rw [Recorder.turnOn_ignored hOn] at hRefused
    cases hRefused
  · obtain ⟨encoder, tally, hTurnOn, _⟩ := Recorder.turnOn_open hOff hOpen
    rw [hTurnOn] at hRefused
    cases hRefused
  · obtain ⟨encoder, tally, hTurnOn, _⟩ :=
      Recorder.turnOn_begin hOff hClosed hBegin hBegun.isOpen
    rw [hTurnOn] at hRefused
    cases hRefused
  · rw [hNoFile] at hRefused
    cases hRefused
    refine ⟨?_, rfl⟩
    cases hName : Output.Directory.fileName? history.recorder.settings.fileName with
    | none =>
        have hReason := Recorder.turnOn_of_none hOff hClosed hName
        exact (EStateM.Result.error.inj (hNoFile.symm.trans hReason)).1
    | some name =>
        obtain ⟨begun, hBegin, hBegun⟩ := hConsistent.ready.beginFile hName _
        obtain ⟨encoder, tally, hTurnOn, _⟩ :=
          Recorder.turnOn_begin hOff hClosed hBegin hBegun.isOpen
        rw [hNoFile] at hTurnOn
        cases hTurnOn

/-- Only reports and turning on can be refused. -/
theorem Recorder.refused_cases {recorder after : Recorder} {call : Call} {fault : Fault}
    (hRefused : Recorder.perform call recorder = .error fault after) :
    (∃ event persistent, call = .report event persistent) ∨ call = .turnOn := by
  cases call with
  | report event persistent => exact .inl ⟨event, persistent, rfl⟩
  | turnOn => exact .inr rfl
  | turnOff =>
      cases hOn : recorder.on with
      | true =>
          rw [Recorder.turnOff_on hOn] at hRefused
          cases hRefused
      | false =>
          rw [Recorder.turnOff_ignored hOn] at hRefused
          cases hRefused
  | flush => cases hRefused
  | close => cases hRefused
  | changeFile name =>
      cases hOn : recorder.on with
      | true =>
          rw [Recorder.changeFile_ignored hOn] at hRefused
          cases hRefused
      | false =>
          rw [Recorder.changeFile_off hOn] at hRefused
          cases hRefused
  | setTextForm text =>
      cases hOn : recorder.on with
      | true =>
          rw [Recorder.setTextForm_ignored hOn] at hRefused
          cases hRefused
      | false =>
          by_cases hSame : recorder.settings.text = text
          · rw [Recorder.setTextForm_same hOn hSame] at hRefused
            cases hRefused
          · rw [Recorder.setTextForm_other hOn hSame] at hRefused
            cases hRefused
  | attachArchive data => cases hRefused

theorem History.Consistent.refused {history : History} (hConsistent : history.Consistent)
    {call : Call} {fault : Fault} {after : Recorder}
    (hRefused : Recorder.perform call history.recorder = .error fault after) :
    after = history.recorder := by
  rcases Recorder.refused_cases hRefused with ⟨event, persistent, rfl⟩ | rfl
  · exact (hConsistent.refused_report hRefused).2
  · exact (hConsistent.refused_turnOn hRefused).2

end Codec

namespace Recorder

section Codec

variable [Lz4.Codec]

theorem Reachable.exists_history {recorder : Recorder} (hReachable : recorder.Reachable) :
    ∃ history : History, history.Consistent ∧ history.recorder = recorder := by
  obtain ⟨settings, directory, calls, rfl⟩ := hReachable
  exact ⟨_, (History.consistent_start settings directory).afterAll calls,
    History.recorder_afterAll (History.start settings directory) calls⟩

theorem Reachable.refused {recorder : Recorder} (hReachable : recorder.Reachable) {call : Call}
    {fault : Fault} {after : Recorder}
    (hRefused : perform call recorder = .error fault after) : after = recorder := by
  obtain ⟨history, hConsistent, rfl⟩ := hReachable.exists_history
  exact hConsistent.refused hRefused

theorem Reachable.after {recorder : Recorder} (hReachable : recorder.Reachable) (call : Call) :
    (stateAfter (perform call recorder)).Reachable := by
  obtain ⟨settings, directory, calls, rfl⟩ := hReachable
  refine ⟨settings, directory, calls ++ [call], ?_⟩
  unfold afterCalls
  rw [List.foldl_append]
  rfl

/-! ### Runs -/

/-- Whether a call was not refused. -/
def isGranted : Except Fault Reply → Bool
  | .ok _ => true
  | .error _ => false

/-- The calls of a run that are not refused. -/
def granted (recorder : Recorder) : List Call → List Call
  | [] => []
  | call :: calls =>
      let later := (stateAfter (perform call recorder)).granted calls
      if isGranted (answer (perform call recorder)) then call :: later else later

theorem granted_of_ok {recorder after : Recorder} {call : Call} {reply : Reply}
    (hResult : perform call recorder = .ok reply after) (calls : List Call) :
    recorder.granted (call :: calls) = call :: after.granted calls := by
  simp only [granted, hResult, answer, isGranted, stateAfter, if_true]

theorem granted_of_error {recorder after : Recorder} {call : Call} {fault : Fault}
    (hResult : perform call recorder = .error fault after) (calls : List Call) :
    recorder.granted (call :: calls) = after.granted calls := by
  simp only [granted, hResult, answer, isGranted, stateAfter, Bool.false_eq_true, if_false]

theorem answers_of_ok {recorder after : Recorder} {call : Call} {reply : Reply}
    (hResult : perform call recorder = .ok reply after) (calls : List Call) :
    recorder.answers (call :: calls) = .ok reply :: after.answers calls := by
  simp only [answers, hResult, answer, stateAfter]

theorem answers_of_error {recorder after : Recorder} {call : Call} {fault : Fault}
    (hResult : perform call recorder = .error fault after) (calls : List Call) :
    recorder.answers (call :: calls) = .error fault :: after.answers calls := by
  simp only [answers, hResult, answer, stateAfter]

/-- A refused call leaves the recorder as it was, so a run goes on as if the
call had not been made: without its refused calls it ends in the same recorder
and has the same other answers. -/
theorem refused_changes_nothing {recorder : Recorder} (hReachable : recorder.Reachable) :
    (∀ call fault after, perform call recorder = .error fault after → after = recorder) ∧
    ∀ calls, recorder.afterCalls (recorder.granted calls) = recorder.afterCalls calls ∧
      recorder.answers (recorder.granted calls) = (recorder.answers calls).filter isGranted := by
  constructor
  · intro call fault after hRefused
    exact hReachable.refused hRefused
  · intro calls
    induction calls generalizing recorder with
    | nil => exact ⟨rfl, rfl⟩
    | cons call calls ih =>
        obtain ⟨hState, hAnswers⟩ := ih (hReachable.after call)
        cases hResult : perform call recorder with
        | ok reply after =>
            rw [stateAfter_of_ok hResult] at hState hAnswers
            rw [granted_of_ok hResult, answers_of_ok hResult calls]
            rw [afterCalls_cons, afterCalls_cons, stateAfter_of_ok hResult,
              answers_of_ok hResult, hAnswers]
            exact ⟨hState, rfl⟩
        | error fault after =>
            rw [stateAfter_of_error hResult] at hState hAnswers
            obtain rfl := hReachable.refused hResult
            rw [granted_of_error hResult, answers_of_error hResult calls, afterCalls_cons,
              stateAfter_of_error hResult]
            exact ⟨hState, hAnswers⟩

end Codec

/-- Turning on where no file can be created, with a report before it. -/
theorem refused_changes_nothing_no_file :
    ∃ fault after, perform .turnOn
      ((ofSettings { fileName := "" } {}).afterCalls [.report (.cycle 1) true])
        = .error fault after ∧
      after = (ofSettings { fileName := "" } {}).afterCalls [.report (.cycle 1) true] :=
  ⟨_, _, rfl, (refused_changes_nothing ⟨_, _, _, rfl⟩).1 .turnOn _ _ rfl⟩

end Recorder
end Recording
end CycleTrace
