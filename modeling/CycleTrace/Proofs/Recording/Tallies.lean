/-
What the counts of a recorder count.

A call changes the counts in one of three ways. A report that is accepted counts
what it dispatches, each dispatch by itself. Turning on, where it is granted and
not ignored, counts a replay and the items that are announced behind it. Every
other call leaves the counts as they are. With these three the counts of a whole
run are sums over the run: over the dispatches, over the lists that were
replayed, and over the commands that outputs were handed, whichever outputs they
were.
-/

import CycleTrace.Proofs.Recording.Acceptance
import CycleTrace.Proofs.Recording.Steps

namespace CycleTrace

/-- Whether a command gives the version of the format. -/
def Command.isVersion : Command → Bool
  | .version .. => true
  | _ => false

namespace Recording

open Output (openingVersion stateAfter stateAfter_of_ok stateAfter_of_error)

/-! ### Counts of dispatches -/

namespace Tally

theorem dispatchedAll_eq (tally : Tally) (on : Bool) (sent : List Dispatch) :
    tally.dispatchedAll on sent =
      { tally with
        encoded := tally.encoded + if on then sent.length else 0
        stored := tally.stored + (persistentCommands sent).length
        dropped := tally.dropped + if on then 0 else (sent.filter (!·.persistent)).length
        synthesizedExits := tally.synthesizedExits + (sent.filter (·.synthesized)).length } := by
  unfold persistentCommands
  induction sent generalizing tally with
  | nil => cases on <;> rfl
  | cons first rest ih =>
      change (tally.dispatched on first).dispatchedAll on rest = _
      rw [ih]
      obtain ⟨command, persistent, synthesized⟩ := first
      cases on <;> cases persistent <;> cases synthesized <;>
        simp [dispatched, Nat.add_assoc, Nat.add_comm 1]

end Tally

/-! ### One call -/

namespace History

variable [Lz4.Codec]

/-- The list of commands that a call replays: one that turns recording on. -/
def replayed? (history : History) : Call → Option (List Command)
  | .turnOn =>
      if history.recorder.on then none
      else
        match Recorder.answer (Recorder.perform .turnOn history.recorder) with
        | .ok _ => some history.waiting
        | .error _ => none
  | _ => none

/-- What a call hands over: an output that could not be begun gets nothing. -/
def handedOver (history : History) (call : Call) : List Handed :=
  if (history.after call).recorder.encoder.isOpen then history.recorder.hands call else []

/-- The counts after a call, with what the call hands over. -/
inductive Accounted (history : History) : Call → Tally → List Handed → Prop
  | reported {event : Event} {persistent : Bool} {plan : Plan}
      (hPlan : history.recorder.planned event persistent = .ok plan) :
      Accounted history (.report event persistent)
        (history.recorder.tally.carriedOut history.recorder.on plan)
        (if history.recorder.on then plan.dispatches.map .direct else [])
  | turnedOn {opening : List Handed} (hOff : history.recorder.on = false)
      (hReplayed : history.replayed? .turnOn = some history.waiting)
      (hOpening : opening
        = if history.recorder.encoder.isOpen then [] else [⟨openingVersion, false⟩]) :
      Accounted history .turnOn
        ((history.recorder.tally.replayed history.waiting.length).announced
          history.recorder.live.toList.length)
        (opening ++ (history.waiting.map .replayed
          ++ history.recorder.live.toList.map .announced))
  | nothing {call : Call} (hNothing : history.recorder.dispatchesOf call = [])
      (hNone : history.replayed? call = none) :
      Accounted history call history.recorder.tally []

variable {history : History}

theorem replayed?_granted (hOff : history.recorder.on = false) {next : Recorder}
    (hTurnOn : Recorder.perform .turnOn history.recorder = .ok .done next) :
    history.replayed? .turnOn = some history.waiting := by
  unfold replayed?
  dsimp only
  rw [hOff, if_neg Bool.false_ne_true, hTurnOn]
  rfl

/-- A report that is accepted counts what it dispatches and what it leaves out,
and recording goes on or stays off. -/
theorem Consistent.counted_report (hConsistent : history.Consistent) {event : Event}
    {persistent : Bool} {plan : Plan}
    (hPlan : history.recorder.planned event persistent = .ok plan) :
    (history.after (.report event persistent)).recorder.tally
        = history.recorder.tally.carriedOut history.recorder.on plan ∧
      (history.after (.report event persistent)).recorder.on = history.recorder.on := by
  cases hOn : history.recorder.on with
  | true =>
      obtain ⟨encoder, hReport, _⟩ :=
        Recorder.report_on_counted hPlan hOn (hConsistent.isOpen hOn)
      have hNext : (history.after (.report event persistent)).recorder = _ :=
        stateAfter_of_ok hReport
      rw [hNext]
      exact ⟨rfl, hOn⟩
  | false =>
      have hNext : (history.after (.report event persistent)).recorder = _ :=
        stateAfter_of_ok (Recorder.report_off_counted hPlan hOn)
      rw [hNext]
      exact ⟨rfl, hOn⟩

theorem accounted_report (hConsistent : history.Consistent) (event : Event)
    (persistent : Bool) :
    history.Accounted (.report event persistent)
      (history.after (.report event persistent)).recorder.tally
      (history.handedOver (.report event persistent)) := by
  unfold handedOver
  rw [Recorder.hands_report]
  cases hPlan : history.recorder.planned event persistent with
  | error fault =>
      have hNothing := Recorder.dispatchesOf_report_refused hPlan
      change history.Accounted _ (stateAfter (Recorder.perform _ history.recorder)).tally _
      rw [hNothing, List.map_nil, ite_self, ite_self,
        Recorder.stateAfter_refused hConsistent.isOpen hPlan]
      exact .nothing hNothing rfl
  | ok plan =>
      obtain ⟨hTally, hStill⟩ := hConsistent.counted_report hPlan
      -- an output that is recorded to stays open
      have hHanded : (if (history.after (.report event persistent)).recorder.encoder.isOpen then
          if history.recorder.on then plan.dispatches.map .direct else [] else [])
          = if history.recorder.on then plan.dispatches.map Handed.direct else [] := by
        cases hOn : history.recorder.on with
        | true =>
            rw [(hConsistent.after _).isOpen (hStill.trans hOn), if_pos rfl]
        | false => exact ite_self []
      rw [Recorder.dispatchesOf_report hPlan, hHanded, hTally]
      exact .reported hPlan

theorem accounted_turnOn (hConsistent : history.Consistent) :
    history.Accounted .turnOn (history.after .turnOn).recorder.tally
      (history.handedOver .turnOn) := by
  unfold handedOver
  rcases Recorder.turnOn_cases hConsistent.ready with hOn | ⟨hOff, hOpen⟩ |
    ⟨hOff, hClosed, name, begun, hName, hBegin, hBegun⟩ | ⟨hOff, hClosed, fault, hNoFile⟩
  · have hNext : (history.after .turnOn).recorder = _ :=
      stateAfter_of_ok (Recorder.turnOn_ignored hOn)
    have hHands : history.recorder.hands .turnOn = [] := if_pos hOn
    rw [hHands, ite_self, hNext]
    exact .nothing rfl (if_pos hOn)
  · obtain ⟨name, _, hCarries⟩ := hConsistent.carries hOpen
    obtain ⟨encoder, hTurnOn, hEncode⟩ := Recorder.turnOn_open_counted hOff hOpen
    have hNext : (history.after .turnOn).recorder = _ := stateAfter_of_ok hTurnOn
    have hWaiting : history.waiting = history.recorder.store.partialReplay.toList := if_pos hOpen
    rw [hNext, if_pos (hCarries.of_encodeAll hEncode).isOpen,
      Recorder.hands_turnOn_open hOff hOpen, ← Array.length_toList, ← hWaiting]
    exact .turnedOn hOff (replayed?_granted hOff hTurnOn) (if_pos hOpen).symm
  · obtain ⟨encoder, hTurnOn, hEncode⟩ :=
      Recorder.turnOn_begin_counted hOff hClosed hBegin hBegun.isOpen
    have hNext : (history.after .turnOn).recorder = _ := stateAfter_of_ok hTurnOn
    have hWaiting : history.waiting = history.recorder.store.all.toList :=
      if_neg (Bool.eq_false_iff.mp hClosed)
    rw [hNext, if_pos (hBegun.of_encodeAll hEncode).isOpen,
      Recorder.hands_turnOn_closed hOff hClosed, ← Array.length_toList, ← hWaiting]
    exact .turnedOn hOff (replayed?_granted hOff hTurnOn)
      (if_neg (Bool.eq_false_iff.mp hClosed)).symm
  · have hNext : (history.after .turnOn).recorder = _ := stateAfter_of_error hNoFile
    rw [hNext, if_neg (Bool.eq_false_iff.mp hClosed)]
    refine .nothing rfl ?_
    unfold replayed?
    dsimp only
    rw [hOff, if_neg Bool.false_ne_true, hNoFile]
    rfl

/-- Only reports leave out tags. -/
theorem Accounted.suppressedTags {call : Call} {tally : Tally} {handed : List Handed}
    (hAccounted : history.Accounted call tally handed)
    (hOther : ∀ event persistent, call ≠ .report event persistent) :
    tally.suppressedTags = history.recorder.tally.suppressedTags := by
  cases hAccounted with
  | reported hPlan => exact absurd rfl (hOther _ _)
  | turnedOn => rfl
  | nothing => rfl

/-- Every call is accounted for. -/
theorem Consistent.accounted (hConsistent : history.Consistent) (call : Call) :
    history.Accounted call (history.after call).recorder.tally (history.handedOver call) := by
  have hQuiet (other : Call) {next : Recorder}
      (hNext : stateAfter (Recorder.perform other history.recorder) = next)
      (hTally : next.tally = history.recorder.tally)
      (hNothing : history.recorder.dispatchesOf other = [])
      (hHands : history.recorder.hands other = []) (hNone : history.replayed? other = none) :
      history.Accounted other (history.after other).recorder.tally
        (history.handedOver other) := by
    unfold handedOver
    change history.Accounted other (stateAfter (Recorder.perform other history.recorder)).tally _
    rw [hHands, ite_self, hNext, hTally]
    exact .nothing hNothing hNone
  have hSilent (other : Call) (hNothing : history.recorder.dispatchesOf other = []) :
      (if history.recorder.on then
        (history.recorder.dispatchesOf other).map Handed.direct else []) = [] := by
    rw [hNothing]
    exact ite_self []
  cases call with
  | report event persistent => exact accounted_report hConsistent event persistent
  | turnOn => exact accounted_turnOn hConsistent
  | turnOff =>
      cases hOn : history.recorder.on with
      | true =>
          exact hQuiet _ (stateAfter_of_ok (Recorder.turnOff_on hOn)) rfl rfl
            (hSilent .turnOff rfl) rfl
      | false =>
          exact hQuiet _ (stateAfter_of_ok (Recorder.turnOff_ignored hOn)) rfl rfl
            (hSilent .turnOff rfl) rfl
  | changeFile name =>
      cases hOn : history.recorder.on with
      | true =>
          exact hQuiet _ (stateAfter_of_ok (Recorder.changeFile_ignored hOn)) rfl rfl
            (hSilent (.changeFile name) rfl) rfl
      | false =>
          exact hQuiet _ (stateAfter_of_ok (Recorder.changeFile_off hOn)) rfl rfl
            (hSilent (.changeFile name) rfl) rfl
  | setTextForm text =>
      cases hOn : history.recorder.on with
      | true =>
          exact hQuiet _ (stateAfter_of_ok (Recorder.setTextForm_ignored hOn)) rfl rfl
            (hSilent (.setTextForm text) rfl) rfl
      | false =>
          by_cases hSame : history.recorder.settings.text = text
          · exact hQuiet _ (stateAfter_of_ok (Recorder.setTextForm_same hOn hSame)) rfl rfl
              (hSilent (.setTextForm text) rfl) rfl
          · exact hQuiet _ (stateAfter_of_ok (Recorder.setTextForm_other hOn hSame)) rfl rfl
              (hSilent (.setTextForm text) rfl) rfl
  | flush => exact hQuiet _ rfl rfl rfl (hSilent .flush rfl) rfl
  | close => exact hQuiet _ rfl rfl rfl (hSilent .close rfl) rfl
  | attachArchive data => exact hQuiet _ rfl rfl rfl (hSilent (.attachArchive data) rfl) rfl

end History
end Recording
end CycleTrace
