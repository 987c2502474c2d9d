/-
What each call of a recorder does.

Writing to an open output cannot fail. So each call has one outcome for a
recorder that has an output open while it is on, and the recorder after it
differs from the recorder before it in the fields that are named here and in
no others. What the encoder becomes is told by the commands it is handed.
Nothing is decided by the counts, so they are left open wherever they do not
matter.
-/

import CycleTrace.Proofs.Recording.Reports
import CycleTrace.Recording.Recorder

namespace CycleTrace
namespace Recording

open Output (Directory Encoder openingVersion bind_of_ok bind_of_error stateAfter
  stateAfter_of_error)

namespace Tally

/-- The counts after items that came into being while off were announced. -/
def announced (tally : Tally) (items : Nat) : Tally :=
  { tally with
    encoded := tally.encoded + items
    replayedItems := tally.replayedItems + items }

/-- The counts after a replay. -/
def replayed (tally : Tally) (commands : Nat) : Tally :=
  { tally with
    encoded := tally.encoded + commands
    replays := tally.replays + 1 }

end Tally

namespace Recorder

variable [Lz4.Codec]

/-! ### Reports -/

theorem report_of_plan {recorder : Recorder} {event : Event} {persistent : Bool} {plan : Plan}
    (hOutput : recorder.HasOutput) (hPlan : recorder.planned event persistent = .ok plan) :
    perform (.report event persistent) recorder = carryOut plan recorder := by
  refine (report_enacts hOutput event persistent).trans ?_
  rw [hPlan]
  rfl

/-- A report that fails has done nothing. -/
theorem report_refused {recorder : Recorder} {event : Event} {persistent : Bool} {fault : Fault}
    (hOutput : recorder.HasOutput) (hPlan : recorder.planned event persistent = .error fault) :
    perform (.report event persistent) recorder = .error fault recorder := by
  refine (report_enacts hOutput event persistent).trans ?_
  rw [hPlan]
  rfl

theorem stateAfter_refused {recorder : Recorder} {event : Event} {persistent : Bool}
    {fault : Fault} (hOutput : recorder.HasOutput)
    (hPlan : recorder.planned event persistent = .error fault) :
    stateAfter (perform (.report event persistent) recorder) = recorder :=
  stateAfter_of_error (report_refused hOutput hPlan)

theorem report_on_counted {recorder : Recorder} {event : Event} {persistent : Bool} {plan : Plan}
    (hPlan : recorder.planned event persistent = .ok plan) (hOn : recorder.on = true)
    (hOpen : recorder.encoder.isOpen = true) :
    ∃ encoder, perform (.report event persistent) recorder = .ok plan.reply
      { recorder with
        machine := plan.machine
        encoder
        store := recorder.store.storeAll (persistentCommands plan.dispatches) false
        tally := recorder.tally.carriedOut true plan } ∧
      Encoder.encodeAll (plan.dispatches.map (·.command)) recorder.encoder = .ok () encoder := by
  obtain ⟨encoder, hAfter, hEncode, _⟩ :=
    afterDispatches_on plan.dispatches plan.machine hOn hOpen
  refine ⟨encoder, ?_, hEncode⟩
  have hOutput : recorder.HasOutput := fun _ => hOpen
  rw [report_of_plan hOutput hPlan, carryOut_eq hOutput plan, hAfter, hOn]

theorem report_on {recorder : Recorder} {event : Event} {persistent : Bool} {plan : Plan}
    (hPlan : recorder.planned event persistent = .ok plan) (hOn : recorder.on = true)
    (hOpen : recorder.encoder.isOpen = true) :
    ∃ encoder tally, perform (.report event persistent) recorder = .ok plan.reply
      { recorder with
        machine := plan.machine
        encoder
        store := recorder.store.storeAll (persistentCommands plan.dispatches) false
        tally } ∧
      Encoder.encodeAll (plan.dispatches.map (·.command)) recorder.encoder = .ok () encoder := by
  obtain ⟨encoder, hReport⟩ := report_on_counted hPlan hOn hOpen
  exact ⟨encoder, _, hReport⟩

theorem report_off_counted {recorder : Recorder} {event : Event} {persistent : Bool}
    {plan : Plan} (hPlan : recorder.planned event persistent = .ok plan)
    (hOff : recorder.on = false) :
    perform (.report event persistent) recorder = .ok plan.reply
      { recorder with
        machine := plan.machine
        store := recorder.store.storeAll (persistentCommands plan.dispatches) true
        live := plan.dispatches.foldl trackItem recorder.live
        tally := recorder.tally.carriedOut false plan } := by
  rw [report_of_plan (hasOutput_of_off hOff) hPlan, carryOut_eq (hasOutput_of_off hOff) plan,
    afterDispatches_off plan.dispatches plan.machine hOff, hOff]

theorem report_off {recorder : Recorder} {event : Event} {persistent : Bool} {plan : Plan}
    (hPlan : recorder.planned event persistent = .ok plan) (hOff : recorder.on = false) :
    ∃ tally, perform (.report event persistent) recorder = .ok plan.reply
      { recorder with
        machine := plan.machine
        store := recorder.store.storeAll (persistentCommands plan.dispatches) true
        live := plan.dispatches.foldl trackItem recorder.live
        tally } :=
  ⟨_, report_off_counted hPlan hOff⟩

/-! ### Turning on -/

theorem announceAll {recorder : Recorder} (hOpen : recorder.encoder.isOpen = true)
    (items : List ItemId) :
    ∃ encoder, items.forM announceItem recorder
      = .ok () { recorder with encoder, tally := recorder.tally.announced items.length } ∧
      Encoder.encodeAll (items.map .newItem) recorder.encoder = .ok () encoder := by
  induction items generalizing recorder with
  | nil => exact ⟨recorder.encoder, rfl, rfl⟩
  | cons item items ih =>
      obtain ⟨middle, hEncode, hMiddle⟩ := Encoder.encode_of_isOpen hOpen (.newItem item)
      have hWrite : write (.newItem item) recorder = .ok ()
          { recorder with
            encoder := middle
            tally := { recorder.tally with encoded := recorder.tally.encoded + 1 } } :=
        (bind_of_ok (withEncoder_of_ok hEncode)).trans rfl
      have hAnnounce : announceItem item recorder = .ok ()
          { recorder with encoder := middle, tally := recorder.tally.announced 1 } :=
        (bind_of_ok hWrite).trans rfl
      obtain ⟨encoder, hItems, hEncodeItems⟩ := @ih
        { recorder with encoder := middle, tally := recorder.tally.announced 1 } hMiddle
      have hTally : (recorder.tally.announced 1).announced items.length
          = recorder.tally.announced (item :: items).length := by
        unfold Tally.announced
        dsimp only
        rw [List.length_cons, Nat.add_comm items.length, Nat.add_assoc, Nat.add_assoc]
      rw [← hTally]
      exact ⟨encoder, (bind_of_ok hAnnounce).trans hItems,
        (bind_of_ok hEncode).trans hEncodeItems⟩

/-- What is left to do once the replay is written. -/
theorem turnOn_of_replay {recorder replayed : Recorder} {count : Nat}
    (hOff : recorder.on = false) (hReplay : replayStored recorder = .ok count replayed)
    (hOpen : replayed.encoder.isOpen = true) :
    ∃ encoder, perform .turnOn recorder = .ok .done
      { replayed with
        encoder, store := replayed.store.clearPartial, live := {}, on := true
        tally := (replayed.tally.replayed count).announced replayed.live.toList.length } ∧
      Encoder.encodeAll (replayed.live.toList.map .newItem) replayed.encoder = .ok () encoder := by
  obtain ⟨encoder, hItems, hEncode⟩ := @announceAll _
    { replayed with
      store := replayed.store.clearPartial, tally := replayed.tally.replayed count } hOpen
    replayed.live.toList
  refine ⟨encoder, ?_, hEncode⟩
  change turnOn recorder = _
  unfold turnOn
  have hGet : (get : Action Recorder) recorder = .ok recorder recorder := rfl
  refine (bind_of_ok hGet).trans ?_
  rw [hOff]
  refine (bind_of_ok hReplay).trans ?_
  exact (bind_of_ok hItems).trans rfl

theorem replay_of_encodeAll {commands : Array Command} {encoder after : Encoder}
    (hEncode : Encoder.encodeAll commands.toList encoder = .ok () after) :
    replay Encoder.encode commands encoder = .ok commands.size after :=
  (bind_of_ok hEncode).trans rfl

/-- With an open output, what was stored while off is written. -/
theorem turnOn_open_counted {recorder : Recorder} (hOff : recorder.on = false)
    (hOpen : recorder.encoder.isOpen = true) :
    ∃ encoder, perform .turnOn recorder = .ok .done
      { recorder with
        encoder, store := recorder.store.clearPartial, live := {}, on := true
        tally := (recorder.tally.replayed recorder.store.partialReplay.size).announced
          recorder.live.toList.length } ∧
      Encoder.encodeAll
        (recorder.store.partialReplay.toList ++ recorder.live.toList.map .newItem)
        recorder.encoder = .ok () encoder := by
  obtain ⟨middle, hEncode, hMiddle⟩ :=
    Encoder.encodeAll_of_isOpen hOpen recorder.store.partialReplay.toList
  have hReplay : replayStored recorder
      = .ok recorder.store.partialReplay.size { recorder with encoder := middle } := by
    have hGet : (get : Action Recorder) recorder = .ok recorder recorder := rfl
    refine (bind_of_ok hGet).trans ?_
    dsimp only
    rw [if_pos hOpen]
    exact withEncoder_of_ok (replay_of_encodeAll hEncode)
  obtain ⟨encoder, hTurnOn, hItems⟩ := turnOn_of_replay hOff hReplay hMiddle
  exact ⟨encoder, hTurnOn, Encoder.encodeAll_append hEncode hItems⟩

theorem turnOn_open {recorder : Recorder} (hOff : recorder.on = false)
    (hOpen : recorder.encoder.isOpen = true) :
    ∃ encoder tally, perform .turnOn recorder = .ok .done
      { recorder with
        encoder, store := recorder.store.clearPartial, live := {}, on := true, tally } ∧
      Encoder.encodeAll
        (recorder.store.partialReplay.toList ++ recorder.live.toList.map .newItem)
        recorder.encoder = .ok () encoder := by
  obtain ⟨encoder, hTurnOn⟩ := turnOn_open_counted hOff hOpen
  exact ⟨encoder, _, hTurnOn⟩

/-- Without an open output, one is begun and everything stored is written. -/
theorem turnOn_begin_counted {recorder : Recorder} {begun : Encoder} (hOff : recorder.on = false)
    (hClosed : recorder.encoder.isOpen = false)
    (hBegin : Encoder.beginFile recorder.settings.fileName recorder.settings.compressed
      recorder.encoder = .ok () begun) (hBegun : begun.isOpen = true) :
    ∃ encoder, perform .turnOn recorder = .ok .done
      { recorder with
        machine := { recorder.machine with occupancy := recorder.machine.occupancy.forgetOutput }
        encoder, store := recorder.store.clearPartial, live := {}, on := true
        tally := (recorder.tally.replayed recorder.store.all.size).announced
          recorder.live.toList.length } ∧
      Encoder.encodeAll (recorder.store.all.toList ++ recorder.live.toList.map .newItem) begun
        = .ok () encoder := by
  obtain ⟨middle, hEncode, hMiddle⟩ :=
    Encoder.encodeAll_of_isOpen hBegun recorder.store.all.toList
  let prepared : Recorder :=
    { recorder with
      machine := { recorder.machine with occupancy := recorder.machine.occupancy.forgetOutput }
      encoder := begun }
  have hReplay : replayStored recorder
      = .ok recorder.store.all.size { prepared with encoder := middle } := by
    have hGet : (get : Action Recorder) recorder = .ok recorder recorder := rfl
    have hForget : modifyMachine
        (fun machine => { machine with occupancy := machine.occupancy.forgetOutput })
        { recorder with encoder := begun } = .ok () prepared := rfl
    have hWrite : withEncoder (replay Encoder.encode recorder.store.all) prepared
        = .ok recorder.store.all.size { prepared with encoder := middle } :=
      withEncoder_of_ok (replay_of_encodeAll hEncode)
    refine (bind_of_ok hGet).trans ?_
    dsimp only
    rw [hClosed, if_neg Bool.false_ne_true]
    refine (bind_of_ok (withEncoder_of_ok hBegin)).trans ?_
    exact (bind_of_ok hForget).trans hWrite
  obtain ⟨encoder, hTurnOn, hItems⟩ := turnOn_of_replay hOff hReplay hMiddle
  exact ⟨encoder, hTurnOn, Encoder.encodeAll_append hEncode hItems⟩

theorem turnOn_begin {recorder : Recorder} {begun : Encoder} (hOff : recorder.on = false)
    (hClosed : recorder.encoder.isOpen = false)
    (hBegin : Encoder.beginFile recorder.settings.fileName recorder.settings.compressed
      recorder.encoder = .ok () begun) (hBegun : begun.isOpen = true) :
    ∃ encoder tally, perform .turnOn recorder = .ok .done
      { recorder with
        machine := { recorder.machine with occupancy := recorder.machine.occupancy.forgetOutput }
        encoder, store := recorder.store.clearPartial, live := {}, on := true, tally } ∧
      Encoder.encodeAll (recorder.store.all.toList ++ recorder.live.toList.map .newItem) begun
        = .ok () encoder := by
  obtain ⟨encoder, hTurnOn⟩ := turnOn_begin_counted hOff hClosed hBegin hBegun
  exact ⟨encoder, _, hTurnOn⟩

theorem turnOn_refused {recorder : Recorder} {after : Encoder} {fault : Fault}
    (hOff : recorder.on = false) (hClosed : recorder.encoder.isOpen = false)
    (hBegin : Encoder.beginFile recorder.settings.fileName recorder.settings.compressed
      recorder.encoder = .error fault after) :
    perform .turnOn recorder = .error fault { recorder with encoder := after } := by
  obtain ⟨settings, machine, encoder, store, live, on, tally⟩ := recorder
  cases hOff
  let recorder : Recorder := ⟨settings, machine, encoder, store, live, false, tally⟩
  have hGet : (get : Action Recorder) recorder = .ok recorder recorder := rfl
  have hReplay : replayStored recorder = .error fault { recorder with encoder := after } := by
    refine (bind_of_ok hGet).trans ?_
    dsimp only
    rw [hClosed, if_neg Bool.false_ne_true]
    exact bind_of_error (withEncoder_of_error hBegin)
  exact (bind_of_ok hGet).trans (bind_of_error hReplay)

theorem turnOn_of_none {recorder : Recorder} (hOff : recorder.on = false)
    (hClosed : recorder.encoder.isOpen = false)
    (hNone : Directory.fileName? recorder.settings.fileName = none) :
    perform .turnOn recorder
      = .error (.inputOutput "the file cannot be created") recorder := by
  have hBegin := Encoder.beginFile_of_none hNone recorder.settings.compressed recorder.encoder
  rw [Encoder.close_of_closed hClosed] at hBegin
  exact turnOn_refused hOff hClosed hBegin

theorem turnOn_ignored {recorder : Recorder} (hOn : recorder.on = true) :
    perform .turnOn recorder = .ok (.ignored .alreadyOn) recorder := by
  obtain ⟨settings, machine, encoder, store, live, on, tally⟩ := recorder
  cases hOn
  rfl

/-- What turning on finds: it is ignored, has an open output to go on with,
begins one, or is refused without a trace. -/
theorem turnOn_cases {recorder : Recorder}
    (hReady : recorder.encoder.Ready recorder.settings.text) :
    recorder.on = true ∨ (recorder.on = false ∧ recorder.encoder.isOpen = true) ∨
    (recorder.on = false ∧ recorder.encoder.isOpen = false ∧ ∃ name begun,
      Directory.fileName? recorder.settings.fileName = some name ∧
      Encoder.beginFile recorder.settings.fileName recorder.settings.compressed recorder.encoder
        = .ok () begun ∧
      begun.Carries recorder.settings.text name recorder.settings.compressed
        [openingVersion]) ∨
    (recorder.on = false ∧ recorder.encoder.isOpen = false ∧
      ∃ fault, perform .turnOn recorder = .error fault recorder) := by
  cases hOn : recorder.on with
  | true => exact .inl rfl
  | false =>
      cases hOpen : recorder.encoder.isOpen with
      | true => exact .inr (.inl ⟨rfl, rfl⟩)
      | false =>
          rcases Encoder.beginFile_cases hReady recorder.settings.fileName
            recorder.settings.compressed with ⟨name, begun, hName, hBegin, hBegun⟩ |
            ⟨fault, _, hNoFile⟩
          · exact .inr (.inr (.inl ⟨rfl, rfl, name, begun, hName, hBegin, hBegun⟩))
          · rw [Encoder.close_of_closed hOpen] at hNoFile
            exact .inr (.inr (.inr ⟨rfl, rfl, fault, turnOn_refused hOn hOpen hNoFile⟩))

/-! ### Other calls -/

theorem turnOff_ignored {recorder : Recorder} (hOff : recorder.on = false) :
    perform .turnOff recorder = .ok (.ignored .alreadyOff) recorder := by
  obtain ⟨settings, machine, encoder, store, live, on, tally⟩ := recorder
  cases hOff
  rfl

theorem turnOff_on {recorder : Recorder} (hOn : recorder.on = true) :
    perform .turnOff recorder
      = .ok .done { recorder with on := false, encoder := recorder.encoder.flush } := by
  obtain ⟨settings, machine, encoder, store, live, on, tally⟩ := recorder
  cases hOn
  rfl

theorem changeFile_ignored {recorder : Recorder} {name : String} (hOn : recorder.on = true) :
    perform (.changeFile name) recorder = .ok (.ignored .fileChangeWhileOn) recorder := by
  obtain ⟨settings, machine, encoder, store, live, on, tally⟩ := recorder
  cases hOn
  rfl

theorem changeFile_off {recorder : Recorder} {name : String} (hOff : recorder.on = false) :
    perform (.changeFile name) recorder = .ok .done
      { recorder with
        settings := { recorder.settings with fileName := name }
        machine := { recorder.machine with tagMemory := {} }
        encoder := recorder.encoder.close } := by
  obtain ⟨settings, machine, encoder, store, live, on, tally⟩ := recorder
  cases hOff
  rfl

theorem setTextForm_ignored {recorder : Recorder} {text : Bool} (hOn : recorder.on = true) :
    perform (.setTextForm text) recorder = .ok (.ignored .formChangeWhileOn) recorder := by
  obtain ⟨settings, machine, encoder, store, live, on, tally⟩ := recorder
  cases hOn
  rfl

theorem setTextForm_same {recorder : Recorder} {text : Bool} (hOff : recorder.on = false)
    (hSame : recorder.settings.text = text) :
    perform (.setTextForm text) recorder = .ok .done recorder := by
  obtain ⟨settings, machine, encoder, store, live, on, tally⟩ := recorder
  cases hOff
  have hGet : (get : Action Recorder) ⟨settings, machine, encoder, store, live, false, tally⟩
      = .ok ⟨settings, machine, encoder, store, live, false, tally⟩
        ⟨settings, machine, encoder, store, live, false, tally⟩ := rfl
  refine (bind_of_ok hGet).trans ((bind_of_ok hGet).trans ?_)
  dsimp only
  rw [if_pos hSame]
  rfl

theorem setTextForm_other {recorder : Recorder} {text : Bool} (hOff : recorder.on = false)
    (hOther : recorder.settings.text ≠ text) :
    perform (.setTextForm text) recorder = .ok .done
      { recorder with
        settings := { recorder.settings with text }
        machine := { recorder.machine with tagMemory := {} }
        encoder := .ofForm text recorder.settings.bufferBytes
          recorder.encoder.close.writer.directory } := by
  obtain ⟨settings, machine, encoder, store, live, on, tally⟩ := recorder
  cases hOff
  have hGet : (get : Action Recorder) ⟨settings, machine, encoder, store, live, false, tally⟩
      = .ok ⟨settings, machine, encoder, store, live, false, tally⟩
        ⟨settings, machine, encoder, store, live, false, tally⟩ := rfl
  refine (bind_of_ok hGet).trans ((bind_of_ok hGet).trans ?_)
  dsimp only
  rw [if_neg hOther]
  rfl

/-! ### Runs -/

/-- A recorder after calls in order, granted or refused. -/
def afterCalls (recorder : Recorder) (calls : List Call) : Recorder :=
  calls.foldl (fun recorder call => stateAfter (perform call recorder)) recorder

theorem afterCalls_cons (recorder : Recorder) (call : Call) (calls : List Call) :
    recorder.afterCalls (call :: calls)
      = (stateAfter (perform call recorder)).afterCalls calls :=
  rfl

/-- The answer of a call. -/
def answer : EStateM.Result Fault Recorder Reply → Except Fault Reply
  | .ok reply _ => .ok reply
  | .error fault _ => .error fault

/-- The answers of calls in order. -/
def answers (recorder : Recorder) : List Call → List (Except Fault Reply)
  | [] => []
  | call :: calls =>
      answer (perform call recorder) :: (stateAfter (perform call recorder)).answers calls

/-- The recorders that calls make of new ones. -/
def Reachable (recorder : Recorder) : Prop :=
  ∃ settings directory calls, recorder = (ofSettings settings directory).afterCalls calls

end Recorder
end Recording
end CycleTrace
