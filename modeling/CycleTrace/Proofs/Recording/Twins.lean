/-
Recorders that differ in how they write.

Two recorders are twins when they agree in everything but the form, the buffer,
the compression and the files of their output. Which of the two is which cannot
be told from outside: every call is answered alike by both and leaves them
twins, except a change of form. The reason is that a computation of a recorder
learns of its output no more than whether one is open.

`RunsAlike` states this for the parts of a call, from which the calls follow.
A part that writes needs an open output; writing to a closed one could be
noticed by the binary form at another command than by the text form.
-/

import CycleTrace.Proofs.Recording.Calls

namespace CycleTrace
namespace Recording

open Output (Directory Encoder Encoding bind_of_ok stateAfter)

/-- The settings that do not concern the output: the file name, the suppression
of repeated tags and the count of traffic. -/
def Settings.common (settings : Settings) : String × Bool × Bool :=
  (settings.fileName, settings.suppressRepeatedTags, settings.trackTraffic)

namespace Recorder

variable [Lz4.Codec]

/-- Two recorders that differ at most in how and where they write. -/
structure Twins (on isOpen : Bool) (first second : Recorder) : Prop where
  ons : first.on = on ∧ second.on = on
  opens : first.encoder.isOpen = isOpen ∧ second.encoder.isOpen = isOpen
  settings : first.settings.common = second.settings.common
  machine : first.machine = second.machine
  store : first.store = second.store
  live : first.live = second.live
  tally : first.tally = second.tally

/-- From recorders that are related before, a computation succeeds with the same
value on both and leaves them related. -/
def RunsAlike (before : Recorder → Recorder → Prop) (action : Action α)
    (after : Recorder → Recorder → Prop) : Prop :=
  ∀ ⦃first second : Recorder⦄, before first second →
    ∃ value firstAfter secondAfter, action first = .ok value firstAfter ∧
      action second = .ok value secondAfter ∧ after firstAfter secondAfter

variable {before middle after : Recorder → Recorder → Prop} {on isOpen : Bool}

/-! ### Computations in general -/

theorem RunsAlike.pure (value : α) : RunsAlike before (pure value) before :=
  fun first second hBefore => ⟨value, first, second, rfl, rfl, hBefore⟩

theorem RunsAlike.bind {action : Action α} {next : α → Action β}
    (hAction : RunsAlike before action middle)
    (hNext : ∀ value, RunsAlike middle (next value) after) :
    RunsAlike before (action >>= next) after := by
  intro first second hBefore
  obtain ⟨value, firstMiddle, secondMiddle, hFirst, hSecond, hMiddle⟩ := hAction hBefore
  obtain ⟨result, firstAfter, secondAfter, hFirstNext, hSecondNext, hAfter⟩ :=
    hNext value hMiddle
  exact ⟨result, firstAfter, secondAfter, (bind_of_ok hFirst).trans hFirstNext,
    (bind_of_ok hSecond).trans hSecondNext, hAfter⟩

theorem RunsAlike.modify {change : Recorder → Recorder}
    (hChange : ∀ ⦃first second⦄, before first second → after (change first) (change second)) :
    RunsAlike before (modify change) after :=
  fun _ _ hBefore => ⟨(), _, _, rfl, rfl, hChange hBefore⟩

/-- What a computation reads of the recorder must make it go on in the same way. -/
theorem RunsAlike.get_bind {next : Recorder → Action α}
    (hNext : ∀ ⦃first second⦄, before first second →
      next first = next second ∧ RunsAlike before (next second) after) :
    RunsAlike before (get >>= next) after := by
  intro first second hBefore
  obtain ⟨hSame, hAlike⟩ := hNext hBefore
  obtain ⟨value, firstAfter, secondAfter, hFirst, hSecond, hAfter⟩ := hAlike hBefore
  exact ⟨value, firstAfter, secondAfter, (congrFun hSame first).trans hFirst, hSecond, hAfter⟩

theorem RunsAlike.ite {condition : Prop} [Decidable condition] {action other : Action α}
    (hAction : condition → RunsAlike before action after)
    (hOther : ¬ condition → RunsAlike before other after) :
    RunsAlike before (if condition then action else other) after := by
  by_cases hCondition : condition
  · rw [if_pos hCondition]
    exact hAction hCondition
  · rw [if_neg hCondition]
    exact hOther hCondition

theorem RunsAlike.forM {act : α → Action Unit} (hAct : ∀ value, RunsAlike before (act value) before)
    (values : List α) : RunsAlike before (values.forM act) before := by
  induction values with
  | nil => exact .pure ()
  | cons value values ih => exact (hAct value).bind fun _ => ih

/-! ### Parts of a call -/

theorem runsAlike_withEncoder {action : Encoding α} (value : α)
    (hAction : ∀ encoder : Encoder, encoder.isOpen = isOpen →
      ∃ written : Encoder, action encoder = .ok value written ∧ written.isOpen = isOpen) :
    RunsAlike (Twins on isOpen) (withEncoder action) (Twins on isOpen) := by
  intro first second hTwins
  obtain ⟨firstWritten, hFirst, hFirstOpen⟩ := hAction first.encoder hTwins.opens.1
  obtain ⟨secondWritten, hSecond, hSecondOpen⟩ := hAction second.encoder hTwins.opens.2
  exact ⟨value, _, _, withEncoder_of_ok hFirst, withEncoder_of_ok hSecond,
    { hTwins with opens := ⟨hFirstOpen, hSecondOpen⟩ }⟩

theorem runsAlike_count (change : Tally → Tally) :
    RunsAlike (Twins on isOpen) (count change) (Twins on isOpen) :=
  .modify fun _ _ hTwins => { hTwins with tally := congrArg change hTwins.tally }

theorem runsAlike_modifyMachine (change : Machine → Machine) :
    RunsAlike (Twins on isOpen) (modifyMachine change) (Twins on isOpen) :=
  .modify fun _ _ hTwins => { hTwins with machine := congrArg change hTwins.machine }

theorem runsAlike_write (command : Command) :
    RunsAlike (Twins on true) (write command) (Twins on true) :=
  (runsAlike_withEncoder () fun _ hOpen => Encoder.encode_of_isOpen hOpen command).bind fun _ =>
    runsAlike_count _

theorem runsAlike_keep (command : Command) (whileOff : Bool) :
    RunsAlike (Twins on isOpen) (keep command whileOff) (Twins on isOpen) := by
  refine .bind (.modify fun first second hTwins => ?_) fun _ => runsAlike_count _
  exact { hTwins with store := congrArg (·.store command whileOff) hTwins.store }

theorem runsAlike_dispatchOn (sent : Dispatch) :
    RunsAlike (Twins on true) (dispatchOn sent) (Twins on true) :=
  (runsAlike_write sent.command).bind fun _ =>
    .ite (fun _ => runsAlike_keep sent.command false) fun _ => .pure ()

theorem runsAlike_dispatchOff (sent : Dispatch) :
    RunsAlike (Twins on isOpen) (dispatchOff sent) (Twins on isOpen) := by
  have hTracked : RunsAlike (Twins on isOpen)
      (modify fun recorder => { recorder with live := trackItem recorder.live sent })
      (Twins on isOpen) :=
    .modify fun _ _ hTwins =>
      { hTwins with live := congrArg (trackItem · sent) hTwins.live }
  exact hTracked.bind fun _ =>
    .ite (fun _ => runsAlike_keep sent.command true) fun _ => runsAlike_count _

theorem runsAlike_route (hOpen : on = true → isOpen = true) (sent : Dispatch) :
    RunsAlike (Twins on isOpen) (route sent) (Twins on isOpen) := by
  have hSent : RunsAlike (Twins on isOpen)
      (if on then do dispatchOn sent; return true
        else do dispatchOff sent; return sent.persistent)
      (Twins on isOpen) := by
    refine .ite (fun hOn => ?_) fun _ => (runsAlike_dispatchOff sent).bind fun _ => .pure _
    -- only a recorder that is on writes, and it has an output then
    cases hOpen hOn
    exact (runsAlike_dispatchOn sent).bind fun _ => .pure true
  refine .get_bind fun first second hTwins => ?_
  rw [hTwins.ons.1, hTwins.ons.2]
  exact ⟨rfl, hSent⟩

theorem runsAlike_dispatch (hOpen : on = true → isOpen = true) (sent : Dispatch) :
    RunsAlike (Twins on isOpen) (dispatch sent) (Twins on isOpen) :=
  (runsAlike_route hOpen sent).bind fun _ =>
    .ite (fun _ => runsAlike_count _) fun _ => .pure ()

theorem runsAlike_carryOut (hOpen : on = true → isOpen = true) (plan : Plan) :
    RunsAlike (Twins on isOpen) (carryOut plan) (Twins on isOpen) :=
  (RunsAlike.forM (runsAlike_dispatch hOpen) plan.dispatches).bind fun _ =>
    (runsAlike_modifyMachine _).bind fun _ => (runsAlike_count _).bind fun _ => .pure plan.reply

/-! ### Turning on -/

theorem runsAlike_replay {commands : Array Command} :
    RunsAlike (Twins on true) (withEncoder (replay Encoder.encode commands)) (Twins on true) := by
  refine runsAlike_withEncoder commands.size fun encoder hOpen => ?_
  obtain ⟨written, hEncode, hWritten⟩ := Encoder.encodeAll_of_isOpen hOpen commands.toList
  exact ⟨written, replay_of_encodeAll hEncode, hWritten⟩

theorem runsAlike_announceItem (id : ItemId) :
    RunsAlike (Twins on true) (announceItem id) (Twins on true) :=
  (runsAlike_write _).bind fun _ => runsAlike_count _

/-- What turning on does once the replay is written. -/
def announceLive (replayed : Nat) : Action Reply := do
  count fun tally =>
    { tally with encoded := tally.encoded + replayed, replays := tally.replays + 1 }
  modify fun recorder => { recorder with store := recorder.store.clearPartial }
  (← get).live.toList.forM announceItem
  modify fun recorder => { recorder with live := {}, on := true }
  return .done

theorem turnOn_of_off {recorder : Recorder} (hOff : recorder.on = false) :
    perform .turnOn recorder = (replayStored >>= announceLive) recorder := by
  have hGet : (get : Action Recorder) recorder = .ok recorder recorder := rfl
  refine (bind_of_ok hGet).trans ?_
  rw [hOff]
  rfl

theorem runsAlike_announceLive (replayed : Nat) :
    RunsAlike (Twins on true) (announceLive replayed) (Twins true true) := by
  have hCleared : RunsAlike (Twins on true)
      (modify fun recorder => { recorder with store := recorder.store.clearPartial })
      (Twins on true) :=
    .modify fun _ _ hTwins =>
      { hTwins with store := congrArg ReplayStore.clearPartial hTwins.store }
  have hStarted : RunsAlike (Twins on true)
      (modify fun recorder => { recorder with live := {}, on := true }) (Twins true true) :=
    .modify fun _ _ hTwins => { hTwins with ons := ⟨rfl, rfl⟩, live := rfl }
  refine (runsAlike_count _).bind fun _ => hCleared.bind fun _ => .get_bind ?_
  intro first second hTwins
  rw [hTwins.live]
  exact ⟨rfl, (RunsAlike.forM runsAlike_announceItem _).bind fun _ =>
    hStarted.bind fun _ => .pure Reply.done⟩

theorem runsAlike_replayStored : RunsAlike (Twins on true) replayStored (Twins on true) := by
  refine .get_bind fun first second hTwins => ?_
  dsimp only
  rw [hTwins.opens.1, hTwins.opens.2, hTwins.store]
  exact ⟨rfl, runsAlike_replay⟩

/-- What is left of the replay once an output is begun. -/
def replayAll (store : ReplayStore) : Action Nat := do
  modifyMachine fun machine => { machine with occupancy := machine.occupancy.forgetOutput }
  withEncoder (replay Encoder.encode store.all)

theorem replayStored_of_begun {recorder : Recorder} {begun : Encoder}
    (hClosed : recorder.encoder.isOpen = false)
    (hBegin : Encoder.beginFile recorder.settings.fileName recorder.settings.compressed
      recorder.encoder = .ok () begun) :
    replayStored recorder = replayAll recorder.store { recorder with encoder := begun } := by
  have hGet : (get : Action Recorder) recorder = .ok recorder recorder := rfl
  refine (bind_of_ok hGet).trans ?_
  dsimp only
  rw [hClosed, if_neg Bool.false_ne_true]
  exact (bind_of_ok (withEncoder_of_ok hBegin)).trans rfl

/-- Once an output is begun, the rest depends on the store alone. -/
theorem turnOn_of_begun {recorder : Recorder} {store : ReplayStore} {begun : Encoder}
    (hStore : recorder.store = store) (hOff : recorder.on = false)
    (hClosed : recorder.encoder.isOpen = false)
    (hBegin : Encoder.beginFile recorder.settings.fileName recorder.settings.compressed
      recorder.encoder = .ok () begun) :
    perform .turnOn recorder
      = (replayAll store >>= announceLive) { recorder with encoder := begun } := by
  subst hStore
  rw [turnOn_of_off hOff]
  change EStateM.bind _ _ _ = EStateM.bind _ _ _
  unfold EStateM.bind
  rw [replayStored_of_begun hClosed hBegin]

theorem runsAlike_replayAll (store : ReplayStore) :
    RunsAlike (Twins on true) (replayAll store) (Twins on true) :=
  (runsAlike_modifyMachine _).bind fun _ => runsAlike_replay

/-! ### Calls -/

/-- The same answer was given, and the recorders after it are twins. -/
def AnswerAlike (first second : EStateM.Result Fault Recorder Reply) : Prop :=
  answer first = answer second ∧
    ∃ on isOpen, Twins on isOpen (stateAfter first) (stateAfter second)

section Calls

variable {first second : Recorder}

theorem RunsAlike.answerAlike {action : Action Reply}
    (hAction : RunsAlike before action (Twins on isOpen)) (hBefore : before first second) :
    AnswerAlike (action first) (action second) := by
  obtain ⟨reply, firstAfter, secondAfter, hFirst, hSecond, hAfter⟩ := hAction hBefore
  rw [hFirst, hSecond]
  exact ⟨rfl, on, isOpen, hAfter⟩

/-- The same answer was given without a change. -/
theorem Twins.answerAlike_of_same (hTwins : Twins on isOpen first second)
    {firstResult secondResult : EStateM.Result Fault Recorder Reply}
    (hAnswer : answer firstResult = answer secondResult)
    (hFirst : stateAfter firstResult = first) (hSecond : stateAfter secondResult = second) :
    AnswerAlike firstResult secondResult :=
  ⟨hAnswer, on, isOpen, hFirst.symm ▸ hSecond.symm ▸ hTwins⟩

theorem Twins.fileName (hTwins : Twins on isOpen first second) :
    first.settings.fileName = second.settings.fileName :=
  congrArg (·.1) hTwins.settings

theorem Twins.planned (hTwins : Twins on isOpen first second) (event : Event)
    (persistent : Bool) : first.planned event persistent = second.planned event persistent := by
  have hSuppress : first.settings.suppressRepeatedTags = second.settings.suppressRepeatedTags :=
    congrArg (·.2.1) hTwins.settings
  have hCircumstances : first.circumstances persistent = second.circumstances persistent := by
    unfold circumstances
    rw [hTwins.ons.1, hTwins.ons.2, hSuppress]
  unfold Recorder.planned
  rw [hTwins.machine, hCircumstances]

theorem Twins.hasOutput (hTwins : Twins on isOpen first second)
    (hOpen : on = true → isOpen = true) : first.HasOutput ∧ second.HasOutput := by
  constructor
  · intro hOn
    exact hTwins.opens.1.trans (hOpen (hTwins.ons.1.symm.trans hOn))
  · intro hOn
    exact hTwins.opens.2.trans (hOpen (hTwins.ons.2.symm.trans hOn))

theorem Twins.report (hTwins : Twins on isOpen first second) (hOpen : on = true → isOpen = true)
    (event : Event) (persistent : Bool) :
    AnswerAlike (perform (.report event persistent) first)
      (perform (.report event persistent) second) := by
  have hSame := hTwins.planned event persistent
  have hOutput := hTwins.hasOutput hOpen
  cases hPlan : second.planned event persistent with
  | error fault =>
      rw [hPlan] at hSame
      rw [report_refused hOutput.2 hPlan, report_refused hOutput.1 hSame]
      exact hTwins.answerAlike_of_same rfl rfl rfl
  | ok plan =>
      rw [hPlan] at hSame
      rw [report_of_plan hOutput.2 hPlan, report_of_plan hOutput.1 hSame]
      exact (runsAlike_carryOut hOpen plan).answerAlike hTwins

theorem Twins.turnOn_closed (hTwins : Twins false false first second)
    (hFirst : first.encoder.Ready first.settings.text)
    (hSecond : second.encoder.Ready second.settings.text) :
    AnswerAlike (perform .turnOn first) (perform .turnOn second) := by
  cases hName : Directory.fileName? second.settings.fileName with
  | none =>
      rw [turnOn_of_none hTwins.ons.1 hTwins.opens.1 (hTwins.fileName ▸ hName),
        turnOn_of_none hTwins.ons.2 hTwins.opens.2 hName]
      exact hTwins.answerAlike_of_same rfl rfl rfl
  | some name =>
      -- the settings for compression may differ, so up to here the two runs are not of the
      -- same computation
      have hFirstName := hTwins.fileName ▸ hName
      obtain ⟨firstBegun, hFirstBegin, hFirstBegun⟩ :=
        hFirst.beginFile hFirstName first.settings.compressed
      obtain ⟨secondBegun, hSecondBegin, hSecondBegun⟩ :=
        hSecond.beginFile hName second.settings.compressed
      have hBegun : Twins false true { first with encoder := firstBegun }
          { second with encoder := secondBegun } :=
        { hTwins with opens := ⟨hFirstBegun.isOpen, hSecondBegun.isOpen⟩ }
      rw [turnOn_of_begun hTwins.store hTwins.ons.1 hTwins.opens.1 hFirstBegin,
        turnOn_of_begun rfl hTwins.ons.2 hTwins.opens.2 hSecondBegin]
      exact ((runsAlike_replayAll second.store).bind runsAlike_announceLive).answerAlike hBegun

/-- Turning on is answered alike, whether the output is open, can be begun or
cannot. -/
theorem Twins.turnOn (hTwins : Twins on isOpen first second)
    (hFirst : first.encoder.Ready first.settings.text)
    (hSecond : second.encoder.Ready second.settings.text) :
    AnswerAlike (perform .turnOn first) (perform .turnOn second) := by
  cases on with
  | true =>
      rw [turnOn_ignored hTwins.ons.1, turnOn_ignored hTwins.ons.2]
      exact hTwins.answerAlike_of_same rfl rfl rfl
  | false =>
      cases isOpen with
      | true =>
          rw [turnOn_of_off hTwins.ons.1, turnOn_of_off hTwins.ons.2]
          exact (runsAlike_replayStored.bind runsAlike_announceLive).answerAlike hTwins
      | false => exact hTwins.turnOn_closed hFirst hSecond

/-- A call that keeps the form of the output is answered alike. -/
theorem Twins.perform (hTwins : Twins on isOpen first second)
    (hFirst : first.encoder.Ready first.settings.text)
    (hSecond : second.encoder.Ready second.settings.text) (hOpen : on = true → isOpen = true)
    {call : Call} (hForm : ∀ text, call ≠ .setTextForm text) :
    AnswerAlike (Recorder.perform call first) (Recorder.perform call second) := by
  have hCloses : first.encoder.close.isOpen = false ∧ second.encoder.close.isOpen = false :=
    ⟨hFirst.close.2, hSecond.close.2⟩
  have hFlushes : first.encoder.flush.isOpen = isOpen ∧ second.encoder.flush.isOpen = isOpen :=
    ⟨(Encoder.isOpen_flush _).trans hTwins.opens.1, (Encoder.isOpen_flush _).trans hTwins.opens.2⟩
  cases call with
  | report event persistent => exact hTwins.report hOpen event persistent
  | turnOn => exact hTwins.turnOn hFirst hSecond
  | turnOff =>
      cases on with
      | false =>
          rw [turnOff_ignored hTwins.ons.1, turnOff_ignored hTwins.ons.2]
          exact hTwins.answerAlike_of_same rfl rfl rfl
      | true =>
          rw [turnOff_on hTwins.ons.1, turnOff_on hTwins.ons.2]
          exact ⟨rfl, false, isOpen, { hTwins with ons := ⟨rfl, rfl⟩, opens := hFlushes }⟩
  | flush => exact ⟨rfl, on, isOpen, { hTwins with opens := hFlushes }⟩
  | close => exact ⟨rfl, false, false, { hTwins with ons := ⟨rfl, rfl⟩, opens := hCloses }⟩
  | changeFile name =>
      cases on with
      | true =>
          rw [changeFile_ignored hTwins.ons.1, changeFile_ignored hTwins.ons.2]
          exact hTwins.answerAlike_of_same rfl rfl rfl
      | false =>
          rw [changeFile_off hTwins.ons.1, changeFile_off hTwins.ons.2]
          have hSettings : Settings.common { first.settings with fileName := name }
              = Settings.common { second.settings with fileName := name } :=
            congrArg (fun common => (name, common.2)) hTwins.settings
          have hMachine := congrArg (fun machine : Machine => { machine with tagMemory := {} })
            hTwins.machine
          exact ⟨rfl, false, false,
            { hTwins with opens := hCloses, settings := hSettings, machine := hMachine }⟩
  | setTextForm text => exact absurd rfl (hForm text)
  | attachArchive data =>
      have hMachine := congrArg (fun machine : Machine => { machine with archive := some data })
        hTwins.machine
      exact ⟨rfl, on, isOpen, { hTwins with machine := hMachine }⟩

end Calls

/-! ### Queries -/

/-- What can be asked of a recorder, apart from how and where it writes. -/
structure View where
  on : Bool
  tally : Tally
  topology : Structure.Topology
  currentCycle : UInt64
  live : Std.TreeSet ItemId
  storedCommands : Nat
  highestTraffic : EdgeId → Option UInt32
  settings : String × Bool × Bool

/-- What a recorder tells when it is asked. -/
def view (recorder : Recorder) : View :=
  { on := recorder.on
    tally := recorder.tally
    topology := recorder.machine.topology
    currentCycle := recorder.machine.currentCycle
    live := recorder.live
    storedCommands := recorder.storedCommands
    highestTraffic := recorder.highestTraffic
    settings := recorder.settings.common }

theorem Twins.view {first second : Recorder} (hTwins : Twins on isOpen first second) :
    first.view = second.view := by
  unfold Recorder.view storedCommands highestTraffic
  rw [hTwins.ons.1, hTwins.ons.2, hTwins.tally, hTwins.machine, hTwins.live, hTwins.store,
    hTwins.settings]

end Recorder
end Recording
end CycleTrace
