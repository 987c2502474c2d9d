/-
What a call does to a history.

`History.Step` names what a call can do: a report is recorded or noted, an
output is resumed, begun, flushed or closed, the settings for the next output
change, or nothing happens. Each case gives the whole history after the call,
so an invariant of histories is proved by cases on it.

An invariant of the commands alone needs less: of a call that leaves an output
open it matters only what becomes of the commands that are destined for it.
-/

import CycleTrace.Proofs.Recording.Runs

namespace CycleTrace
namespace Recording

open Output (Directory Encoder openingVersion stateAfter stateAfter_of_ok stateAfter_of_error)

section Codec

variable [Lz4.Codec]

namespace History

/-- What the open output was handed before a call. -/
def earlier (history : History) : List Handed :=
  if history.recorder.encoder.isOpen then history.current else []

/-- The histories that a call can lead to. -/
inductive Step (history : History) : Call → History → Prop
  | recorded {event : Event} {persistent : Bool} {plan : Plan} {encoder : Encoder}
      {tally : Tally} (hPlan : history.recorder.planned event persistent = .ok plan)
      (hOn : history.recorder.on = true)
      (hEncode : Encoder.encodeAll (plan.dispatches.map (·.command)) history.recorder.encoder
        = .ok () encoder) :
      Step history (.report event persistent)
        { recorder := { history.recorder with
            machine := plan.machine
            encoder
            store := history.recorder.store.storeAll (persistentCommands plan.dispatches) false
            tally }
          dispatched := history.dispatched ++ plan.dispatches
          current := history.current ++ plan.dispatches.map .direct }
  | noted {event : Event} {persistent : Bool} {plan : Plan} {tally : Tally}
      (hPlan : history.recorder.planned event persistent = .ok plan)
      (hOff : history.recorder.on = false) :
      Step history (.report event persistent)
        { recorder := { history.recorder with
            machine := plan.machine
            store := history.recorder.store.storeAll (persistentCommands plan.dispatches) true
            live := plan.dispatches.foldl Recorder.trackItem history.recorder.live
            tally }
          dispatched := history.dispatched ++ plan.dispatches
          current := history.earlier }
  | idle {call : Call} (hNothing : history.recorder.dispatchesOf call = []) :
      Step history call { history with current := history.earlier }
  | resumed {encoder : Encoder} {tally : Tally} (hOff : history.recorder.on = false)
      (hOpen : history.recorder.encoder.isOpen = true)
      (hEncode : Encoder.encodeAll (history.recorder.store.partialReplay.toList
        ++ history.recorder.live.toList.map .newItem) history.recorder.encoder
        = .ok () encoder) :
      Step history .turnOn
        { history with
          recorder := { history.recorder with
            encoder, store := history.recorder.store.clearPartial, live := {}, on := true, tally }
          current := history.current
            ++ (history.recorder.store.partialReplay.toList.map .replayed
              ++ history.recorder.live.toList.map .announced) }
  | begun {encoder opened : Encoder} {tally : Tally} {name : String}
      (hOff : history.recorder.on = false) (hClosed : history.recorder.encoder.isOpen = false)
      (hName : Directory.fileName? history.recorder.settings.fileName = some name)
      (hBegin : Encoder.beginFile history.recorder.settings.fileName
        history.recorder.settings.compressed history.recorder.encoder = .ok () opened)
      (hOpened : opened.Carries history.recorder.settings.text name
        history.recorder.settings.compressed [openingVersion])
      (hEncode : Encoder.encodeAll (history.recorder.store.all.toList
        ++ history.recorder.live.toList.map .newItem) opened = .ok () encoder) :
      Step history .turnOn
        { history with
          recorder := { history.recorder with
            machine := { history.recorder.machine with
              occupancy := history.recorder.machine.occupancy.forgetOutput }
            encoder, store := history.recorder.store.clearPartial, live := {}, on := true, tally }
          current := ⟨openingVersion, false⟩
            :: (history.recorder.store.all.toList.map .replayed
              ++ history.recorder.live.toList.map .announced) }
  | stopped (hOn : history.recorder.on = true) :
      Step history .turnOff
        { history with
          recorder := { history.recorder with
            on := false, encoder := history.recorder.encoder.flush }
          current := history.earlier }
  | flushed :
      Step history .flush
        { history with
          recorder := { history.recorder with encoder := history.recorder.encoder.flush }
          current := history.earlier }
  | closed :
      Step history .close
        { history with
          recorder := { history.recorder with
            on := false, encoder := history.recorder.encoder.close }
          current := [] }
  | renamed {name : String} (hOff : history.recorder.on = false) :
      Step history (.changeFile name)
        { history with
          recorder := { history.recorder with
            settings := { history.recorder.settings with fileName := name }
            machine := { history.recorder.machine with tagMemory := {} }
            encoder := history.recorder.encoder.close }
          current := [] }
  | reformed {text : Bool} (hOff : history.recorder.on = false)
      (hOther : history.recorder.settings.text ≠ text) :
      Step history (.setTextForm text)
        { history with
          recorder := { history.recorder with
            settings := { history.recorder.settings with text }
            machine := { history.recorder.machine with tagMemory := {} }
            encoder := .ofForm text history.recorder.settings.bufferBytes
              history.recorder.encoder.close.writer.directory }
          current := [] }
  | attached {data : List UInt8} :
      Step history (.attachArchive data)
        { history with
          recorder := { history.recorder with
            machine := { history.recorder.machine with archive := some data } }
          current := history.earlier }

section Steps

variable {history : History} {call : Call} {next : Recorder}

theorem earlier_of_open (hOpen : history.recorder.encoder.isOpen = true) :
    history.earlier = history.current :=
  if_pos hOpen

theorem earlier_of_closed (hClosed : history.recorder.encoder.isOpen = false) :
    history.earlier = [] := by
  unfold earlier
  rw [hClosed]
  rfl

/-- A call that dispatches and hands over nothing and keeps the output. -/
theorem after_of_kept (hNext : stateAfter (Recorder.perform call history.recorder) = next)
    (hNothing : history.recorder.dispatchesOf call = [])
    (hHands : history.recorder.hands call = [])
    (hOpen : next.encoder.isOpen = history.recorder.encoder.isOpen) :
    history.after call = { history with recorder := next, current := history.earlier } := by
  rw [after_of_state hNext, hNothing, hHands, hOpen, List.append_nil, List.append_nil]
  unfold earlier
  cases history.recorder.encoder.isOpen with
  | true => rfl
  | false => rfl

/-- A call that dispatches nothing and ends the output. -/
theorem after_of_ended (hNext : stateAfter (Recorder.perform call history.recorder) = next)
    (hNothing : history.recorder.dispatchesOf call = [])
    (hClosed : next.encoder.isOpen = false) :
    history.after call = { history with recorder := next, current := [] } := by
  rw [after_of_state hNext, hNothing, hClosed, List.append_nil]
  rfl

theorem step_of_same
    (hNext : stateAfter (Recorder.perform call history.recorder) = history.recorder)
    (hNothing : history.recorder.dispatchesOf call = [])
    (hHands : history.recorder.hands call = []) : history.Step call (history.after call) := by
  rw [after_of_kept hNext hNothing hHands rfl]
  exact .idle hNothing

theorem step_report (hConsistent : history.Consistent) (event : Event) (persistent : Bool) :
    history.Step (.report event persistent) (history.after (.report event persistent)) := by
  cases hPlan : history.recorder.planned event persistent with
  | error fault =>
      have hNothing := Recorder.dispatchesOf_report_refused hPlan
      refine step_of_same (Recorder.stateAfter_refused hConsistent.isOpen hPlan) hNothing ?_
      rw [Recorder.hands_report, hNothing]
      exact ite_self []
  | ok plan =>
      have hDispatches := Recorder.dispatchesOf_report hPlan
      cases hOn : history.recorder.on with
      | true =>
          have hOpen := hConsistent.isOpen hOn
          obtain ⟨name, _, hCarries⟩ := hConsistent.carries hOpen
          obtain ⟨encoder, tally, hReport, hEncode⟩ := Recorder.report_on hPlan hOn hOpen
          rw [after_of_state (stateAfter_of_ok hReport), Recorder.hands_report, hDispatches,
            if_pos (hCarries.of_encodeAll hEncode).isOpen, if_pos hOpen, if_pos hOn]
          exact .recorded hPlan hOn hEncode
      | false =>
          obtain ⟨tally, hReport⟩ := Recorder.report_off hPlan hOn
          rw [after_of_state (stateAfter_of_ok hReport), Recorder.hands_report, hDispatches,
            if_neg (Bool.eq_false_iff.mp hOn), List.append_nil]
          have hKept : (if history.recorder.encoder.isOpen then
              if history.recorder.encoder.isOpen then history.current else [] else [])
              = history.earlier := by
            unfold earlier
            cases history.recorder.encoder.isOpen with
            | true => rfl
            | false => rfl
          rw [hKept]
          exact .noted hPlan hOn

theorem Consistent.current_report (hConsistent : history.Consistent)
    (hOn : history.recorder.on = true) {event : Event} {persistent : Bool} {plan : Plan}
    (hPlan : history.recorder.planned event persistent = .ok plan) :
    (history.after (.report event persistent)).current
      = history.current ++ plan.dispatches.map .direct := by
  have hOpen := hConsistent.isOpen hOn
  obtain ⟨name, _, hCarries⟩ := hConsistent.carries hOpen
  obtain ⟨encoder, tally, hReport, hEncode⟩ := Recorder.report_on hPlan hOn hOpen
  rw [after_of_state (stateAfter_of_ok hReport), Recorder.hands_report,
    Recorder.dispatchesOf_report hPlan, if_pos (hCarries.of_encodeAll hEncode).isOpen,
    if_pos hOpen, if_pos hOn]

/-- An accepted event is granted with the reply of its plan, and leads to the machine of it. -/
theorem Consistent.answer_report (hConsistent : history.Consistent) {event : Event}
    {persistent : Bool} {plan : Plan}
    (hPlan : history.recorder.planned event persistent = .ok plan) :
    ∃ next, Recorder.perform (.report event persistent) history.recorder = .ok plan.reply next ∧
      next.machine = plan.machine := by
  cases hOn : history.recorder.on with
  | true =>
      obtain ⟨encoder, tally, hReport, _⟩ := Recorder.report_on hPlan hOn (hConsistent.isOpen hOn)
      exact ⟨_, hReport, rfl⟩
  | false =>
      obtain ⟨tally, hReport⟩ := Recorder.report_off hPlan hOn
      exact ⟨_, hReport, rfl⟩

theorem Consistent.answer_planned (hConsistent : history.Consistent) (event : Event)
    (persistent : Bool) :
    Recorder.answer (Recorder.perform (.report event persistent) history.recorder)
      = (history.recorder.planned event persistent).map (·.reply) := by
  cases hPlan : history.recorder.planned event persistent with
  | error fault =>
      rw [Recorder.report_refused hConsistent.isOpen hPlan]
      rfl
  | ok plan =>
      obtain ⟨next, hReport, _⟩ := hConsistent.answer_report hPlan
      rw [hReport]
      rfl

/-- A report that was granted was planned. -/
theorem Consistent.granted_report (hConsistent : history.Consistent) {event : Event}
    {persistent : Bool} {reply : Reply}
    (hAnswer : Recorder.answer (Recorder.perform (.report event persistent) history.recorder)
      = .ok reply) :
    ∃ plan, history.recorder.planned event persistent = .ok plan ∧ plan.reply = reply ∧
      (history.after (.report event persistent)).recorder.machine = plan.machine := by
  rw [hConsistent.answer_planned] at hAnswer
  cases hPlan : history.recorder.planned event persistent with
  | error fault =>
      rw [hPlan] at hAnswer
      cases hAnswer
  | ok plan =>
      rw [hPlan] at hAnswer
      obtain ⟨next, hReport, hMachine⟩ := hConsistent.answer_report hPlan
      refine ⟨plan, rfl, Except.ok.inj hAnswer, ?_⟩
      change (stateAfter (Recorder.perform _ history.recorder)).machine = _
      rw [hReport]
      exact hMachine

theorem step_turnOn (hConsistent : history.Consistent) :
    history.Step .turnOn (history.after .turnOn) := by
  rcases Recorder.turnOn_cases hConsistent.ready with hOn | ⟨hOff, hOpen⟩ |
    ⟨hOff, hClosed, name, opened, hName, hBegin, hOpened⟩ | ⟨hOff, hClosed, fault, hNoFile⟩
  · exact step_of_same (stateAfter_of_ok (Recorder.turnOn_ignored hOn)) rfl (if_pos hOn)
  · obtain ⟨name, _, hCarries⟩ := hConsistent.carries hOpen
    obtain ⟨encoder, tally, hTurnOn, hEncode⟩ := Recorder.turnOn_open hOff hOpen
    rw [after_of_state (stateAfter_of_ok hTurnOn), Recorder.hands_turnOn_open hOff hOpen,
      if_pos (hCarries.of_encodeAll hEncode).isOpen, if_pos hOpen,
      show history.recorder.dispatchesOf .turnOn = [] from rfl, List.append_nil]
    exact .resumed hOff hOpen hEncode
  · obtain ⟨encoder, tally, hTurnOn, hEncode⟩ :=
      Recorder.turnOn_begin hOff hClosed hBegin hOpened.isOpen
    rw [after_of_state (stateAfter_of_ok hTurnOn), Recorder.hands_turnOn_closed hOff hClosed,
      if_pos (hOpened.of_encodeAll hEncode).isOpen, hClosed, if_neg Bool.false_ne_true,
      List.nil_append, show history.recorder.dispatchesOf .turnOn = [] from rfl, List.append_nil]
    exact .begun hOff hClosed hName hBegin hOpened hEncode
  · rw [after_of_ended (stateAfter_of_error hNoFile) rfl hClosed,
      ← earlier_of_closed hClosed]
    exact .idle rfl

/-- Every call takes one of these steps. -/
theorem step_after (hConsistent : history.Consistent) (call : Call) :
    history.Step call (history.after call) := by
  have hSilent (other : Call) (hNothing : history.recorder.dispatchesOf other = []) :
      (if history.recorder.on then
        (history.recorder.dispatchesOf other).map Handed.direct else []) = [] := by
    rw [hNothing]
    exact ite_self []
  have hClosed := hConsistent.ready.close.2
  cases call with
  | report event persistent => exact step_report hConsistent event persistent
  | turnOn => exact step_turnOn hConsistent
  | turnOff =>
      cases hOn : history.recorder.on with
      | false =>
          exact step_of_same (stateAfter_of_ok (Recorder.turnOff_ignored hOn)) rfl
            (hSilent .turnOff rfl)
      | true =>
          rw [after_of_kept (stateAfter_of_ok (Recorder.turnOff_on hOn)) rfl
            (hSilent .turnOff rfl) (Encoder.isOpen_flush _)]
          exact .stopped hOn
  | flush =>
      have hNext : stateAfter (Recorder.perform .flush history.recorder)
        = { history.recorder with encoder := history.recorder.encoder.flush } := rfl
      rw [after_of_kept hNext rfl (hSilent .flush rfl) (Encoder.isOpen_flush _)]
      exact .flushed
  | close =>
      have hNext : stateAfter (Recorder.perform .close history.recorder)
        = { history.recorder with on := false, encoder := history.recorder.encoder.close } := rfl
      rw [after_of_ended hNext rfl hClosed]
      exact .closed
  | changeFile name =>
      cases hOn : history.recorder.on with
      | true =>
          exact step_of_same (stateAfter_of_ok (Recorder.changeFile_ignored hOn)) rfl
            (hSilent (.changeFile name) rfl)
      | false =>
          rw [after_of_ended (stateAfter_of_ok (Recorder.changeFile_off hOn)) rfl hClosed]
          exact .renamed hOn
  | setTextForm text =>
      cases hOn : history.recorder.on with
      | true =>
          exact step_of_same (stateAfter_of_ok (Recorder.setTextForm_ignored hOn)) rfl
            (hSilent (.setTextForm text) rfl)
      | false =>
          by_cases hSame : history.recorder.settings.text = text
          · exact step_of_same (stateAfter_of_ok (Recorder.setTextForm_same hOn hSame)) rfl
              (hSilent (.setTextForm text) rfl)
          · rw [after_of_ended (stateAfter_of_ok (Recorder.setTextForm_other hOn hSame)) rfl
              (Encoder.isOpen_ofForm _ _ _)]
            exact .reformed hOn hSame
  | attachArchive data =>
      have hNext : stateAfter (Recorder.perform (.attachArchive data) history.recorder)
        = { history.recorder with
            machine := { history.recorder.machine with archive := some data } } := rfl
      rw [after_of_kept hNext rfl (hSilent (.attachArchive data) rfl) rfl]
      exact .attached

end Steps

/-! ### What is destined for the output -/

/-- The commands of a call that are not dropped. -/
def kept (history : History) (call : Call) : List Command :=
  if history.recorder.on then (history.recorder.dispatchesOf call).map (·.command)
  else persistentCommands (history.recorder.dispatchesOf call)

/-- A call that makes the next output a new one. -/
def StartsOver (history : History) : Call → Prop
  | .close => True
  | .changeFile _ => history.recorder.on = false
  | .setTextForm text => history.recorder.on = false ∧ history.recorder.settings.text ≠ text
  | _ => False

section Destined

variable {history : History} {call : Call}

theorem kept_on (hOn : history.recorder.on = true) :
    history.kept call = (history.recorder.dispatchesOf call).map (·.command) :=
  if_pos hOn

theorem kept_off (hOff : history.recorder.on = false) :
    history.kept call = persistentCommands (history.recorder.dispatchesOf call) := by
  unfold kept
  rw [hOff]
  rfl

theorem kept_of_nothing (hNothing : history.recorder.dispatchesOf call = []) :
    history.kept call = [] := by
  unfold kept
  rw [hNothing]
  exact ite_self []

theorem kept_subset (history : History) (call : Call) :
    history.kept call ⊆ (history.recorder.dispatchesOf call).map (·.command) := by
  unfold kept
  split
  · exact List.Subset.refl _
  · exact persistentCommands_subset _

theorem destined_open (hOpen : history.recorder.encoder.isOpen = true) :
    history.destined
      = history.current.map (·.command) ++ history.recorder.store.partialReplay.toList := by
  unfold destined waiting
  rw [if_pos hOpen, if_pos hOpen]

theorem destined_congr {next : History} (hStore : next.recorder.store = history.recorder.store)
    (hOpen : next.recorder.encoder.isOpen = history.recorder.encoder.isOpen)
    (hCurrent : next.current = history.earlier) : next.destined = history.destined := by
  cases hBefore : history.recorder.encoder.isOpen with
  | true =>
      have hAfter := hOpen.trans hBefore
      rw [destined_open hAfter, destined_open hBefore, hCurrent, earlier_of_open hBefore, hStore]
  | false => rw [destined_closed (hOpen.trans hBefore), destined_closed hBefore, hStore]

theorem Consistent.all_subset_destined (hConsistent : history.Consistent) :
    history.recorder.store.all.toList ⊆ history.destined := by
  cases hOpen : history.recorder.encoder.isOpen with
  | false =>
      rw [destined_closed hOpen]
      exact List.Subset.refl _
  | true =>
      rw [← hConsistent.handed hOpen, destined_open hOpen]
      intro command hMember
      rcases List.mem_append.mp hMember with hHanded | hWaits
      · obtain ⟨entry, hEntry, _, rfl⟩ := mem_persistentHanded.mp hHanded
        exact List.mem_append_left _ (List.mem_map_of_mem hEntry)
      · exact List.mem_append_right _ hWaits

theorem handed_subset_destined (hOpen : history.recorder.encoder.isOpen = true) :
    history.current.map (·.command) ⊆ history.destined := by
  rw [destined_open hOpen]
  exact List.subset_append_left _ _

/-- A call starts over, or it adds to what is destined for the output: the
version in front of it where the output is begun, then what the call does not
drop, then the items that came into being while off. -/
inductive Destines (history : History) (call : Call) (next : History) : Prop
  | startsOver (hStartsOver : history.StartsOver call)
      (hClosed : next.recorder.encoder.isOpen = false)
  | adds (opening : List Command) (items : List ItemId) (hOpening : opening ⊆ [openingVersion])
      (hItems : items ⊆ history.recorder.live.toList)
      (hDestined : next.destined
        = opening ++ (history.destined ++ history.kept call ++ items.map .newItem))

theorem destines_kept {next : History}
    (hDestined : next.destined = history.destined ++ history.kept call) :
    history.Destines call next :=
  .adds [] [] (List.nil_subset _) (List.nil_subset _) (hDestined.trans (List.append_nil _).symm)

theorem destines_quiet {next : History} (hNothing : history.recorder.dispatchesOf call = [])
    (hStore : next.recorder.store = history.recorder.store)
    (hOpen : next.recorder.encoder.isOpen = history.recorder.encoder.isOpen)
    (hCurrent : next.current = history.earlier) : history.Destines call next := by
  apply destines_kept
  rw [kept_of_nothing hNothing, List.append_nil]
  exact destined_congr hStore hOpen hCurrent

theorem Consistent.destines (hConsistent : history.Consistent) (call : Call) :
    history.Destines call (history.after call) := by
  have hStep := step_after hConsistent call
  generalize history.after call = next at hStep
  cases hStep with
  | recorded hPlan hOn hEncode =>
      obtain ⟨name, _, hCarries⟩ := hConsistent.carries (hConsistent.isOpen hOn)
      apply destines_kept
      rw [kept_on hOn, Recorder.dispatchesOf_report hPlan, hConsistent.destined_on hOn,
        destined_open (hCarries.of_encodeAll hEncode).isOpen]
      dsimp only
      rw [ReplayStore.partialReplay_storeAll_false, hConsistent.nothingWaits hOn,
        List.map_append, command_direct]
      exact List.append_nil _
  | noted hPlan hOff =>
      apply destines_kept
      rw [kept_off hOff, Recorder.dispatchesOf_report hPlan]
      cases hOpen : history.recorder.encoder.isOpen with
      | true =>
          rw [destined_open hOpen]
          refine Eq.trans (destined_open ?_) ?_
          · exact hOpen
          rw [earlier_of_open hOpen, ReplayStore.toList_partialReplay_storeAll_true,
            List.append_assoc]
      | false =>
          rw [destined_closed hOpen]
          refine Eq.trans (destined_closed ?_) (ReplayStore.toList_all_storeAll _ _ _)
          exact hOpen
  | idle hNothing => exact destines_quiet hNothing rfl rfl rfl
  | resumed hOff hOpen hEncode =>
      obtain ⟨name, _, hCarries⟩ := hConsistent.carries hOpen
      refine .adds [] history.recorder.live.toList (List.nil_subset _) (List.Subset.refl _) ?_
      rw [kept_of_nothing rfl, destined_open (hCarries.of_encodeAll hEncode).isOpen,
        destined_open hOpen]
      dsimp only
      rw [List.map_append, List.map_append, command_replayed, command_announced]
      simp only [ReplayStore.clearPartial, List.append_nil, List.append_assoc, List.nil_append]
  | begun hOff hClosed hName hBegin hOpened hEncode =>
      refine .adds [openingVersion] history.recorder.live.toList (List.Subset.refl _)
        (List.Subset.refl _) ?_
      rw [kept_of_nothing rfl, destined_open (hOpened.of_encodeAll hEncode).isOpen,
        destined_closed hClosed]
      dsimp only
      rw [List.map_cons, List.map_append, command_replayed, command_announced]
      simp only [ReplayStore.clearPartial, List.append_nil, List.singleton_append]
  | stopped hOn => exact destines_quiet rfl rfl (Encoder.isOpen_flush _) rfl
  | flushed => exact destines_quiet rfl rfl (Encoder.isOpen_flush _) rfl
  | closed => exact .startsOver trivial hConsistent.ready.close.2
  | renamed hOff => exact .startsOver hOff hConsistent.ready.close.2
  | reformed hOff hOther => exact .startsOver ⟨hOff, hOther⟩ (Encoder.isOpen_ofForm _ _ _)
  | attached => exact destines_quiet rfl rfl rfl rfl

/-- A call that keeps the output adds to what is destined for it. -/
theorem Consistent.destined_grows (hConsistent : history.Consistent)
    (hKeeps : history.KeepsOutput call) :
    ∃ (opening : List Command) (items : List ItemId), opening ⊆ [openingVersion] ∧
      (history.after call).destined
        = opening ++ (history.destined ++ history.kept call ++ items.map .newItem) := by
  cases hConsistent.destines call with
  | adds opening items hOpening hItems hDestined => exact ⟨opening, items, hOpening, hDestined⟩
  | startsOver hStartsOver hClosed =>
      have hNothing : history.recorder.dispatchesOf call = [] := by
        cases call with
        | report => exact hStartsOver.elim
        | _ => rfl
      refine ⟨[], [], List.nil_subset _, ?_⟩
      rw [destined_closed hClosed, destined_closed (hKeeps.closed_before hClosed),
        hConsistent.toList_all_after, kept_of_nothing hNothing, hNothing]
      simp [persistentCommands]

end Destined
end History

end Codec

/-! ### The last command of a kind -/

/-- What the last of the commands that tell something tells. -/
def lastOf? (tells? : Command → Option α) (commands : List Command) : Option α :=
  (commands.filterMap tells?).getLast?

section LastOf

variable {tells? : Command → Option α}

theorem lastOf?_append (commands others : List Command) :
    lastOf? tells? (commands ++ others)
      = (lastOf? tells? others).or (lastOf? tells? commands) := by
  unfold lastOf?
  rw [List.filterMap_append, List.getLast?_append]

theorem lastOf?_eq_none {commands : List Command}
    (hNone : ∀ command ∈ commands, tells? command = none) : lastOf? tells? commands = none := by
  unfold lastOf?
  rw [List.filterMap_eq_nil_iff.mpr hNone]
  rfl

theorem lastOf?_single (tells? : Command → Option α) (command : Command) :
    lastOf? tells? [command] = tells? command := by
  unfold lastOf?
  rw [List.filterMap_cons]
  cases tells? command <;> rfl

/-- Of what grows by a version in front and by new items behind, only the middle
tells something, unless versions or new items do. -/
theorem filterMap_grown {opening before kept : List Command} {items : List ItemId}
    (hOpening : opening ⊆ [openingVersion]) (hVersion : tells? openingVersion = none)
    (hItem : ∀ item, tells? (.newItem item) = none) :
    (opening ++ (before ++ kept ++ items.map Command.newItem)).filterMap tells?
      = before.filterMap tells? ++ kept.filterMap tells? := by
  have hItems : (items.map Command.newItem).filterMap tells? = [] := by
    refine List.filterMap_eq_nil_iff.mpr fun command hCommand => ?_
    obtain ⟨item, _, rfl⟩ := List.mem_map.mp hCommand
    exact hItem item
  have hOpened : opening.filterMap tells? = [] := by
    refine List.filterMap_eq_nil_iff.mpr fun command hCommand => ?_
    rw [List.mem_singleton.mp (hOpening hCommand)]
    exact hVersion
  rw [List.filterMap_append, List.filterMap_append, List.filterMap_append, hItems, hOpened,
    List.nil_append, List.append_nil]

/-- What grows by a version in front and by new items behind tells the same,
unless versions or new items tell something. -/
theorem lastOf?_grown {opening before kept : List Command} {items : List ItemId}
    (hOpening : opening ⊆ [openingVersion]) (hVersion : tells? openingVersion = none)
    (hItem : ∀ item, tells? (.newItem item) = none) :
    lastOf? tells? (opening ++ (before ++ kept ++ items.map .newItem))
      = (lastOf? tells? kept).or (lastOf? tells? before) := by
  unfold lastOf?
  rw [filterMap_grown hOpening hVersion hItem, List.getLast?_append]

end LastOf
end Recording
end CycleTrace
