/-
The counts account for every command.

The counts of a run are compared with what the run did: with its dispatches, with
the lists that were replayed, and with what was handed over, to all outputs taken
together. Where the outputs are texts, the last of these can be looked up in the
files. An output ends with a call that closes it or with the recorder, and at
that moment its file has a line for every command that it was handed.
-/

import CycleTrace.Lz4.StoredBlocks
import CycleTrace.Proofs.Output.Lines
import CycleTrace.Proofs.Output.Neighbors
import CycleTrace.Proofs.Recording.Permitted
import CycleTrace.Proofs.Recording.Tallies
import Mathlib.Algebra.GroupWithZero.Nat

namespace CycleTrace

/-- The word that opens a line of a version opens no other line. -/
theorem Command.name_eq_version (command : Command) :
    (command.name == "version") = command.isVersion := by
  cases command <;>
    · dsimp only [Command.name, Command.isVersion]
      decide

namespace Recording

open Output (Directory Encoder openingVersion readText?)

/-! ### Commands that are dispatched -/

/-- A command that a simulation can cause; versions and definitions belong to
the encoders. -/
def Simulated (command : Command) : Prop :=
  command.isVersion = false ∧ command.isDefinition = false

theorem Machine.Accepts.simulated {machine : Machine} {circumstances : Circumstances}
    {event : Event} {plan : Plan} (hAccepts : machine.Accepts circumstances event plan) :
    ∀ sent ∈ plan.dispatches, Simulated sent.command := by
  cases hAccepts with
  | moveNone | tagRepeated | repeatedCycle => exact List.forall_mem_nil _
  | enterSlot => exact forall_arrivalDispatches ⟨rfl, rfl⟩ fun _ _ _ => ⟨rfl, rfl⟩
  | cycle => exact forall_beginCycle _ ⟨rfl, rfl⟩ fun _ _ => ⟨rfl, rfl⟩
  | @clockedCycle cycle plan hClock hNew hPlan =>
      subst hPlan
      exact forall_beginCycle cycle.cycle ⟨rfl, rfl⟩ fun _ _ => ⟨rfl, rfl⟩
  | startActivity => exact forall_startActivity (fun _ _ => ⟨rfl, rfl⟩) ⟨rfl, rfl⟩
  | _ => exact forall_single ⟨rfl, rfl⟩

/-- The handed commands other than versions. -/
def unversioned (handed : List Handed) : List Handed :=
  handed.filter fun entry => !entry.command.isVersion

theorem unversioned_append (handed others : List Handed) :
    unversioned (handed ++ others) = unversioned handed ++ unversioned others :=
  List.filter_append _ _

theorem unversioned_of_simulated {handed : List Handed}
    (hHanded : ∀ entry ∈ handed, Simulated entry.command) : unversioned handed = handed := by
  refine List.filter_eq_self.mpr fun entry hEntry => ?_
  rw [(hHanded entry hEntry).1]
  rfl

namespace History

/-! ### Logs and lines -/

theorem length_recording (recording : Bool) (sent : List Dispatch) :
    ((entriesOf recording sent).filter (·.recording)).length
      = if recording then sent.length else 0 := by
  unfold entriesOf
  rw [List.filter_map]
  cases recording <;> simp [Function.comp_def]

theorem length_dropped (recording : Bool) (sent : List Dispatch) :
    ((entriesOf recording sent).filter fun entry =>
        !entry.recording && !entry.dispatch.persistent).length
      = if recording then 0 else (sent.filter (!·.persistent)).length := by
  unfold entriesOf
  rw [List.filter_map]
  cases recording <;> simp [Function.comp_def]

/-- The lines of texts that are no version. -/
def tellingLines (texts : List String) : List String :=
  (texts.flatMap linesOf).filter (firstWord · != "version")

theorem tellingLines_append (texts others : List String) :
    tellingLines (texts ++ others) = tellingLines texts ++ tellingLines others := by
  unfold tellingLines
  rw [List.flatMap_append, List.filter_append]

/-- The lines of what was handed over tell of all that is no version. -/
theorem length_tellingLines {text : String} {handed : List Handed}
    (hLines : linesOf text = (handed.map (·.command)).map Command.render) :
    (tellingLines [text]).length = (unversioned handed).length := by
  have hTells (entry : Handed) :
      (firstWord entry.command.render != "version") = !entry.command.isVersion := by
    rw [firstWord_render, bne, Command.name_eq_version]
  unfold tellingLines unversioned
  rw [List.flatMap_singleton, hLines, List.map_map, List.filter_map, List.length_map]
  simp only [Function.comp_def, hTells]

/-! ### Histories -/

section Codec

variable [Lz4.Codec]

/-- Everything stored or handed over was simulated, but for the version in front
of an output. -/
structure Simulates (history : History) : Prop where
  stored : ∀ command ∈ history.recorder.store.all.toList, Simulated command
  handed : ∀ entry ∈ history.current.tail, Simulated entry.command
  opens : history.OpensWithVersion

variable {history : History} {call : Call}

theorem simulated_of_dispatched {sent : Dispatch}
    (hSent : sent ∈ history.recorder.dispatchesOf call) : Simulated sent.command := by
  obtain ⟨event, persistent, plan, _, hPlan, hMember⟩ := Recorder.mem_dispatchesOf hSent
  exact (Machine.accepts_of_plan hPlan).simulated sent hMember

/-- What waits for the next replay is stored. -/
theorem Consistent.waiting_subset (hConsistent : history.Consistent) :
    history.waiting ⊆ history.recorder.store.all.toList := by
  unfold waiting
  cases hOpen : history.recorder.encoder.isOpen with
  | true =>
      rw [if_pos rfl, ← hConsistent.handed hOpen]
      exact List.subset_append_right _ _
  | false => exact List.Subset.refl _

/-- A turned on output is told of simulated commands behind its version. -/
theorem Simulates.replayed (hSimulates : history.Simulates) (hConsistent : history.Consistent) :
    ∀ entry ∈ history.waiting.map Handed.replayed
        ++ history.recorder.live.toList.map Handed.announced,
      Simulated entry.command := by
  rw [List.forall_mem_append]
  constructor
  · rw [List.forall_mem_map]
    exact fun command hWaits => hSimulates.stored command (hConsistent.waiting_subset hWaits)
  · rw [List.forall_mem_map]
    exact fun item _ => ⟨rfl, rfl⟩

theorem simulated_direct {event : Event} {persistent : Bool} {plan : Plan}
    (hPlan : history.recorder.planned event persistent = .ok plan) :
    ∀ entry ∈ plan.dispatches.map Handed.direct, Simulated entry.command :=
  List.forall_mem_map.mpr (Machine.accepts_of_plan hPlan).simulated

/-- Behind the version, a call hands over simulated commands only. -/
theorem Simulates.handedOver (hSimulates : history.Simulates)
    (hConsistent : history.Consistent) (call : Call) :
    ∃ opening rest, history.handedOver call = opening ++ rest ∧
      (opening = [] ∨ opening = [⟨openingVersion, false⟩] ∧
        history.recorder.encoder.isOpen = false) ∧
      ∀ entry ∈ rest, Simulated entry.command := by
  have hAccounted := hConsistent.accounted call
  generalize history.handedOver call = handed at hAccounted
  generalize (history.after call).recorder.tally = tally at hAccounted
  cases hAccounted with
  | reported hPlan =>
      refine ⟨[], _, (List.nil_append _).symm, .inl rfl, ?_⟩
      split
      · exact simulated_direct hPlan
      · exact List.forall_mem_nil _
  | @turnedOn opening hOff hReplayed hOpening =>
      refine ⟨opening, _, rfl, ?_, hSimulates.replayed hConsistent⟩
      cases hOpen : history.recorder.encoder.isOpen with
      | true => exact .inl (hOpening.trans (if_pos hOpen))
      | false => exact .inr ⟨hOpening.trans (if_neg (Bool.eq_false_iff.mp hOpen)), rfl⟩
  | nothing hNothing hNone => exact ⟨[], [], rfl, .inl rfl, List.forall_mem_nil _⟩

/-- An output that is open has been handed something more by a call. -/
theorem current_after (history : History) (call : Call) :
    (history.after call).current
      = if (history.after call).recorder.encoder.isOpen then
          history.earlier ++ history.handedOver call
        else [] := by
  unfold handedOver
  split
  · next hOpen => exact current_after_open hOpen
  · next hClosed => exact if_neg hClosed

theorem Simulates.after (hSimulates : history.Simulates) (hConsistent : history.Consistent)
    (call : Call) : (history.after call).Simulates := by
  constructor
  · rw [hConsistent.toList_all_after, List.forall_mem_append]
    refine ⟨hSimulates.stored, fun command hCommand => ?_⟩
    obtain ⟨sent, hSent, _, rfl⟩ := mem_persistentCommands.mp hCommand
    exact simulated_of_dispatched hSent
  · rw [current_after]
    obtain ⟨opening, rest, hHanded, hOpening, hRest⟩ := hSimulates.handedOver hConsistent call
    rw [hHanded]
    split
    · rcases hOpening with rfl | ⟨rfl, hClosed⟩
      · -- what is handed over stands behind what was handed before, or is alone
        intro entry hEntry
        cases hEarlier : history.earlier with
        | nil =>
            rw [hEarlier] at hEntry
            exact hRest entry (List.mem_of_mem_tail hEntry)
        | cons first others =>
            rw [hEarlier, List.cons_append, List.tail_cons] at hEntry
            rcases List.mem_append.mp hEntry with hOther | hNew
            · refine hSimulates.handed entry ?_
              have hCurrent : history.current = first :: others := by
                cases hOpen : history.recorder.encoder.isOpen with
                | true => exact (earlier_of_open hOpen).symm.trans hEarlier
                | false => cases (earlier_of_closed hOpen).symm.trans hEarlier
              rw [hCurrent]
              exact hOther
            · exact hRest entry hNew
      · rw [earlier_of_closed hClosed]
        exact hRest
    · exact List.forall_mem_nil _
  · exact hSimulates.opens.after hConsistent call

theorem simulates_start (settings : Settings) (directory : Directory) :
    (start settings directory).Simulates :=
  ⟨List.forall_mem_nil _, List.forall_mem_nil _,
    opensWithVersion_of_closed (Encoder.isOpen_ofForm _ _ _)⟩

/-! ### The counts of a run -/

/-- What calls in order hand over, to all outputs. -/
def handedAll (history : History) : List Call → List Handed
  | [] => []
  | call :: calls => history.handedOver call ++ (history.after call).handedAll calls

/-- The lists that calls in order replay, one for each time that recording is
turned on. -/
def replays (history : History) : List Call → List (List Command)
  | [] => []
  | call :: calls => (history.replayed? call).toList ++ (history.after call).replays calls

/-- The counts between two histories account for what was done. -/
structure Accounts (before after : History) (log : List Entry) (replays : List (List Command))
    (handed : List Handed) : Prop where
  stored : after.recorder.tally.stored + before.recorder.storedCommands
    = before.recorder.tally.stored + after.recorder.storedCommands
  handed : after.recorder.tally.encoded
    = before.recorder.tally.encoded + (unversioned handed).length
  dispatched : after.recorder.tally.encoded + before.recorder.tally.replayedItems
    = before.recorder.tally.encoded + (log.filter (·.recording)).length
      + (replays.map List.length).sum + after.recorder.tally.replayedItems
  dropped : after.recorder.tally.dropped = before.recorder.tally.dropped
    + (log.filter fun entry => !entry.recording && !entry.dispatch.persistent).length
  replays : after.recorder.tally.replays = before.recorder.tally.replays + replays.length

theorem Accounts.refl (history : History) : Accounts history history [] [] [] :=
  ⟨rfl, rfl, rfl, rfl, rfl⟩

theorem Accounts.trans {before middle after : History} {log later : List Entry}
    {lists laterLists : List (List Command)} {handed laterHanded : List Handed}
    (hFirst : Accounts before middle log lists handed)
    (hSecond : Accounts middle after later laterLists laterHanded) :
    Accounts before after (log ++ later) (lists ++ laterLists) (handed ++ laterHanded) := by
  obtain ⟨hStored, hHanded, hDispatched, hDropped, hReplays⟩ := hFirst
  obtain ⟨hStoredLater, hHandedLater, hDispatchedLater, hDroppedLater, hReplaysLater⟩ := hSecond
  constructor
  · omega
  · rw [unversioned_append, List.length_append]
    omega
  · rw [List.filter_append, List.length_append, List.map_append, List.sum_append]
    omega
  · rw [List.filter_append, List.length_append]
    omega
  · rw [List.length_append]
    omega

/-- Every call accounts for what it does. -/
theorem Simulates.accounts_after (hSimulates : history.Simulates)
    (hConsistent : history.Consistent) (call : Call) :
    Accounts history (history.after call) (history.entries call)
      (history.replayed? call).toList (history.handedOver call) := by
  have hStored : (history.after call).recorder.storedCommands
      = history.recorder.storedCommands
        + (persistentCommands (history.recorder.dispatchesOf call)).length := by
    unfold Recorder.storedCommands
    rw [← Array.length_toList, ← Array.length_toList, hConsistent.toList_all_after,
      List.length_append]
  have hAccounted := hConsistent.accounted call
  generalize history.handedOver call = handed at hAccounted ⊢
  generalize hTally : (history.after call).recorder.tally = tally at hAccounted
  unfold entries
  cases hAccounted with
  | @reported event persistent plan hPlan =>
      rw [Recorder.dispatchesOf_report hPlan] at hStored ⊢
      unfold Tally.carriedOut at hTally
      rw [Tally.dispatchedAll_eq] at hTally
      have hHanded : (unversioned (if history.recorder.on then plan.dispatches.map .direct
          else [])).length = if history.recorder.on then plan.dispatches.length else 0 := by
        cases history.recorder.on with
        | true =>
            rw [if_pos rfl, if_pos rfl, unversioned_of_simulated (simulated_direct hPlan),
              List.length_map]
        | false => rfl
      have hNone : (history.replayed? (.report event persistent)).toList = [] := rfl
      rw [hNone]
      constructor
      · rw [hTally, hStored, Nat.add_comm history.recorder.storedCommands, ← Nat.add_assoc]
      · rw [hTally, hHanded]
      · rw [hTally, length_recording]
        rfl
      · rw [hTally, length_dropped]
      · rw [hTally]
        rfl
  | @turnedOn opening hOff hReplayed hOpening =>
      have hNothing : history.recorder.dispatchesOf .turnOn = [] := rfl
      have hReplay := hSimulates.replayed hConsistent
      have hHanded : (unversioned (opening ++ (history.waiting.map .replayed
          ++ history.recorder.live.toList.map .announced))).length
          = history.waiting.length + history.recorder.live.toList.length := by
        rw [unversioned_append, unversioned_of_simulated hReplay, hOpening]
        split <;> simp [unversioned, openingVersion, Command.isVersion]
      rw [hNothing] at hStored ⊢
      rw [hReplayed]
      constructor
      · rw [hTally, hStored]
        rfl
      · rw [hTally, hHanded, ← Nat.add_assoc]
        rfl
      · rw [hTally]
        simp only [Tally.announced, Tally.replayed, entriesOf, Option.toList, List.map_nil,
          List.filter_nil, List.length_nil, List.map_cons, List.sum_cons, List.sum_nil]
        omega
      · rw [hTally]
        rfl
      · rw [hTally]
        rfl
  | nothing hNothing hNone =>
      rw [hNothing] at hStored ⊢
      rw [hNone]
      exact ⟨hTally ▸ hStored ▸ rfl, hTally ▸ rfl, hTally ▸ rfl, hTally ▸ rfl, hTally ▸ rfl⟩

theorem Simulates.accounts_afterAll (hSimulates : history.Simulates)
    (hConsistent : history.Consistent) (calls : List Call) :
    Accounts history (history.afterAll calls) (history.logAll calls) (history.replays calls)
      (history.handedAll calls) := by
  induction calls generalizing history with
  | nil => exact .refl history
  | cons call calls ih =>
      exact (hSimulates.accounts_after hConsistent call).trans
        (ih (hSimulates.after hConsistent call) (hConsistent.after call))

/-! ### The lines of a run -/

/-- The file of an output that a call ends, as it is then. -/
def endedFile? (history : History) (call : Call) : Option (Array UInt8) :=
  if history.recorder.encoder.isOpen && !(history.after call).recorder.encoder.isOpen then
    (history.after call).recorder.encoder.writer.directory.find?
      history.recorder.settings.fileName
  else none

/-- The files of all outputs as they were when calls in order ended them. The
last output ends with the recorder, which closes it. -/
def outputs (history : History) : List Call → List (Array UInt8)
  | [] => (history.endedFile? .close).toList
  | call :: calls => (history.endedFile? call).toList ++ (history.after call).outputs calls

/-- However an output is ended, its file is left as closing it leaves it. -/
theorem Consistent.directory_ended (hConsistent : history.Consistent)
    (hOpen : history.recorder.encoder.isOpen = true)
    (hEnded : (history.after call).recorder.encoder.isOpen = false) :
    (history.after call).recorder.encoder.writer.directory
      = history.recorder.encoder.close.writer.directory := by
  obtain ⟨name, _, hCarries⟩ := hConsistent.carries hOpen
  have hStep := step_after hConsistent call
  generalize history.after call = next at hStep hEnded
  have hStillOpen {encoder : Encoder} (hStill : encoder.isOpen = true)
      (hClosed : encoder.isOpen = false) : False := by
    rw [hStill] at hClosed
    cases hClosed
  cases hStep with
  | recorded hPlan hOn hEncode =>
      exact (hStillOpen (hCarries.of_encodeAll hEncode).isOpen hEnded).elim
  | resumed hOff _ hEncode =>
      exact (hStillOpen (hCarries.of_encodeAll hEncode).isOpen hEnded).elim
  | begun hOff hClosed hName hBegin hOpened hEncode => exact (hStillOpen hOpen hClosed).elim
  | stopped hOn => exact (hStillOpen ((Encoder.isOpen_flush _).trans hOpen) hEnded).elim
  | flushed => exact (hStillOpen ((Encoder.isOpen_flush _).trans hOpen) hEnded).elim
  | closed | renamed => rfl
  | reformed hOff hOther => exact Encoder.directory_ofForm _ _ _
  | _ => exact (hStillOpen hOpen hEnded).elim

/-- The file of a text output that was ended has a line for everything that was
handed over. -/
theorem Simulates.ended (hSimulates : history.Simulates) (hConsistent : history.Consistent)
    (hText : history.recorder.settings.text = true)
    (hOpen : history.recorder.encoder.isOpen = true)
    (hEnded : (history.after call).recorder.encoder.isOpen = false) :
    ∃ file text, history.endedFile? call = some file ∧ readText? file.toList = some text ∧
      (tellingLines [text]).length = (unversioned history.current).length := by
  obtain ⟨name, hName, hCarries⟩ := hConsistent.carries hOpen
  rw [hText] at hCarries
  obtain ⟨file, hFile, hReads⟩ := hCarries.close
  obtain ⟨rest, hOpening⟩ := hSimulates.opens hOpen
  have hPlain : withoutDefinitions (openingVersion :: rest) = openingVersion :: rest := by
    refine List.filter_eq_self.mpr (List.forall_mem_cons.mpr ⟨rfl, fun command hCommand => ?_⟩)
    have hRest : history.current.tail.map (·.command) = rest := by
      rw [List.map_tail, hOpening]
      rfl
    rw [← hRest] at hCommand
    obtain ⟨entry, hEntry, rfl⟩ := List.mem_map.mp hCommand
    rw [(hSimulates.handed entry hEntry).2]
    rfl
  rw [hOpening] at hReads
  obtain ⟨text, hRead, hLines⟩ := Output.readText?_of_fileReads hReads
  rw [hPlain, ← hOpening] at hLines
  refine ⟨file, text, ?_, hRead, length_tellingLines hLines⟩
  unfold endedFile?
  rw [hOpen, hEnded, Bool.not_false, Bool.and_self, if_pos rfl,
    hConsistent.directory_ended hOpen hEnded, Directory.find?_of_fileName? hName, hFile]

/-- What an open output was handed before a call and what the call hands over is
in the file that the call ends, or has been handed to the output after it. -/
theorem Simulates.lines_after (hSimulates : history.Simulates)
    (hConsistent : history.Consistent) (hText : history.recorder.settings.text = true)
    (call : Call) :
    ∃ texts : List String,
      (history.endedFile? call).toList.map (fun file => readText? file.toList)
        = texts.map some ∧
      (tellingLines texts).length + (unversioned (history.after call).earlier).length
        = (unversioned history.earlier).length
          + (unversioned (history.handedOver call)).length := by
  cases hEnded : (history.after call).recorder.encoder.isOpen with
  | true =>
      refine ⟨[], ?_, ?_⟩
      · unfold endedFile?
        rw [hEnded, Bool.not_true, Bool.and_false]
        rfl
      · rw [earlier_of_open hEnded, current_after, if_pos hEnded, unversioned_append,
          List.length_append]
        exact Nat.zero_add _
  | false =>
      have hNone : history.handedOver call = [] := if_neg (Bool.eq_false_iff.mp hEnded)
      rw [hNone, earlier_of_closed hEnded]
      cases hOpen : history.recorder.encoder.isOpen with
      | true =>
          obtain ⟨file, text, hFile, hRead, hLines⟩ :=
            hSimulates.ended hConsistent hText hOpen hEnded
          rw [hFile, earlier_of_open hOpen, ← hLines]
          exact ⟨[text], congrArg (fun text? => [text?]) hRead, rfl⟩
      | false =>
          refine ⟨[], ?_, ?_⟩
          · unfold endedFile?
            rw [hOpen, Bool.false_and]
            rfl
          · rw [earlier_of_closed hOpen]
            rfl

/-- A text output is followed by a text output, unless the other form is chosen. -/
theorem Consistent.text_kept (hConsistent : history.Consistent)
    (hText : history.recorder.settings.text = true) (hForm : call ≠ .setTextForm false) :
    (history.after call).recorder.settings.text = true := by
  have hStep := step_after hConsistent call
  generalize history.after call = next at hStep
  cases hStep with
  | @reformed text hOff hOther =>
      cases text with
      | true => rfl
      | false => exact absurd rfl hForm
  | _ => exact hText

theorem Simulates.lines_afterAll (hSimulates : history.Simulates)
    (hConsistent : history.Consistent) (hText : history.recorder.settings.text = true)
    {calls : List Call} (hForms : ∀ call ∈ calls, call ≠ .setTextForm false) :
    ∃ texts : List String,
      (history.outputs calls).map (fun file => readText? file.toList) = texts.map some ∧
      (tellingLines texts).length
        = (unversioned history.earlier).length
          + (unversioned (history.handedAll calls)).length := by
  induction calls generalizing history with
  | nil =>
      obtain ⟨texts, hTexts, hLines⟩ := hSimulates.lines_after hConsistent hText .close
      have hClosed : (history.after .close).recorder.encoder.isOpen = false :=
        hConsistent.ready.close.2
      have hNone : history.handedOver .close = [] := if_neg (Bool.eq_false_iff.mp hClosed)
      rw [earlier_of_closed hClosed, hNone] at hLines
      exact ⟨texts, hTexts, hLines⟩
  | cons call calls ih =>
      rw [List.forall_mem_cons] at hForms
      obtain ⟨texts, hTexts, hLines⟩ := hSimulates.lines_after hConsistent hText call
      obtain ⟨later, hLater, hLaterLines⟩ := ih (hSimulates.after hConsistent call)
        (hConsistent.after call) (hConsistent.text_kept hText hForms.1) hForms.2
      refine ⟨texts ++ later, ?_, ?_⟩
      · rw [outputs, List.map_append, List.map_append, hTexts, hLater]
      · rw [handedAll, unversioned_append, tellingLines_append, List.length_append,
          List.length_append]
        omega

/-- The counts account for every command of a run. What is stored is counted as
stored. What is counted as encoded is what all outputs were handed, versions
apart: the dispatches made while on, the lists that were replayed and the items
that were announced. What is counted as dropped are the dispatches made while off
that were not persistent, and the replays are as many as recording was turned on.
In text form the encoded commands are the lines, versions apart, that were ever
written, to all files taken together. -/
theorem tally_accounts (settings : Settings) (directory : Directory) (calls : List Call) :
    let run := start settings directory
    let recorder := (run.afterAll calls).recorder
    let log := run.logAll calls
    recorder.tally.stored = recorder.storedCommands ∧
    recorder.tally.encoded
      = ((run.handedAll calls).filter fun entry => !entry.command.isVersion).length ∧
    recorder.tally.encoded = (log.filter (·.recording)).length
      + ((run.replays calls).map List.length).sum + recorder.tally.replayedItems ∧
    recorder.tally.dropped
      = (log.filter fun entry => !entry.recording && !entry.dispatch.persistent).length ∧
    recorder.tally.replays = (run.replays calls).length ∧
    (settings.text = true → (∀ call ∈ calls, call ≠ .setTextForm false) →
      ∃ texts : List String,
        (run.outputs calls).map (fun file => readText? file.toList) = texts.map some ∧
        ((texts.flatMap linesOf).filter (firstWord · != "version")).length
          = recorder.tally.encoded) := by
  have hConsistent := consistent_start settings directory
  have hSimulates := simulates_start settings directory
  obtain ⟨hStored, hHanded, hDispatched, hDropped, hReplays⟩ :=
    hSimulates.accounts_afterAll hConsistent calls
  have hNew : (start settings directory).recorder.tally = {} := rfl
  have hEmpty : (start settings directory).recorder.storedCommands = 0 := rfl
  rw [hNew] at hStored hHanded hDispatched hDropped hReplays
  rw [hEmpty] at hStored
  dsimp only at hStored hHanded hDispatched hDropped hReplays
  rw [Nat.zero_add] at hStored hHanded hDispatched hDropped hReplays
  refine ⟨hStored, hHanded, hDispatched, hDropped, hReplays, fun hText hForms => ?_⟩
  obtain ⟨texts, hTexts, hLines⟩ := hSimulates.lines_afterAll hConsistent hText hForms
  have hClosed : (start settings directory).recorder.encoder.isOpen = false :=
    Encoder.isOpen_ofForm _ _ _
  rw [earlier_of_closed hClosed] at hLines
  exact ⟨texts, hTexts, (hLines.trans (Nat.zero_add _)).trans hHanded.symm⟩

end Codec

/-- A run with two text files. A node is stored before the first is begun, an item
is announced to it, and a cycle is replayed to it; the second gets all that is
stored. -/
def twoTexts : List Call :=
  [.report (.cycle 1) false, .report (.newItem none) false,
    .report (.newNode { name := "core" } none) true, .turnOn, .report (.cycle 2) true, .turnOff,
    .report (.cycle 3) true, .turnOn, .close, .changeFile "second.txt", .turnOn,
    .report (.cycle 4) false]

theorem tally_accounts_twoTexts :
    let run := start { text := true } {}
    (∀ call ∈ twoTexts, call ≠ .setTextForm false) ∧
    (run.afterAll twoTexts).recorder.tally
      = { encoded := 8, stored := 3, dropped := 2, replayedItems := 1, replays := 3 } ∧
    ∃ texts : List String,
      (run.outputs twoTexts).map (fun file => readText? file.toList) = texts.map some ∧
      ((texts.flatMap linesOf).filter (firstWord · != "version")).length = 8 := by
  have hForms : ∀ call ∈ twoTexts, call ≠ .setTextForm false := by decide
  have hTally : ((start { text := true } {}).afterAll twoTexts).recorder.tally
      = { encoded := 8, stored := 3, dropped := 2, replayedItems := 1, replays := 3 } := by
    decide +kernel
  obtain ⟨_, _, _, _, _, hText⟩ := tally_accounts { text := true } {} twoTexts
  obtain ⟨texts, hTexts, hLines⟩ := hText rfl hForms
  rw [hTally] at hLines
  exact ⟨hForms, hTally, texts, hTexts, hLines⟩

end History
end Recording
end CycleTrace
