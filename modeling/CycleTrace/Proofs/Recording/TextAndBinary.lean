/-
Text files and binary files agree.

A run of calls that keeps the form of the output is taken once with each form.
The recorders are twins all the time, so they give the same answers, open the
same files and hand them the same commands. The text file shows these commands
as lines. The binary file is read back as the same commands apart from the
definitions, which it adds, and the clocked cycles that repeat the one before,
which it leaves out. So the files differ in nothing but these.
-/

import CycleTrace.Lz4.StoredBlocks
import CycleTrace.Proofs.Output.Lines
import CycleTrace.Proofs.Recording.Files
import CycleTrace.Proofs.Recording.Twins

namespace CycleTrace
namespace Recording

open Output (Directory Encoder openingVersion readText? streamBytes)

namespace History

section Codec

variable [Lz4.Codec]

/-- Two histories of twins that have handed the same to their open outputs. -/
structure Twins (first second : History) : Prop where
  recorders : ∃ on isOpen, Recorder.Twins on isOpen first.recorder second.recorder
  current : first.current = second.current

variable {first second : History} {name : String} {call : Call} {calls : List Call}

/-! ### One call -/

theorem Consistent.openName? {history : History} (hConsistent : history.Consistent) :
    history.recorder.encoder.openName?
      = if history.recorder.encoder.isOpen then
          Directory.fileName? history.recorder.settings.fileName
        else none := by
  cases hOpen : history.recorder.encoder.isOpen with
  | false => exact Encoder.openName?_of_closed hOpen
  | true =>
      obtain ⟨file, hFile, hCarries⟩ := hConsistent.carries hOpen
      rw [if_pos rfl, hFile]
      exact hCarries.openName?

theorem Twins.isOpen (hTwins : first.Twins second) :
    first.recorder.encoder.isOpen = second.recorder.encoder.isOpen := by
  obtain ⟨on, isOpen, hRecorders⟩ := hTwins.recorders
  rw [hRecorders.opens.1, hRecorders.opens.2]

theorem Twins.opened? (hTwins : first.Twins second) (call : Call) :
    first.opened? call = second.opened? call := by
  obtain ⟨on, isOpen, hRecorders⟩ := hTwins.recorders
  cases call with
  | turnOn =>
      unfold History.opened?
      dsimp only
      rw [hRecorders.ons.1, hRecorders.ons.2, hTwins.isOpen, hRecorders.fileName]
  | _ => rfl

theorem Twins.handedTo (hTwins : first.Twins second) (hFirst : first.Consistent)
    (hSecond : second.Consistent) (name : String) (commands : List Command) :
    first.handedTo name commands = second.handedTo name commands := by
  obtain ⟨on, isOpen, hRecorders⟩ := hTwins.recorders
  unfold History.handedTo
  rw [hFirst.openName?, hSecond.openName?, hTwins.isOpen, hRecorders.fileName, hTwins.current]

theorem Twins.hands (hTwins : first.Twins second) (call : Call) :
    first.recorder.hands call = second.recorder.hands call := by
  obtain ⟨on, isOpen, hRecorders⟩ := hTwins.recorders
  have hDispatches : first.recorder.dispatchesOf call = second.recorder.dispatchesOf call := by
    cases call with
    | report event persistent =>
        unfold Recorder.dispatchesOf
        dsimp only
        rw [hRecorders.planned]
    | _ => rfl
  cases call with
  | turnOn =>
      unfold Recorder.hands
      dsimp only
      rw [hRecorders.ons.1, hRecorders.ons.2, hTwins.isOpen, hRecorders.store, hRecorders.live]
  | _ =>
      unfold Recorder.hands
      dsimp only
      rw [hRecorders.ons.1, hRecorders.ons.2, hDispatches]

/-- A call that keeps the form of the output is answered alike by twins and
leaves them twins. -/
theorem Twins.after (hTwins : first.Twins second) (hFirst : first.Consistent)
    (hSecond : second.Consistent) (hForm : ∀ text, call ≠ .setTextForm text) :
    Recorder.answer (Recorder.perform call first.recorder)
      = Recorder.answer (Recorder.perform call second.recorder) ∧
    (first.after call).Twins (second.after call) := by
  obtain ⟨on, isOpen, hRecorders⟩ := hTwins.recorders
  have hOpen : on = true → isOpen = true := by
    intro hOn
    rw [← hRecorders.opens.1]
    exact hFirst.isOpen (hRecorders.ons.1.trans hOn)
  obtain ⟨hAnswer, onAfter, isOpenAfter, hAfter⟩ :=
    hRecorders.perform hFirst.ready hSecond.ready hOpen hForm
  refine ⟨hAnswer, ⟨onAfter, isOpenAfter, hAfter⟩, ?_⟩
  unfold History.after
  dsimp only
  rw [hAfter.opens.1, hAfter.opens.2, hTwins.isOpen, hTwins.current, hTwins.hands]

/-! ### Runs -/

theorem Twins.afterAll (hTwins : first.Twins second) (hFirst : first.Consistent)
    (hSecond : second.Consistent)
    (hForms : ∀ call ∈ calls, ∀ text, call ≠ .setTextForm text) :
    first.recorder.answers calls = second.recorder.answers calls ∧
    (first.afterAll calls).Twins (second.afterAll calls) := by
  induction calls generalizing first second with
  | nil => exact ⟨rfl, hTwins⟩
  | cons call calls ih =>
      rw [List.forall_mem_cons] at hForms
      obtain ⟨hAnswer, hAfter⟩ := hTwins.after hFirst hSecond hForms.1
      obtain ⟨hAnswers, hAll⟩ := ih hAfter (hFirst.after call) (hSecond.after call) hForms.2
      exact ⟨congrArg₂ List.cons hAnswer hAnswers, hAll⟩

theorem Twins.lastHanded (hTwins : first.Twins second) (hFirst : first.Consistent)
    (hSecond : second.Consistent) (hForms : ∀ call ∈ calls, ∀ text, call ≠ .setTextForm text)
    (name : String) (commands : List Command) :
    first.lastHanded name commands calls = second.lastHanded name commands calls := by
  induction calls generalizing first second commands with
  | nil => rfl
  | cons call calls ih =>
      rw [List.forall_mem_cons] at hForms
      have hAfter := (hTwins.after hFirst hSecond hForms.1).2
      have hFirstAfter := hFirst.after call
      have hSecondAfter := hSecond.after call
      rw [History.lastHanded, History.lastHanded, hAfter.handedTo hFirstAfter hSecondAfter]
      exact ih hAfter hFirstAfter hSecondAfter hForms.2 _

/-- The form of the output is kept. -/
theorem text_after {history : History} (hConsistent : history.Consistent)
    (hForm : ∀ text, call ≠ .setTextForm text) :
    (history.after call).recorder.settings.text = history.recorder.settings.text := by
  have hStep := step_after hConsistent call
  generalize history.after call = next at hStep
  cases hStep with
  | @reformed text hOff hOther => exact absurd rfl (hForm text)
  | _ => rfl

/-- Twins open the same files, each in its own form. -/
theorem Twins.lastForm? (hTwins : first.Twins second) (hFirst : first.Consistent)
    (hSecond : second.Consistent) (hForms : ∀ call ∈ calls, ∀ text, call ≠ .setTextForm text)
    (name : String) :
    (first.lastForm? name calls = none ∧ second.lastForm? name calls = none) ∨
    (first.lastForm? name calls = some first.recorder.settings.text ∧
      second.lastForm? name calls = some second.recorder.settings.text) := by
  induction calls generalizing first second with
  | nil => exact .inl ⟨rfl, rfl⟩
  | cons call calls ih =>
      rw [List.forall_mem_cons] at hForms
      rw [History.lastForm?, History.lastForm?, hTwins.opened?]
      -- a later opening counts; without one it is this call that opens the file or not
      rcases ih (hTwins.after hFirst hSecond hForms.1).2 (hFirst.after call)
        (hSecond.after call) hForms.2 with ⟨hFirstLater, hSecondLater⟩ |
        ⟨hFirstLater, hSecondLater⟩
      · rw [hFirstLater, hSecondLater, Option.none_or, Option.none_or]
        by_cases hOpens : second.opened? call = some name
        · rw [if_pos hOpens, if_pos hOpens]
          exact .inr ⟨rfl, rfl⟩
        · rw [if_neg hOpens, if_neg hOpens]
          exact .inl ⟨rfl, rfl⟩
      · rw [hFirstLater, hSecondLater, text_after hFirst hForms.1, text_after hSecond hForms.1]
        exact .inr ⟨rfl, rfl⟩

theorem twins_start {textSettings binarySettings : Settings}
    (hCommon : textSettings.common = binarySettings.common)
    (textDirectory binaryDirectory : Directory) :
    (start textSettings textDirectory).Twins (start binarySettings binaryDirectory) := by
  have hTraffic : textSettings.trackTraffic = binarySettings.trackTraffic :=
    congrArg (·.2.2) hCommon
  refine ⟨⟨false, false, ⟨rfl, rfl⟩, ⟨Encoder.isOpen_ofForm _ _ _, Encoder.isOpen_ofForm _ _ _⟩,
    hCommon, ?_, rfl, rfl, rfl⟩, rfl⟩
  unfold start Recorder.ofSettings
  dsimp only
  rw [hTraffic]

/-! ### Files -/

/-- The lines of a text file are those that a binary file with the same commands
is listed with, but for the definitions and the repeated clocked cycles. -/
theorem lines_agree {textContent binaryContent : List UInt8} {textPacked binaryPacked : Bool}
    {commands : List Command} (hFits : ∀ command ∈ commands, command.FitsWire)
    (hText : Output.Writer.FileReads textContent textPacked
      (streamBytes true (openingVersion :: commands)))
    (hBinary : Output.Writer.FileReads binaryContent binaryPacked
      (streamBytes false (openingVersion :: commands))) :
    ∃ text decoded, readText? textContent = some text ∧
      Inspection.readTrace binaryContent = .ok decoded ∧
      dropRepeatedLines none (linesOf text) = (withoutDefinitions decoded).map Command.render := by
  obtain ⟨text, hRead, hLines⟩ := Output.readText?_of_fileReads hText
  obtain ⟨decoded, hDecode, hDecoded⟩ := Output.BinaryStream.decode_emitAll hFits
  refine ⟨text, decoded, hRead, (Output.readTrace_of_fileReads hBinary).trans hDecode, ?_⟩
  have hDropped := dropRepeatedLines_render none (withoutDefinitions (openingVersion :: commands))
  rw [hLines, hDecoded]
  exact hDropped

/-- What twins leave in a file that both have opened, one in each form. -/
theorem Twins.opened_files (hTwins : first.Twins second) (hFirst : first.Sound)
    (hSecond : second.Sound) (hFirstWithin : first.Within) (hSecondWithin : second.Within)
    (hModerate : ∀ call ∈ calls, call.Moderate)
    (hForms : ∀ call ∈ calls, ∀ text, call ≠ .setTextForm text)
    (hText : first.lastForm? name calls = some true)
    (hBinary : second.lastForm? name calls = some false) {path : String}
    (hPath : Directory.fileName? path = some name) :
    ∃ textFile binaryFile text decoded,
      (first.afterAll calls).recorder.finalDirectory.find? path = some textFile ∧
      readText? textFile.toList = some text ∧
      (second.afterAll calls).recorder.finalDirectory.find? path = some binaryFile ∧
      Inspection.readTrace binaryFile.toList = .ok decoded ∧
      dropRepeatedLines none (linesOf text) = (withoutDefinitions decoded).map Command.render := by
  obtain ⟨textFile, textPacked, commands, hTextFile, hTextReads, hCommands, hFits⟩ :=
    filed_gone hFirst hFirstWithin hModerate hText
  obtain ⟨binaryFile, binaryPacked, _, hBinaryFile, hBinaryReads, _⟩ :=
    filed_gone hSecond hSecondWithin hModerate hBinary
  -- both files were handed the same
  have hSame := hTwins.lastHanded hFirst.consistent hSecond.consistent hForms name []
  rw [← hSame, hCommands] at hBinaryReads
  rw [hCommands] at hTextReads
  obtain ⟨text, decoded, hRead, hDecoded, hLines⟩ := lines_agree hFits hTextReads hBinaryReads
  exact ⟨textFile, binaryFile, text, decoded,
    (Directory.find?_of_fileName? hPath).trans hTextFile, hRead,
    (Directory.find?_of_fileName? hPath).trans hBinaryFile, hDecoded, hLines⟩

/-- A run of calls that keeps the form of the output, once in text form and once
in binary form, with any compression and any buffer. All calls are answered
alike, and at every moment the recorders tell the same. In the end a file is
either left alone by both runs or opened by both. Then the lines of the text
file, without the lines that repeat the clocked cycle before, are the lines of
the commands of the binary file without the definitions, which is what a listing
of the binary file prints apart from the lines that define something. -/
theorem text_binary_agree {textSettings binarySettings : Settings}
    (hText : textSettings.text = true) (hBinary : binarySettings.text = false)
    (hCommon : textSettings.common = binarySettings.common)
    (textDirectory binaryDirectory : Directory) {calls : List Call}
    (hModerate : ∀ call ∈ calls, call.Moderate)
    (hForms : ∀ call ∈ calls, ∀ text, call ≠ .setTextForm text) :
    let textRun := start textSettings textDirectory
    let binaryRun := start binarySettings binaryDirectory
    textRun.recorder.answers calls = binaryRun.recorder.answers calls ∧
    (∀ earlier, earlier <+: calls →
      (textRun.afterAll earlier).recorder.view = (binaryRun.afterAll earlier).recorder.view) ∧
    ∀ path name, Directory.fileName? path = some name →
      let textFile? := (textRun.afterAll calls).recorder.finalDirectory.find? path
      let binaryFile? := (binaryRun.afterAll calls).recorder.finalDirectory.find? path
      (textRun.lastForm? name calls = none ∧ binaryRun.lastForm? name calls = none ∧
        textFile? = textDirectory.find? path ∧ binaryFile? = binaryDirectory.find? path) ∨
      (textRun.lastForm? name calls = some true ∧ binaryRun.lastForm? name calls = some false ∧
        ∃ textFile binaryFile text decoded listed,
          textFile? = some textFile ∧ readText? textFile.toList = some text ∧
          binaryFile? = some binaryFile ∧
          Inspection.readTrace binaryFile.toList = .ok decoded ∧
          (∀ time, Inspection.list false none (some ⟨path, binaryFile.toList, time⟩)
            = .ok listed) ∧
          dropRepeatedLines none (linesOf text)
            = (withoutDefinitions decoded).map Command.render ∧
          dropRepeatedLines none (linesOf text)
            = (linesOf listed).filter fun line => !isDefinitionLine line) := by
  intro textRun binaryRun
  have hTwins : textRun.Twins binaryRun := twins_start hCommon textDirectory binaryDirectory
  have hTextSound := sound_start textSettings textDirectory
  have hBinarySound := sound_start binarySettings binaryDirectory
  have hTextConsistent := hTextSound.consistent
  have hBinaryConsistent := hBinarySound.consistent
  refine ⟨(hTwins.afterAll hTextConsistent hBinaryConsistent hForms).1, ?_, ?_⟩
  · rintro earlier ⟨later, rfl⟩
    have hEarlier := (hTwins.afterAll hTextConsistent hBinaryConsistent fun call hCall =>
      hForms call (List.mem_append_left later hCall)).2
    obtain ⟨on, isOpen, hRecorders⟩ := hEarlier.recorders
    exact hRecorders.view
  · intro path name hPath textFile? binaryFile?
    rcases hTwins.lastForm? hTextConsistent hBinaryConsistent hForms name with
      ⟨hTextNever, hBinaryNever⟩ | ⟨hTextForm, hBinaryForm⟩
    · exact .inl ⟨hTextNever, hBinaryNever,
        unopened_gone textSettings textDirectory hPath hTextNever,
        unopened_gone binarySettings binaryDirectory hPath hBinaryNever⟩
    · have hTextForm : textRun.lastForm? name calls = some true :=
        hTextForm.trans (congrArg some hText)
      have hBinaryForm : binaryRun.lastForm? name calls = some false :=
        hBinaryForm.trans (congrArg some hBinary)
      obtain ⟨textFile, binaryFile, text, decoded, hTextFile, hRead, hBinaryFile, hDecoded,
        hLines⟩ := hTwins.opened_files hTextSound hBinarySound
          (within_start textSettings textDirectory) (within_start binarySettings binaryDirectory)
          hModerate hForms hTextForm hBinaryForm hPath
      have hListed : dropRepeatedLines none (linesOf text)
          = (linesOf (Inspection.linesText (decoded.map Command.render))).filter
              fun line => !isDefinitionLine line := by
        rw [hLines, Inspection.linesOf_linesText onOneLine_of_mem_render, filter_render]
      exact .inr ⟨hTextForm, hBinaryForm, textFile, binaryFile, text, decoded, _, hTextFile, hRead,
        hBinaryFile, hDecoded, fun time => Inspection.list_of_readTrace hDecoded, hLines, hListed⟩

end Codec

/-- Settings for a compressed text file. -/
def textLog : Settings :=
  { fileName := "run.log", text := true, compressed := true }

/-- Settings for a plain binary file that is written through a small buffer. -/
def binaryLog : Settings :=
  { fileName := "run.log", bufferBytes := 16 }

/-- Calls after which the replay repeats a clocked cycle, for the one in between
is not stored. -/
def repeatedCycle : List Call :=
  [.report (.newClock { frequency := 100, name := "core\nclock" }) true,
    .report (.clockedCycle ⟨0, 5, .high⟩) true, .report (.clockedCycle ⟨0, 5, .low⟩) false,
    .report (.clockedCycle ⟨0, 5, .high⟩) true, .turnOn,
    .report (.tagCycle "op" (.text "load")) false]

theorem text_binary_agree_repeatedCycle :
    ∃ textFile binaryFile text decoded,
      ((start textLog {}).afterAll repeatedCycle).recorder.finalDirectory.find? "./run.log"
        = some textFile ∧ readText? textFile.toList = some text ∧
      ((start binaryLog {}).afterAll repeatedCycle).recorder.finalDirectory.find? "./run.log"
        = some binaryFile ∧ Inspection.readTrace binaryFile.toList = .ok decoded ∧
      dropRepeatedLines none (linesOf text)
        = (withoutDefinitions decoded).map Command.render := by
  have hCommon : textLog.common = binaryLog.common := rfl
  have hModerate : ∀ call ∈ repeatedCycle, call.Moderate := by decide
  have hForms : ∀ call ∈ repeatedCycle, ∀ text, call ≠ .setTextForm text := by decide
  have hPath : Directory.fileName? "./run.log" = some "run.log" := by decide +kernel
  have hOpened : (start textLog {}).lastForm? "run.log" repeatedCycle = some true := by
    decide +kernel
  obtain ⟨_, _, hFiles⟩ := text_binary_agree rfl rfl hCommon {} {} hModerate hForms
  rcases hFiles "./run.log" "run.log" hPath with ⟨hNever, _⟩ | ⟨_, _, textFile, binaryFile, text,
    decoded, _, hTextFile, hText, hBinaryFile, hDecoded, _, hLines, _⟩
  · rw [hOpened] at hNever
    cases hNever
  · exact ⟨textFile, binaryFile, text, decoded, hTextFile, hText, hBinaryFile, hDecoded, hLines⟩

end History
end Recording
end CycleTrace
