/-
What was recorded can be read.

A file is opened when recording is turned on without an open output, and may be
opened again later, in the other form or through another path. What counts is
its last opening. From then on the file is either the open output, which
carries what it was handed, or it was closed and keeps its bytes. As all
commands are within the limits, a file that was last opened in binary form is
read without a fault once the recorder is gone, and what is read is what it was
handed.
-/

import CycleTrace.Lz4.StoredBlocks
import CycleTrace.Proofs.Output.Neighbors
import CycleTrace.Proofs.Output.RoundTrip
import CycleTrace.Proofs.Recording.Permitted

namespace CycleTrace
namespace Recording

open Output (Directory Encoder Writer openingVersion streamBytes stateAfter_of_ok)

namespace History

section Codec

variable [Lz4.Codec]

/-- The name of the file that a call opens. -/
def opened? (history : History) : Call → Option String
  | .turnOn =>
      if history.recorder.on || history.recorder.encoder.isOpen then none
      else Directory.fileName? history.recorder.settings.fileName
  | _ => none

/-- The form that a file had when calls opened it last: text or not. -/
def lastForm? (name : String) (history : History) : List Call → Option Bool
  | [] => none
  | call :: calls =>
      ((history.after call).lastForm? name calls).or
        (if history.opened? call = some name then some history.recorder.settings.text else none)

/-- What a file was handed, where it had been handed some commands before: the
open output knows what it was handed. -/
def handedTo (name : String) (commands : List Command) (history : History) : List Command :=
  if history.recorder.encoder.openName? = some name then history.current.map (·.command)
  else commands

/-- What a file was handed since calls opened it last. -/
def lastHanded (name : String) (commands : List Command) (history : History) :
    List Call → List Command
  | [] => commands
  | call :: calls =>
      (history.after call).lastHanded name ((history.after call).handedTo name commands) calls

/-- A file that is not the open output, with its content if there is one. -/
structure Rests (history : History) (name : String) (content? : Option (Array UInt8)) : Prop where
  other : history.recorder.encoder.openName? ≠ some name
  file : history.recorder.encoder.writer.directory.files[name]? = content?

/-- Where a file stands that was opened: it is the open output, or it was closed
and reads as the stream of what it was handed, within the limits. -/
inductive Filed (history : History) (name : String) (text : Bool) (commands : List Command) : Prop
  | growing (hName : history.recorder.encoder.openName? = some name)
      (hForm : history.recorder.settings.text = text)
      (hHanded : commands = history.current.map (·.command))
  | finished {content : Array UInt8} {compressed : Bool} {later : List Command}
      (hRests : history.Rests name (some content))
      (hReads : Writer.FileReads content.toList compressed (streamBytes text commands))
      (hOpening : commands = openingVersion :: later)
      (hFits : ∀ command ∈ later, command.FitsWire)

variable {history next : History} {name : String} {text : Bool} {commands : List Command}
  {content? : Option (Array UInt8)}

/-! ### Files that are not open -/

theorem Rests.goesOn (hRests : history.Rests name content?)
    (hGoesOn : history.recorder.encoder.writer.GoesOn next.recorder.encoder.writer) :
    next.Rests name content? := by
  have hSame : next.recorder.encoder.openName? = history.recorder.encoder.openName? :=
    hGoesOn.name
  exact ⟨hSame.symm ▸ hRests.other, (hGoesOn.spares name hRests.other).trans hRests.file⟩

theorem Rests.closed (hRests : history.Rests name content?)
    (hClosed : next.recorder.encoder.isOpen = false)
    (hDirectory : next.recorder.encoder.writer.directory
      = history.recorder.encoder.close.writer.directory) : next.Rests name content? := by
  refine ⟨Encoder.openName?_ne_of_closed hClosed name, ?_⟩
  rw [hDirectory, Encoder.spares_close _ name hRests.other]
  exact hRests.file

theorem opened?_turnOn (hOff : history.recorder.on = false)
    (hClosed : history.recorder.encoder.isOpen = false) :
    history.opened? .turnOn = Directory.fileName? history.recorder.settings.fileName := by
  unfold opened?
  dsimp only
  rw [hOff, hClosed]
  rfl

theorem opened?_eq_some {call : Call} (hOpened : history.opened? call = some name) :
    call = .turnOn ∧ history.recorder.on = false ∧ history.recorder.encoder.isOpen = false ∧
      Directory.fileName? history.recorder.settings.fileName = some name := by
  cases call with
  | turnOn =>
      cases hOn : history.recorder.on with
      | true =>
          rw [opened?, hOn] at hOpened
          cases hOpened
      | false =>
          cases hOpen : history.recorder.encoder.isOpen with
          | true =>
              rw [opened?, hOn, hOpen] at hOpened
              cases hOpened
          | false =>
              rw [opened?_turnOn hOn hOpen] at hOpened
              exact ⟨rfl, rfl, rfl, hOpened⟩
  | _ => cases hOpened

/-- A call that does not open the file leaves it as it is. -/
theorem Rests.after (hRests : history.Rests name content?) (hConsistent : history.Consistent)
    {call : Call} (hOther : history.opened? call ≠ some name) :
    (history.after call).Rests name content? := by
  have hStep := step_after hConsistent call
  generalize history.after call = next at hStep
  have hClosed := hConsistent.ready.close.2
  cases hStep with
  | recorded hPlan hOn hEncode =>
      exact hRests.goesOn (Encoder.goesOn_encodeAll (hConsistent.isOpen hOn) hEncode)
  | noted hPlan hOff => exact hRests.goesOn (.refl _)
  | idle hNothing => exact hRests.goesOn (.refl _)
  | resumed hOff hOpen hEncode => exact hRests.goesOn (Encoder.goesOn_encodeAll hOpen hEncode)
  | @begun encoder begun tally file hOff hNone hName hBegin hBegun hEncode =>
      rw [opened?_turnOn hOff hNone, hName] at hOther
      have hDifferent : file ≠ name := fun hSame => hOther (congrArg some hSame)
      have hGoesOn := Encoder.goesOn_encodeAll hBegun.isOpen hEncode
      have hBegunName : begun.writer.openName? ≠ some name := by
        change begun.openName? ≠ some name
        rw [hBegun.openName?]
        exact hOther
      refine ⟨?_, ?_⟩
      · change encoder.writer.openName? ≠ some name
        rw [hGoesOn.name]
        exact hBegunName
      · change encoder.writer.directory.files[name]? = _
        rw [hGoesOn.spares name hBegunName,
          Encoder.spares_beginFile hNone hName hBegin hDifferent]
        exact hRests.file
  | stopped hOn => exact hRests.goesOn (Encoder.goesOn_flush _)
  | flushed => exact hRests.goesOn (Encoder.goesOn_flush _)
  | closed => exact hRests.closed hClosed rfl
  | renamed hOff => exact hRests.closed hClosed rfl
  | reformed hOff hDifferent =>
      exact hRests.closed (Encoder.isOpen_ofForm _ _ _) (Encoder.directory_ofForm _ _ _)
  | attached => exact hRests.goesOn (.refl _)

theorem Rests.afterAll (hRests : history.Rests name content?) (hConsistent : history.Consistent)
    {calls : List Call} (hNever : history.lastForm? name calls = none) :
    (history.afterAll calls).Rests name content? := by
  induction calls generalizing history with
  | nil => exact hRests
  | cons call calls ih =>
      rw [lastForm?, Option.or_eq_none_iff] at hNever
      have hOther : history.opened? call ≠ some name := by
        intro hOpens
        rw [if_pos hOpens] at hNever
        exact nomatch hNever.2
      exact ih (hRests.after hConsistent hOther) (hConsistent.after call) hNever.1

theorem rests_start (settings : Settings) (directory : Directory) (name : String) :
    (start settings directory).Rests name directory.files[name]? := by
  have hClosed : (start settings directory).recorder.encoder.isOpen = false :=
    Encoder.isOpen_ofForm settings.text settings.bufferBytes directory
  exact ⟨Encoder.openName?_ne_of_closed hClosed name,
    congrArg (·.files[name]?) (Encoder.directory_ofForm _ _ directory)⟩

/-- A run leaves the files alone that it does not open. -/
theorem unopened_gone (settings : Settings) (directory : Directory) {calls : List Call}
    {path : String} (hPath : Directory.fileName? path = some name)
    (hNever : (start settings directory).lastForm? name calls = none) :
    ((start settings directory).afterAll calls).recorder.finalDirectory.find? path
      = directory.find? path := by
  have hRests := (rests_start settings directory name).afterAll
    (consistent_start settings directory) hNever
  rw [Directory.find?_of_fileName? hPath, Directory.find?_of_fileName? hPath]
  exact (Encoder.spares_close _ name hRests.other).trans hRests.file

/-! ### Files that were opened -/

theorem handedTo_of_other (hOther : history.recorder.encoder.openName? ≠ some name) :
    history.handedTo name commands = commands :=
  if_neg hOther

theorem handedTo_of_open (hName : history.recorder.encoder.openName? = some name) :
    history.handedTo name commands = history.current.map (·.command) :=
  if_pos hName

theorem filed_growing (hName : history.recorder.encoder.openName? = some name)
    (hForm : history.recorder.settings.text = text) :
    history.Filed name text (history.handedTo name commands) :=
  .growing hName hForm (handedTo_of_open hName)

theorem Filed.goesOn (hFiled : history.Filed name text commands)
    (hGoesOn : history.recorder.encoder.writer.GoesOn next.recorder.encoder.writer)
    (hSettings : next.recorder.settings = history.recorder.settings) :
    next.Filed name text (next.handedTo name commands) := by
  cases hFiled with
  | growing hName hForm hHanded =>
      have hSame : next.recorder.encoder.openName? = history.recorder.encoder.openName? :=
        hGoesOn.name
      exact filed_growing (hSame.trans hName) ((congrArg Settings.text hSettings).trans hForm)
  | finished hRests hReads hOpening hFits =>
      have hNext := hRests.goesOn hGoesOn
      rw [handedTo_of_other hNext.other]
      exact .finished hNext hReads hOpening hFits

/-- A file that is closed reads as what it was handed. -/
theorem Filed.closed (hFiled : history.Filed name text commands)
    (hConsistent : history.Consistent) (hWithin : history.Within)
    (hClosed : next.recorder.encoder.isOpen = false)
    (hDirectory : next.recorder.encoder.writer.directory
      = history.recorder.encoder.close.writer.directory) :
    next.Filed name text (next.handedTo name commands) := by
  have hNone : next.recorder.encoder.openName? ≠ some name :=
    Encoder.openName?_ne_of_closed hClosed name
  rw [handedTo_of_other hNone]
  cases hFiled with
  | growing hName hForm hHanded =>
      have hOpen := Encoder.isOpen_of_openName? hName
      obtain ⟨file, _, hCarries⟩ := hConsistent.carries hOpen
      have hSame : file = name := Option.some.inj (hCarries.openName?.symm.trans hName)
      subst hSame hForm
      obtain ⟨content, hFile, hReads⟩ := hCarries.close
      obtain ⟨later, hLater⟩ := hWithin.opens hOpen
      refine .finished ⟨hNone, hDirectory ▸ hFile⟩ (hHanded ▸ hReads) (hHanded.trans hLater) ?_
      intro command hMember
      have hHandedOver := hWithin.handed
      rw [hLater] at hHandedOver
      exact (hWithin.destined command
        (hHandedOver (List.mem_cons_of_mem _ hMember))).limits.fitsWire
  | finished hRests hReads hOpening hFits =>
      exact .finished (hRests.closed hClosed hDirectory) hReads hOpening hFits

theorem filed_opened (hConsistent : history.Consistent) {call : Call}
    (hOpened : history.opened? call = some name) :
    (history.after call).Filed name history.recorder.settings.text
      ((history.after call).handedTo name commands) := by
  obtain ⟨rfl, hOff, hClosed, hName⟩ := opened?_eq_some hOpened
  obtain ⟨begun, hBegin, hBegun⟩ :=
    hConsistent.ready.beginFile hName history.recorder.settings.compressed
  obtain ⟨encoder, tally, hTurnOn, hEncode⟩ :=
    Recorder.turnOn_begin hOff hClosed hBegin hBegun.isOpen
  rw [after_of_state (stateAfter_of_ok hTurnOn)]
  exact filed_growing (hBegun.of_encodeAll hEncode).openName? rfl

/-- A call that does not open the file again leaves it where it stands, or
closes it. -/
theorem Filed.after (hFiled : history.Filed name text commands)
    (hConsistent : history.Consistent) (hWithin : history.Within) {call : Call}
    (hOther : history.opened? call ≠ some name) :
    (history.after call).Filed name text ((history.after call).handedTo name commands) := by
  have hStep := step_after hConsistent call
  have hRestsAfter {content? : Option (Array UInt8)} (hRests : history.Rests name content?) :
      (history.after call).Rests name content? := hRests.after hConsistent hOther
  generalize history.after call = next at hStep hRestsAfter
  have hClosed := hConsistent.ready.close.2
  cases hStep with
  | recorded hPlan hOn hEncode =>
      exact hFiled.goesOn (Encoder.goesOn_encodeAll (hConsistent.isOpen hOn) hEncode) rfl
  | noted hPlan hOff => exact hFiled.goesOn (.refl _) rfl
  | idle hNothing => exact hFiled.goesOn (.refl _) rfl
  | resumed hOff hOpen hEncode => exact hFiled.goesOn (Encoder.goesOn_encodeAll hOpen hEncode) rfl
  | begun hOff hNone hName hBegin hBegun hEncode =>
      cases hFiled with
      | growing hGrows hForm hHanded =>
          exact absurd hGrows (Encoder.openName?_ne_of_closed hNone name)
      | finished hRests hReads hOpening hFits =>
          rw [handedTo_of_other (hRestsAfter hRests).other]
          exact .finished (hRestsAfter hRests) hReads hOpening hFits
  | stopped hOn => exact hFiled.goesOn (Encoder.goesOn_flush _) rfl
  | flushed => exact hFiled.goesOn (Encoder.goesOn_flush _) rfl
  | closed => exact hFiled.closed hConsistent hWithin hClosed rfl
  | renamed hOff => exact hFiled.closed hConsistent hWithin hClosed rfl
  | reformed hOff hDifferent =>
      exact hFiled.closed hConsistent hWithin (Encoder.isOpen_ofForm _ _ _)
        (Encoder.directory_ofForm _ _ _)
  | attached => exact hFiled.goesOn (.refl _) rfl

theorem filed_afterAll (hSound : history.Sound) (hWithin : history.Within) {calls : List Call}
    (hModerate : ∀ call ∈ calls, call.Moderate) {before : Option Bool}
    (hBefore : ∀ form, before = some form → history.Filed name form commands)
    (hLast : (history.lastForm? name calls).or before = some text) :
    (history.afterAll calls).Filed name text (history.lastHanded name commands calls) := by
  induction calls generalizing history before commands with
  | nil =>
      rw [lastForm?, Option.none_or] at hLast
      exact hBefore text hLast
  | cons call calls ih =>
      rw [List.forall_mem_cons] at hModerate
      rw [lastForm?, Option.or_assoc] at hLast
      -- the form before the other calls is that of this call if it opens the file, and else
      -- that of the calls before it
      refine ih (hSound.after call) (hWithin.after hSound hModerate.1) hModerate.2 ?_ hLast
      intro form hForm
      by_cases hOpens : history.opened? call = some name
      · rw [if_pos hOpens, Option.some_or] at hForm
        cases hForm
        exact filed_opened hSound.consistent hOpens
      · rw [if_neg hOpens, Option.none_or] at hForm
        exact (hBefore form hForm).after hSound.consistent hWithin hOpens

/-- Once the recorder is gone, a file that was opened reads as what it was
handed since its last opening. -/
theorem filed_gone (hSound : history.Sound) (hWithin : history.Within) {calls : List Call}
    (hModerate : ∀ call ∈ calls, call.Moderate)
    (hLast : history.lastForm? name calls = some text) :
    ∃ content compressed later,
      (history.afterAll calls).recorder.finalDirectory.files[name]? = some content ∧
      Writer.FileReads content.toList compressed
        (streamBytes text (history.lastHanded name [] calls)) ∧
      history.lastHanded name [] calls = openingVersion :: later ∧
      ∀ command ∈ later, command.FitsWire := by
  have hNew : ∀ form, (none : Option Bool) = some form → history.Filed name form [] :=
    fun form hForm => nomatch hForm
  have hFiled : (history.afterAll calls).Filed name text (history.lastHanded name [] calls) :=
    filed_afterAll hSound hWithin hModerate hNew (Option.or_none.trans hLast)
  have hConsistent := hSound.consistent.afterAll calls
  have hClosed : ((history.afterAll calls).after .close).recorder.encoder.isOpen = false :=
    hConsistent.ready.close.2
  have hNone : ((history.afterAll calls).after .close).recorder.encoder.openName? ≠ some name :=
    Encoder.openName?_ne_of_closed hClosed name
  have hNotOpened : (history.afterAll calls).opened? .close ≠ some name :=
    (Option.some_ne_none name).symm
  have hClosing := hFiled.after hConsistent (hWithin.afterAll hSound hModerate) hNotOpened
  rw [handedTo_of_other hNone] at hClosing
  cases hClosing with
  | growing hName hForm hHanded => exact absurd hName hNone
  | finished hRests hReads hOpening hFits => exact ⟨_, _, _, hRests.file, hReads, hOpening, hFits⟩

/-- Whatever a recorder writes can be read back. At every moment of a run, all
that the output was handed and all that is stored is within the limits, names
no item 0 and keeps to the bandwidths of the edges. When the recorder is gone,
every file that was last opened in binary form is read, compressed or not, as
what it was handed since then: the version and the commands in order, but for
definitions and the repetitions of clocked cycles. -/
theorem recorded_readable (settings : Settings) (directory : Directory) {calls : List Call}
    (hModerate : ∀ call ∈ calls, call.Moderate) :
    (∀ earlier, earlier <+: calls →
      let history := (start settings directory).afterAll earlier
      ∀ command, command ∈ history.current.map (·.command) ∨
          command ∈ history.recorder.store.all.toList →
        command.Permitted history.topology ∧ command.FitsWire) ∧
    ∀ path name, Directory.fileName? path = some name →
      (start settings directory).lastForm? name calls = some false →
      ∃ decoded later, Inspection.readTraceAt
          ((start settings directory).afterAll calls).recorder.finalDirectory path
            = .ok decoded ∧
        (start settings directory).lastHanded name [] calls = openingVersion :: later ∧
        withoutDefinitions decoded
          = openingVersion :: dropRepeatedCycles none (withoutDefinitions later) := by
  have hSound := sound_start settings directory
  have hWithin := within_start settings directory
  refine ⟨?_, ?_⟩
  · rintro earlier ⟨later, rfl⟩ history command hMember
    have hEarlier : history.Within := hWithin.afterAll hSound fun call hCall =>
      hModerate call (List.mem_append_left later hCall)
    have hPermitted : command.Permitted history.topology := by
      rcases hMember with hHanded | hStored
      · exact hEarlier.destined command (hEarlier.handed hHanded)
      · exact hEarlier.stored command hStored
    exact ⟨hPermitted, hPermitted.limits.fitsWire⟩
  · intro path name hPath hLast
    obtain ⟨content, compressed, later, hFile, hReads, hOpening, hFits⟩ :=
      filed_gone hSound hWithin hModerate hLast
    obtain ⟨decoded, hDecode, hDecoded⟩ := Output.BinaryStream.decode_emitAll hFits
    refine ⟨decoded, later, ?_, hOpening, hDecoded⟩
    unfold Inspection.readTraceAt
    rw [Directory.find?_of_fileName? hPath, hFile]
    rw [hOpening] at hReads
    exact (Output.readTrace_of_fileReads hReads).trans hDecode

end Codec

/-- Calls that record an item on its way over an edge in a compressed file, and
go on in a text file. -/
def twoForms : List Call :=
  [.report (.newNode { name := "core", autoflush := true } none) true,
    .report (.setLayout 0 [2]) true,
    .report (.newEdge { source := 0, destination := 0, name := "loop" } none) true, .turnOn,
    .report (.newItem none) false, .report (.enterNode 0 1 [1]) false,
    .report (.moveItems 0 [1] [0]) false, .report (.comment 1 "first") false,
    .report (.cycle 1) false, .report (.cycle 2) false, .turnOff, .changeFile "./log.txt",
    .setTextForm true, .turnOn, .report (.startActivity 2) false]

theorem recorded_readable_twoForms :
    (start { fileName := "run.ptr", compressed := true } {}).lastForm? "log.txt" twoForms
      = some true ∧
    (start { fileName := "run.ptr", compressed := true } {}).lastForm? "run.ptr" twoForms
      = some false ∧
    ∃ decoded, Inspection.readTraceAt
        ((start { fileName := "run.ptr", compressed := true } {}).afterAll
          twoForms).recorder.finalDirectory "./run.ptr" = .ok decoded ∧
      withoutDefinitions decoded = [openingVersion, .newNode 0 "core" none 0, .setLayout 0 [2],
        .newEdge 0 0 0 1 1 "loop", .newItem 1, .enterNode 0 1 [1], .moveItems 0 [1] [0],
        .comment 1 "first", .cycle 1, .exitNode 0 1 [1], .cycle 2] := by
  have hModerate : ∀ call ∈ twoForms, call.Moderate := by decide
  have hPath : Directory.fileName? "./run.ptr" = some "run.ptr" := by decide +kernel
  have hLast : (start { fileName := "run.ptr", compressed := true } {}).lastForm? "run.ptr"
      twoForms = some false := by decide +kernel
  have hReadable := recorded_readable { fileName := "run.ptr", compressed := true } {} hModerate
  obtain ⟨decoded, later, hRead, hHanded, hDecoded⟩ :=
    hReadable.2 "./run.ptr" "run.ptr" hPath hLast
  have hCalled : (start { fileName := "run.ptr", compressed := true } {}).lastHanded "run.ptr" []
      twoForms = [openingVersion, .newNode 0 "core" none 0, .setLayout 0 [2],
        .newEdge 0 0 0 1 1 "loop", .newItem 1, .enterNode 0 1 [1], .moveItems 0 [1] [0],
        .comment 1 "first", .cycle 1, .exitNode 0 1 [1], .cycle 2] := by decide +kernel
  obtain ⟨_, rfl⟩ := List.cons.inj (hHanded.symm.trans hCalled)
  exact ⟨by decide +kernel, hLast, decoded, hRead, hDecoded⟩

end History
end Recording
end CycleTrace
