/-
Embedded archives and the starts of activity behind them.

An archive and the start of activity behind it are recorded by one event, with
one persistence, so they are handed over together, stored together or dropped
together. Every list of commands is made of whole parts: a replay of the store
and what is recorded later are put one behind the other, and neither begins
with a start whose archive stands in the other. A comment of the simulation may
not bear the magic of an archive.

Neither command of the pair has a tag, so no definition comes between them
where they are written.
-/

import CycleTrace.Lz4.StoredBlocks
import CycleTrace.Proofs.Output.Spelling
import CycleTrace.Proofs.Recording.Files

namespace CycleTrace

/-- Every archive is directly followed by a start of activity, and no text
passes for an archive. -/
structure ArchivesFramed (commands : List Command) : Prop where
  followed : ∀ data later, .commentBytes archiveMagic data :: later <:+ commands →
    ∃ cycle rest, later = .startActivity cycle :: rest
  unforged : ∀ text, .comment archiveMagic text ∉ commands

/-- A command that does not bear the magic of an archive. -/
def Command.Unmarked : Command → Prop
  | .comment magic _ => magic ≠ archiveMagic
  | .commentBytes magic _ => magic ≠ archiveMagic
  | _ => True

/-! ### Lists made of whole parts -/

/-- A list is built from commands without the mark and from whole pairs. -/
inductive Framed : List Command → Prop
  | nil : Framed []
  | plain {command : Command} {commands : List Command} (hUnmarked : command.Unmarked)
      (hRest : Framed commands) : Framed (command :: commands)
  | pair (data : List UInt8) (cycle : UInt64) {commands : List Command}
      (hRest : Framed commands) :
      Framed (.commentBytes archiveMagic data :: .startActivity cycle :: commands)

namespace Framed

variable {commands others : List Command}

theorem append (hCommands : Framed commands) (hOthers : Framed others) :
    Framed (commands ++ others) := by
  induction hCommands with
  | nil => exact hOthers
  | plain hUnmarked _ ih => exact .plain hUnmarked ih
  | pair data cycle _ ih => exact .pair data cycle ih

theorem of_unmarked (hUnmarked : ∀ command ∈ commands, command.Unmarked) : Framed commands := by
  induction commands with
  | nil => exact .nil
  | cons command commands ih =>
      rw [List.forall_mem_cons] at hUnmarked
      exact .plain hUnmarked.1 (ih hUnmarked.2)

theorem newItems (items : List ItemId) : Framed (items.map .newItem) := by
  refine of_unmarked fun command hMember => ?_
  obtain ⟨item, _, rfl⟩ := List.mem_map.mp hMember
  exact trivial

theorem archivesFramed (hFramed : Framed commands) : ArchivesFramed commands := by
  induction hFramed with
  | nil => exact ⟨fun data later hSuffix => by simp at hSuffix, fun text => List.not_mem_nil⟩
  | @plain command commands hUnmarked _ ih =>
      refine ⟨fun data later hSuffix => ?_, fun text hMember => ?_⟩
      · rcases List.suffix_cons_iff.mp hSuffix with hWhole | hRest
        · obtain ⟨rfl, _⟩ := List.cons.inj hWhole
          exact absurd rfl hUnmarked
        · exact ih.followed data later hRest
      · rcases List.mem_cons.mp hMember with rfl | hRest
        · exact hUnmarked rfl
        · exact ih.unforged text hRest
  | pair archive cycle _ ih =>
      refine ⟨fun data later hSuffix => ?_, fun text hMember => ?_⟩
      · rcases List.suffix_cons_iff.mp hSuffix with hWhole | hRest
        · exact ⟨cycle, _, (List.cons.inj hWhole).2⟩
        · rcases List.suffix_cons_iff.mp hRest with hStart | hLater
          · cases (List.cons.inj hStart).1
          · exact ih.followed data later hLater
      · rcases List.mem_cons.mp hMember with hArchive | hRest
        · cases hArchive
        · rcases List.mem_cons.mp hRest with hStart | hLater
          · cases hStart
          · exact ih.unforged text hLater

/-! ### What a reader finds -/

/-- What a command without the mark is decoded as has no mark. -/
theorem of_spells {command : Command} {part : List Command} (hSpells : command.Spells part)
    (hUnmarked : command.Unmarked) : Framed part := by
  cases hSpells with
  | leftOut => exact .nil
  | told hTold =>
      refine of_unmarked fun other hMember => ?_
      cases hDefinition : other.isDefinition with
      | true =>
          cases other with
          | defineTag | defineText => exact trivial
          | _ => cases hDefinition
      | false =>
          have hKept : other ∈ withoutDefinitions part :=
            List.mem_filter.mpr ⟨hMember, by rw [hDefinition]; rfl⟩
          rw [hTold] at hKept
          rw [List.mem_singleton.mp hKept]
          exact hUnmarked

/-- Neither command of a pair is left out, and neither needs a definition. -/
theorem eq_of_spells {command : Command} {part : List Command} (hSpells : command.Spells part)
    (hPlain : command.isDefinition = false) (hOther : ∀ cycle, command ≠ .clockedCycle cycle)
    (hUntagged : command.tagName? = none) : part = [command] := by
  cases hSpells with
  | leftOut hOptional =>
      rcases hOptional with hDefinition | ⟨cycle, rfl⟩
      · rw [hPlain] at hDefinition
        cases hDefinition
      · exact absurd rfl (hOther cycle)
  | told hTold hAlone => exact hAlone hUntagged

theorem decoded {parts : List (List Command)} (hFramed : Framed commands)
    (hParts : List.Forall₂ Command.Spells commands parts) : Framed parts.flatten := by
  induction hFramed generalizing parts with
  | nil =>
      cases hParts
      exact .nil
  | plain hUnmarked _ ih =>
      cases hParts with
      | cons hSpells hRest => exact (of_spells hSpells hUnmarked).append (ih hRest)
  | pair data cycle _ ih =>
      obtain _ | ⟨hArchive, _ | ⟨hStart, hRest⟩⟩ := hParts
      rw [eq_of_spells hArchive rfl (fun _ => Command.noConfusion) rfl,
        eq_of_spells hStart rfl (fun _ => Command.noConfusion) rfl]
      exact .pair data cycle (ih hRest)

end Framed

namespace Recording

open Output (Directory openingVersion)

/-! ### Machines -/

namespace Machine

variable {machine : Machine} {circumstances : Circumstances} {event : Event} {plan : Plan}

theorem unmarked_of_checkMagic {magic : UInt32} (hMagic : checkMagic magic = .ok ()) :
    magic ≠ archiveMagic := by
  rintro rfl
  cases hMagic

/-- An accepted event tells of nothing marked, or of one whole pair. -/
theorem Accepts.marked (hAccepts : machine.Accepts circumstances event plan) :
    (∀ sent ∈ plan.dispatches, sent.command.Unmarked) ∨
    ∃ data cycle persistent, plan.dispatches
      = [⟨.commentBytes archiveMagic data, persistent, false⟩,
          ⟨.startActivity cycle, persistent, false⟩] := by
  cases hAccepts with
  | moveNone | tagRepeated | repeatedCycle => exact .inl (List.forall_mem_nil _)
  | enterSlot => exact .inl (forall_arrivalDispatches trivial fun _ _ _ => trivial)
  | cycle => exact .inl (forall_beginCycle _ trivial fun _ _ => trivial)
  | @clockedCycle cycle plan hClock hNew hPlan =>
      subst hPlan
      exact .inl (forall_beginCycle cycle.cycle trivial fun _ _ => trivial)
  | comment hMagic | commentBytes hMagic =>
      exact .inl (forall_single (unmarked_of_checkMagic hMagic))
  | @startActivity cycle =>
      cases hArchive : machine.archive with
      | none => exact .inl (forall_startActivity (by simp [hArchive]) trivial)
      | some data =>
          refine .inr ⟨data, cycle, circumstances.persistent, ?_⟩
          unfold Machine.startActivity
          rw [hArchive]
          rfl
  | _ => exact .inl (forall_single trivial)

/-- What an accepted event tells is made of whole parts, and so is what is kept
of it while recording is off. -/
theorem Accepts.framed (hAccepts : machine.Accepts circumstances event plan) :
    Framed (plan.dispatches.map (·.command)) ∧ Framed (persistentCommands plan.dispatches) := by
  rcases hAccepts.marked with hUnmarked | ⟨data, cycle, persistent, hPair⟩
  · have hCommands : ∀ command ∈ plan.dispatches.map (·.command), command.Unmarked :=
      List.forall_mem_map.mpr hUnmarked
    exact ⟨.of_unmarked hCommands, .of_unmarked fun command hKept =>
      hCommands command (persistentCommands_subset _ hKept)⟩
  · rw [hPair]
    refine ⟨.pair data cycle .nil, ?_⟩
    cases persistent with
    | true => exact .pair data cycle .nil
    | false => exact .nil

end Machine

/-! ### Histories -/

namespace History

section Codec

variable [Lz4.Codec]

/-- The lists of commands that a history holds are made of whole parts. -/
structure Framing (history : History) : Prop where
  stored : Framed history.recorder.store.all.toList
  waiting : Framed history.recorder.store.partialReplay.toList
  handed : Framed (history.current.map (·.command))

variable {history : History}

theorem framing_start (settings : Settings) (directory : Directory) :
    (start settings directory).Framing :=
  ⟨.nil, .nil, .nil⟩

theorem Framing.earlier (hFraming : history.Framing) :
    Framed (history.earlier.map (·.command)) := by
  unfold History.earlier
  split
  · exact hFraming.handed
  · exact .nil

theorem Framing.after (hFraming : history.Framing) (hConsistent : history.Consistent)
    (call : Call) : (history.after call).Framing := by
  have hStep := step_after hConsistent call
  generalize history.after call = next at hStep
  have hReplayed (stored : List Command) (items : List ItemId) (hStored : Framed stored) :
      Framed ((stored.map Handed.replayed ++ items.map Handed.announced).map (·.command)) := by
    rw [List.map_append, command_replayed, command_announced]
    exact hStored.append (.newItems items)
  cases hStep with
  | recorded hPlan hOn hEncode =>
      obtain ⟨hSent, hKept⟩ := (Machine.accepts_of_plan hPlan).framed
      refine ⟨?_, ?_, ?_⟩
      · rw [ReplayStore.toList_all_storeAll]
        exact hFraming.stored.append hKept
      · rw [ReplayStore.partialReplay_storeAll_false]
        exact hFraming.waiting
      · rw [List.map_append, command_direct]
        exact hFraming.handed.append hSent
  | noted hPlan hOff =>
      obtain ⟨_, hKept⟩ := (Machine.accepts_of_plan hPlan).framed
      refine ⟨?_, ?_, hFraming.earlier⟩
      · rw [ReplayStore.toList_all_storeAll]
        exact hFraming.stored.append hKept
      · rw [ReplayStore.toList_partialReplay_storeAll_true]
        exact hFraming.waiting.append hKept
  | resumed hOff hOpen hEncode =>
      refine ⟨hFraming.stored, .nil, ?_⟩
      rw [List.map_append]
      exact hFraming.handed.append (hReplayed _ _ hFraming.waiting)
  | begun hOff hClosed hName hBegin hOpened hEncode =>
      exact ⟨hFraming.stored, .nil, .plain trivial (hReplayed _ _ hFraming.stored)⟩
  | idle | stopped | flushed | attached =>
      exact ⟨hFraming.stored, hFraming.waiting, hFraming.earlier⟩
  | closed | renamed | reformed => exact ⟨hFraming.stored, hFraming.waiting, .nil⟩

theorem Framing.afterAll (hFraming : history.Framing) (hConsistent : history.Consistent)
    (calls : List Call) : (history.afterAll calls).Framing := by
  induction calls generalizing history with
  | nil => exact hFraming
  | cons call calls ih => exact ih (hFraming.after hConsistent call) (hConsistent.after call)

/-- What a file was handed is made of whole parts, whatever becomes of it. -/
theorem Framing.lastHanded (hFraming : history.Framing) (hConsistent : history.Consistent)
    (name : String) {commands : List Command} (hCommands : Framed commands) (calls : List Call) :
    Framed (history.lastHanded name commands calls) := by
  induction calls generalizing history commands with
  | nil => exact hCommands
  | cons call calls ih =>
      have hNext := hFraming.after hConsistent call
      refine ih hNext (hConsistent.after call) ?_
      unfold handedTo
      split
      · exact hNext.handed
      · exact hCommands

/-- Whatever a recorder does, an archive and the start of activity behind it
are never parted. In what an output was handed every archive is directly
followed by a start of activity, and no text passes for an archive. The same
holds of what is decoded, once the recorder is gone, from a file that was last
opened in binary form, where comments are not too long for their length fields. -/
theorem archives_framed (settings : Settings) (directory : Directory) (calls : List Call) :
    ArchivesFramed (((start settings directory).afterAll calls).current.map (·.command)) ∧
    ((∀ call ∈ calls, call.Moderate) →
      ∀ path name, Directory.fileName? path = some name →
        (start settings directory).lastForm? name calls = some false →
        ∃ decoded, Inspection.readTraceAt
            ((start settings directory).afterAll calls).recorder.finalDirectory path
              = .ok decoded ∧
          ArchivesFramed decoded) := by
  have hSound := sound_start settings directory
  have hFraming := framing_start settings directory
  refine ⟨(hFraming.afterAll hSound.consistent calls).handed.archivesFramed, ?_⟩
  intro hModerate path name hPath hLast
  obtain ⟨content, compressed, later, hFile, hReads, hOpening, hFits⟩ :=
    filed_gone hSound (within_start settings directory) hModerate hLast
  obtain ⟨parts, hDecode, hSpells⟩ := Output.BinaryStream.decode_emitAll_spells hFits
  have hHanded := hFraming.lastHanded hSound.consistent name .nil calls
  rw [hOpening] at hReads hHanded
  refine ⟨openingVersion :: parts.flatten, ?_, ?_⟩
  · unfold Inspection.readTraceAt
    rw [Directory.find?_of_fileName? hPath, hFile]
    exact (Output.readTrace_of_fileReads hReads).trans hDecode
  · cases hHanded with
    | plain hVersion hLater => exact (Framed.plain hVersion (hLater.decoded hSpells)).archivesFramed

end Codec

/-- Calls that start activity three times: stored for the whole replay, directly
recorded behind a comment and a cycle, and stored for the partial replay. -/
def threeStarts : List Call :=
  [.attachArchive [1], .report (.startActivity 1) true, .report (.newItem none) false, .turnOn,
    .report (.comment 7 "note") false, .attachArchive [2, 3],
    .report (.cycle 2) false, .report (.startActivity 2) false, .turnOff,
    .attachArchive [4], .report (.newItem none) false, .report (.startActivity 3) true, .turnOn]

theorem archives_framed_threeStarts :
    (((start { fileName := "run.ptr" } {}).afterAll threeStarts).current.map
      (·.command)) = [openingVersion, .commentBytes archiveMagic [1], .startActivity 1, .newItem 1,
        .comment 7 "note", .cycle 2, .commentBytes archiveMagic [2, 3],
        .startActivity 2, .commentBytes archiveMagic [4], .startActivity 3, .newItem 2] ∧
    ∃ decoded, Inspection.readTraceAt
        ((start { fileName := "run.ptr" } {}).afterAll
          threeStarts).recorder.finalDirectory "run.ptr" = .ok decoded ∧
      ArchivesFramed decoded := by
  have hModerate : ∀ call ∈ threeStarts, call.Moderate := by decide
  have hPath : Directory.fileName? "run.ptr" = some "run.ptr" := by decide +kernel
  have hLast : (start { fileName := "run.ptr" } {}).lastForm? "run.ptr"
      threeStarts = some false := by decide +kernel
  have hFramed := archives_framed { fileName := "run.ptr" } {} threeStarts
  exact ⟨by decide +kernel, hFramed.2 hModerate "run.ptr" "run.ptr" hPath hLast⟩

end History
end Recording
end CycleTrace
