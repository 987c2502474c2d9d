/-
What each command of a stream is decoded as.

A definition that was given to the encoder is left out, and so is a clocked
cycle that repeats the one before it. Any other command is decoded as itself,
and a tagged one may have definitions around it. A command without a tag needs
no definition and stands alone, so two of them that follow each other in the
stream are decoded one directly after the other.
-/

import CycleTrace.Proofs.Output.Decoding
import Mathlib.Data.List.Forall2

namespace CycleTrace

/-- What a command is decoded as. -/
inductive Command.Spells (command : Command) : List Command → Prop
  | leftOut (hOptional : command.isDefinition = true ∨ ∃ cycle, command = .clockedCycle cycle) :
      Spells command []
  | told {part : List Command} (hTold : withoutDefinitions part = [command])
      (hAlone : command.tagName? = none → part = [command]) : Spells command part

namespace Wire

theorem Decoder.FollowsEach.length_eq {before after : Decoder} {pieces : List (List UInt8)}
    {commands : List Command} (hEach : before.FollowsEach pieces commands after) :
    commands.length = pieces.length := by
  induction hEach with
  | nil decoder => rfl
  | cons _ _ _ _ ih => exact congrArg (· + 1) ih

end Wire

namespace Output
namespace BinaryStream

open Wire (Decoder)

/-- A command without a tag is one write. -/
theorem length_emitDefined (stream : BinaryStream) {command : Command}
    (hUntagged : command.tagName? = none) : (stream.emitDefined command).1.length = 1 := by
  cases command with
  | tagItem | tagNode | tagCycle | describeTag => cases hUntagged
  | _ => rfl

theorem eq_singleton_of_withoutDefinitions {part : List Command} {command : Command}
    (hLength : part.length = 1) (hTold : withoutDefinitions part = [command]) :
    part = [command] := by
  obtain ⟨only, rfl⟩ := List.length_eq_one_iff.mp hLength
  have hKept : command ∈ withoutDefinitions [only] := by
    rw [hTold]
    exact List.mem_singleton_self command
  rw [List.mem_singleton.mp (List.mem_of_mem_filter hKept)]

/-- The reader finds a command as itself, or not at all where it is left out. -/
theorem Agrees.emit_spells {stream : BinaryStream} {decoder : Decoder}
    (hAgrees : stream.Agrees decoder) {command : Command} (hFits : command.FitsWire) :
    ∃ part after, decoder.FollowsEach (stream.emit command).1 part after ∧
      (stream.emit command).2.Agrees after ∧ command.Spells part := by
  obtain ⟨part, after, hFollows, hAfter, hStep⟩ := hAgrees.emit hFits
  refine ⟨part, after, hFollows, hAfter, ?_⟩
  have hLength := hFollows.length_eq
  have hAlone := hStep []
  rw [dropRepeatedCycles, List.append_nil, List.append_nil] at hAlone
  have hTold (hDefined : (stream.emit command).1 = (stream.emitDefined command).1)
      (hSelf : withoutDefinitions part = [command]) : command.Spells part := by
    refine .told hSelf fun hUntagged => eq_singleton_of_withoutDefinitions ?_ hSelf
    rw [hLength, hDefined, length_emitDefined stream hUntagged]
  cases command with
  | defineTag | defineText =>
      rw [List.length_eq_zero_iff.mp hLength]
      exact .leftOut (.inl rfl)
  | clockedCycle cycle =>
      by_cases hRepeated : stream.lastClockedCycle = some cycle
      · have hNothing : (stream.emit (.clockedCycle cycle)).1 = [] := by
          simp only [BinaryStream.emit, if_pos hRepeated]
        rw [hNothing, List.length_nil, List.length_eq_zero_iff] at hLength
        rw [hLength]
        exact .leftOut (.inr ⟨cycle, rfl⟩)
      · refine hTold ?_ ?_
        · simp only [BinaryStream.emit, if_neg hRepeated]
          rfl
        · rw [hAlone]
          simp [withoutDefinitions, Command.isDefinition, dropRepeatedCycles, hRepeated]
  | _ => exact hTold rfl hAlone

/-- A reader finds the commands of a list one after the other. -/
theorem Agrees.emitAll_spells {stream : BinaryStream} {decoder : Decoder}
    (hAgrees : stream.Agrees decoder) {commands : List Command}
    (hFits : ∀ command ∈ commands, command.FitsWire) :
    ∃ parts after, decoder.FollowsEach (stream.writesAll commands) parts.flatten after ∧
      List.Forall₂ Command.Spells commands parts := by
  -- the stream and its reader agree before every command
  induction commands generalizing stream decoder with
  | nil => exact ⟨[], decoder, .nil decoder, .nil⟩
  | cons command commands ih =>
      obtain ⟨part, middle, hPart, hMiddle, hSpells⟩ :=
        hAgrees.emit_spells (hFits command List.mem_cons_self)
      obtain ⟨parts, after, hParts, hAll⟩ :=
        ih hMiddle fun other hOther => hFits other (List.mem_cons_of_mem _ hOther)
      exact ⟨part :: parts, after, hPart.append hParts, .cons hSpells hAll⟩

/-- A stream decodes to the version, and then to what each command is decoded
as, in order. -/
theorem decode_emitAll_spells {commands : List Command}
    (hFits : ∀ command ∈ commands, command.FitsWire) :
    ∃ parts, Wire.decode (({} : BinaryStream).emitAll (openingVersion :: commands)).1
        = .ok (openingVersion :: parts.flatten) ∧
      List.Forall₂ Command.Spells commands parts := by
  obtain ⟨opened, hOpening, hOpened⟩ := agrees_opening
  obtain ⟨parts, after, hFollows, hAll⟩ := hOpened.emitAll_spells hFits
  refine ⟨parts, ?_, hAll⟩
  rw [← flatten_writesAll]
  exact Wire.decode_of_followsEach (hOpening.append hFollows) (List.cons_ne_nil _ _)

end BinaryStream
end Output
end CycleTrace
