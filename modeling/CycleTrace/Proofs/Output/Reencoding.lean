/-
Traces that are encoded again.

A stream need not be one that an encoder would write. Its fields may be wider
than their values, it may define names that it never uses or use a name of long
ago, tell its version twice or repeat a clocked cycle. What is read of it can be
encoded all the same, because a reader gives commands within the limits of the
format only. The stream that comes of it is a normal form: it depends on the
commands without definitions and without repetitions of clocked cycles, and
these are what is read of it, so encoding it once more changes nothing.
-/

import CycleTrace.Lz4.StoredBlocks
import CycleTrace.Proofs.Output.RoundTrip
import CycleTrace.Proofs.Wire.Cuts

namespace CycleTrace

/-! ### Commands that are left out -/

theorem dropRepeatedCycles_idem (last : Option ClockedCycle) (commands : List Command) :
    dropRepeatedCycles last (dropRepeatedCycles last commands)
      = dropRepeatedCycles last commands := by
  induction commands generalizing last with
  | nil => rfl
  | cons command commands ih =>
      have hOther (hKept : ∀ last later, dropRepeatedCycles last (command :: later)
          = command :: dropRepeatedCycles last later) :
          dropRepeatedCycles last (dropRepeatedCycles last (command :: commands))
            = dropRepeatedCycles last (command :: commands) := by
        rw [hKept, hKept, ih]
      cases command with
      | clockedCycle cycle =>
          by_cases hRepeated : last = some cycle
          · rw [dropRepeatedCycles, if_pos hRepeated, ih]
          · rw [dropRepeatedCycles, if_neg hRepeated, dropRepeatedCycles, if_neg hRepeated, ih]
      | _ => exact hOther fun last later => rfl

namespace Output
namespace BinaryStream

variable {stream other : BinaryStream}

/-! ### What a stream emits of a command that is left out -/

theorem SameButCounts.writesAll (hSame : SameButCounts stream other) (commands : List Command) :
    stream.writesAll commands = other.writesAll commands := by
  induction commands generalizing stream other with
  | nil => rfl
  | cons command commands ih =>
      obtain ⟨hWrites, hAfter⟩ := hSame.emit command
      rw [BinaryStream.writesAll, BinaryStream.writesAll, hWrites, ih hAfter]

/-- A stream emits what it emits without definitions and repetitions of clocked
cycles. -/
theorem writesAll_kept (stream : BinaryStream) (commands : List Command) :
    stream.writesAll commands = stream.writesAll
      (dropRepeatedCycles stream.lastClockedCycle (withoutDefinitions commands)) := by
  induction commands generalizing stream with
  | nil => rfl
  | cons command commands ih =>
      have hOrdinary (hPlain : command.isDefinition = false)
          (hEmit : stream.emit command = stream.emitDefined command)
          (hKept : ∀ last later, dropRepeatedCycles last (command :: later)
            = command :: dropRepeatedCycles last later) :
          stream.writesAll (command :: commands) = stream.writesAll (dropRepeatedCycles
            stream.lastClockedCycle (withoutDefinitions (command :: commands))) := by
        have hFirst : withoutDefinitions (command :: commands)
            = command :: withoutDefinitions commands :=
          List.filter_cons_of_pos (by rw [hPlain]; rfl)
        rw [hFirst, hKept, writesAll, writesAll, ih, hEmit, lastClockedCycle_emitDefined]
      cases command with
      | defineTag id name => exact ih stream
      | defineText id value => exact ih stream
      | clockedCycle cycle =>
          have hFirst : withoutDefinitions (.clockedCycle cycle :: commands)
              = .clockedCycle cycle :: withoutDefinitions commands := rfl
          rw [hFirst, dropRepeatedCycles, writesAll, ih]
          by_cases hRepeated : stream.lastClockedCycle = some cycle
          · have hEmit : stream.emit (.clockedCycle cycle)
                = ([], { stream with skippedCycles := stream.skippedCycles + 1 }) :=
              if_pos hRepeated
            have hSame : SameButCounts
                { stream with skippedCycles := stream.skippedCycles + 1 } stream := rfl
            rw [hEmit, if_pos hRepeated, List.nil_append, hSame.writesAll]
          · have hEmit : stream.emit (.clockedCycle cycle)
                = { stream with lastClockedCycle := some cycle }.emitDefined
                    (.clockedCycle cycle) :=
              if_neg hRepeated
            rw [if_neg hRepeated, writesAll, hEmit, lastClockedCycle_emitDefined]
      | _ => exact hOrdinary rfl rfl fun last later => rfl

end BinaryStream

/-- Lists of commands that differ in what is left out give the same stream. -/
theorem streamBytes_congr {commands others : List Command}
    (hKept : dropRepeatedCycles none (withoutDefinitions commands)
      = dropRepeatedCycles none (withoutDefinitions others)) :
    streamBytes false (openingVersion :: commands)
      = streamBytes false (openingVersion :: others) := by
  have hOpened : (({} : BinaryStream).emit openingVersion).2.lastClockedCycle = none := rfl
  have hSame : (({} : BinaryStream).emit openingVersion).2.writesAll commands
      = (({} : BinaryStream).emit openingVersion).2.writesAll others := by
    rw [BinaryStream.writesAll_kept _ commands, BinaryStream.writesAll_kept _ others, hOpened,
      hKept]
  change (({} : BinaryStream).emitAll (openingVersion :: commands)).1
    = (({} : BinaryStream).emitAll (openingVersion :: others)).1
  rw [← BinaryStream.flatten_writesAll, ← BinaryStream.flatten_writesAll, BinaryStream.writesAll,
    BinaryStream.writesAll, hSame]

/-! ### Encoding again -/

/-- What is read of a plain trace, whoever wrote it, opens with a version and is
within the limits of the format. Encoded after a version of its own, in a plain
file or a compressed one, it is read back without definitions and repetitions of
clocked cycles, and what is read back gives the same stream when it is encoded. -/
theorem readTrace_storedAs [Lz4.Codec] {content : List UInt8} {commands : List Command}
    (hPlain : Lz4.isFrame content = false) (hRead : Inspection.readTrace content = .ok commands) :
    ∃ minor later, commands = .version formatMajor minor :: later ∧
      (∀ command ∈ commands, command.FitsWire) ∧
      ∃ stream again, StoredAs later stream ∧
        (∀ file compressed, Writer.FileReads file compressed stream →
          Inspection.readTrace file = .ok (openingVersion :: again)) ∧
        withoutDefinitions again = dropRepeatedCycles none (withoutDefinitions later) ∧
        StoredAs again stream := by
  unfold Inspection.readTrace at hRead
  rw [hPlain, if_neg Bool.false_ne_true] at hRead
  obtain ⟨_, _, _, _, _, hFits, minor, later, rfl⟩ := Wire.Decoder.pieces_of_decode hRead
  obtain ⟨decoded, hDecode, hDecoded⟩ := BinaryStream.decode_emitAll
    fun command hLater => hFits command (List.mem_cons_of_mem _ hLater)
  -- what is read back is a trace like any other, so it opens with a version too
  obtain ⟨_, _, _, _, _, _, opening, again, rfl⟩ := Wire.Decoder.pieces_of_decode hDecode
  have hFirst : withoutDefinitions (.version formatMajor opening :: again)
      = .version formatMajor opening :: withoutDefinitions again := rfl
  rw [hFirst, List.cons.injEq] at hDecoded
  obtain ⟨hOpening, hAgain⟩ := hDecoded
  rw [hOpening] at hDecode
  refine ⟨minor, later, rfl, hFits, streamBytes false (openingVersion :: later), again,
    storedAs_streamBytes later, fun file compressed hFile => ?_, hAgain, ?_⟩
  · rw [readTrace_of_fileReads hFile]
    exact hDecode
  · have hSame : streamBytes false (openingVersion :: again)
        = streamBytes false (openingVersion :: later) := by
      apply streamBytes_congr
      rw [hAgain, dropRepeatedCycles_idem]
    rw [← hSame]
    exact storedAs_streamBytes again

/-- The id of the item takes two bytes where one is enough, and the version is
told twice. -/
theorem readTrace_storedAs_wide_item :
    Inspection.readTrace [29, 4, 0, 7, 0, 65, 3, 0, 29, 4, 0, 0, 0]
      = .ok [.version 4 7, .newItem 3, .version 4 0] ∧
    ∃ stream again, StoredAs [.newItem 3, .version 4 0] stream ∧
      (∀ file compressed, Writer.FileReads file compressed stream →
        Inspection.readTrace file = .ok (openingVersion :: again)) ∧
      withoutDefinitions again = [.newItem 3, .version 4 0] ∧
      StoredAs again stream := by
  have hRead : Inspection.readTrace [29, 4, 0, 7, 0, 65, 3, 0, 29, 4, 0, 0, 0]
      = .ok [.version 4 7, .newItem 3, .version 4 0] := rfl
  obtain ⟨_, _, hCommands, _, hStored⟩ := readTrace_storedAs rfl hRead
  cases hCommands
  exact ⟨hRead, hStored⟩

end Output
end CycleTrace
