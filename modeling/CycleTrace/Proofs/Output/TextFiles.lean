/-
The content of a text file.

A text encoder writes one line for each command that it takes, and definitions,
which belong to binary streams, it does not take. So a plain file that it has
begun, filled and closed is the text of as many lines as it took commands, with
the version in front, whatever was asked of the encoder before, whatever its
buffer holds and whenever it is flushed. No line is mistaken for another, hence
the content of the file tells which commands were taken.
-/

import CycleTrace.Lz4.StoredBlocks
import CycleTrace.Proofs.Output.Lines
import CycleTrace.Proofs.Output.Moments

namespace CycleTrace

open Inspection (linesText linesOf_linesText linesText_cons)

/-! ### Lines of a text -/

theorem count_linesText {lines : List String} (hLines : ∀ line ∈ lines, OnOneLine line) :
    (linesText lines).toList.count '\n' = lines.length := by
  induction lines with
  | nil => rfl
  | cons line lines ih =>
      rw [List.forall_mem_cons] at hLines
      rw [linesText_cons, String.toList_append, String.toList_append, List.count_append,
        List.count_append, ih hLines.2, List.count_eq_zero_of_not_mem hLines.1, Nat.zero_add]
      exact Nat.add_comm 1 lines.length

theorem linesOf_linesText_renderWith (plain : Char → Bool) (commands : List Command) :
    linesOf (linesText (commands.map (Command.renderWith plain)))
      = commands.map (Command.renderWith plain) :=
  linesOf_linesText (onOneLine_of_mem_renderWith plain)

/-- The text of commands determines them. -/
theorem linesText_renderWith_inj (plain : Char → Bool) :
    Function.Injective fun commands : List Command =>
      linesText (commands.map (Command.renderWith plain)) := by
  intro commands others hSame
  have hLines := congrArg linesOf hSame
  dsimp only at hLines
  rw [linesOf_linesText_renderWith, linesOf_linesText_renderWith] at hLines
  exact List.map_injective_iff.mpr (Command.renderWith_inj plain) hLines

namespace Output

/-! ### Runs over one file -/

namespace Encoder

/-- A request that begins no other file. -/
def Request.keepsFile : Request → Bool
  | .beginFile .. => false
  | .encode _ | .flush | .close => true

variable [Lz4.Codec]

theorem afterRequest_of_closed {writer : Writer} (hClosed : writer.isOpen = false)
    {request : Request} (hKeeps : request.keepsFile = true) :
    (Encoder.text writer).afterRequest request = .text writer := by
  cases request with
  | beginFile path compressed => cases hKeeps
  | encode command =>
      unfold afterRequest Encoder.encode
      dsimp only
      split
      · rfl
      · rw [Writer.write_of_closed hClosed]
        rfl
  | flush => exact congrArg Encoder.text (Writer.flush_of_closed hClosed)
  | close => exact congrArg Encoder.text (Writer.close_of_closed hClosed)

theorem afterRequests_of_closed {writer : Writer} (hClosed : writer.isOpen = false)
    {requests : List Request} (hKeeps : ∀ request ∈ requests, request.keepsFile = true) :
    (Encoder.text writer).afterRequests requests = .text writer := by
  induction requests with
  | nil => rfl
  | cons request requests ih =>
      rw [List.forall_mem_cons] at hKeeps
      have hFirst := afterRequest_of_closed hClosed hKeeps.1
      unfold afterRequests at ih ⊢
      rw [List.foldl_cons, hFirst]
      exact ih hKeeps.2

/-- Requests that keep a plain text file fill it up to the first that closes it. -/
theorem Carries.file_afterRequests {encoder : Encoder} {name : String} {commands : List Command}
    (hCarries : encoder.Carries true name false commands) {requests : List Request}
    (hKeeps : ∀ request ∈ requests, request.keepsFile = true) :
    ∃ content, (encoder.afterRequests requests).close.writer.directory.files[name]?
        = some content ∧
      content.toList = streamBytes true (commands ++ Request.taken requests) := by
  induction requests generalizing encoder commands with
  | nil =>
      obtain ⟨content, hFile, hReads⟩ := hCarries.close
      rw [Request.taken, List.append_nil]
      exact ⟨content, hFile, Writer.fileReads_plain.mp hReads⟩
  | cons request requests ih =>
      rw [List.forall_mem_cons] at hKeeps
      obtain ⟨hFirst, hLater⟩ := hKeeps
      cases request with
      | beginFile path compressed => cases hFirst
      | encode command =>
          obtain ⟨after, hEncode, hAfter⟩ := hCarries.encode command
          have hRest := ih hAfter hLater
          rw [List.append_assoc, ← stateAfter_of_ok hEncode] at hRest
          exact hRest
      | flush => exact ih hCarries.flush hLater
      | close =>
          obtain ⟨content, hFile, hReads⟩ := hCarries.close
          rw [Request.taken, List.append_nil]
          refine ⟨content, ?_, Writer.fileReads_plain.mp hReads⟩
          rw [← hFile]
          -- a text encoder that is closed stays as it is
          cases hCarries with
          | @text writer _ _ _ hHolds =>
              have hClosed := hHolds.close.2.1
              have hSame := afterRequests_of_closed hClosed hLater
              have hStays : (Encoder.text writer).afterRequests (.close :: requests)
                  = .text writer.close := hSame
              have hAgain : (Encoder.text writer.close).close = .text writer.close :=
                Encoder.close_of_closed hClosed
              rw [hStays, hAgain]
              rfl

end Encoder

/-- A text encoder that begins a plain file, after whatever it did before, and
is asked to write, to flush or to close until it is closed in the end. -/
structure TextRun where
  bufferBytes : Nat
  directory : Directory
  history : List Encoder.Request
  path : String
  requests : List Encoder.Request
  named : (Directory.fileName? path).isSome = true
  keepsFile : ∀ request ∈ requests, request.keepsFile = true

section Codec

variable [Lz4.Codec]

namespace TextRun

/-- What the file holds in the end. -/
def content? (run : TextRun) : Option (Array UInt8) :=
  ((Encoder.ofForm true run.bufferBytes run.directory).afterRequests
    (run.history ++ .beginFile run.path false :: run.requests)).close.writer.directory.find?
      run.path

/-- The commands that were encoded, the version first. -/
def encoded (run : TextRun) : List Command :=
  withoutDefinitions (openingVersion :: Encoder.Request.taken run.requests)

theorem content?_eq (run : TextRun) : ∃ content, run.content? = some content ∧
    content.toList = Wire.textBytes (linesText (run.encoded.map Command.render)) := by
  obtain ⟨name, hName⟩ := Option.isSome_iff_exists.mp run.named
  have hReady := (Encoder.ready_ofForm true run.bufferBytes run.directory).afterRequests run.history
  obtain ⟨begun, hBegin, hBegun⟩ := hReady.beginFile hName false
  obtain ⟨content, hFile, hContent⟩ := hBegun.file_afterRequests run.keepsFile
  have hFirst : ((Encoder.ofForm true run.bufferBytes run.directory).afterRequests
      run.history).afterRequest (.beginFile run.path false) = begun := stateAfter_of_ok hBegin
  refine ⟨content, ?_, hContent.trans (streamBytes_text _)⟩
  unfold content?
  rw [Directory.find?_of_fileName? hName]
  unfold Encoder.afterRequests at hFirst hFile ⊢
  rw [List.foldl_append, List.foldl_cons, hFirst, hFile]

theorem text?_content (run : TextRun) : ∃ content, run.content? = some content ∧
    Wire.text? content.toList = some (linesText (run.encoded.map Command.render)) := by
  obtain ⟨content, hContent, hBytes⟩ := run.content?_eq
  refine ⟨content, hContent, ?_⟩
  rw [hBytes]
  exact Wire.Reading.text?_textBytes _

theorem encoded_eq_of_content {run other : TextRun} (hSame : run.content? = other.content?) :
    run.encoded = other.encoded := by
  obtain ⟨content, hContent, hText⟩ := run.text?_content
  obtain ⟨otherContent, hOther, hOtherText⟩ := other.text?_content
  rw [hContent, hOther] at hSame
  obtain rfl := Option.some.inj hSame
  rw [hText] at hOtherText
  exact linesText_renderWith_inj Text.isVisible (Option.some.inj hOtherText)

end TextRun

/-- The text form is faithful and keeps to its lines, whichever characters of a
text are left as they are. A plain text file has one line for each command that
was encoded, and its content determines these commands. -/
theorem text_faithful (plain : Char → Bool) :
    Function.Injective (Command.renderWith plain) ∧
    (∀ command : Command, OnOneLine (command.renderWith plain)) ∧
    (∀ commands : List Command,
      linesOf (linesText (commands.map (Command.renderWith plain)))
        = commands.map (Command.renderWith plain)) ∧
    (Function.Injective fun commands : List Command =>
      linesText (commands.map (Command.renderWith plain))) ∧
    (∀ run : TextRun, ∃ content text, run.content? = some content ∧
      Wire.text? content.toList = some text ∧
      linesOf text = run.encoded.map Command.render ∧
      text.toList.count '\n' = run.encoded.length) ∧
    ∀ run other : TextRun, run.content? = other.content? → run.encoded = other.encoded := by
  refine ⟨Command.renderWith_inj plain, Command.onOneLine_renderWith plain,
    linesOf_linesText_renderWith plain, linesText_renderWith_inj plain, fun run => ?_,
    fun _ _ => TextRun.encoded_eq_of_content⟩
  obtain ⟨content, hContent, hText⟩ := run.text?_content
  refine ⟨content, _, hContent, hText, linesOf_linesText onOneLine_of_mem_render, ?_⟩
  rw [count_linesText onOneLine_of_mem_render, List.length_map]

end Codec

/-- A run that writes through: a text imitates the position after it. -/
def TextRun.imitating : TextRun where
  bufferBytes := 0
  directory := {}
  history := []
  path := "run.txt"
  requests := [.encode (.tagNode 1 "op" (.text "x\" pos=[7]\n") []), .encode (.cycle 1)]
  named := rfl
  keepsFile := by decide

/-- The same commands after another file and between definitions and flushes. -/
def TextRun.flushed : TextRun where
  bufferBytes := 64
  directory := {}
  history := [.beginFile "first.txt" true, .encode (.newItem 3)]
  path := "./run.txt"
  requests := [.flush, .encode (.defineTag 0 "op"),
    .encode (.tagNode 1 "op" (.text "x\" pos=[7]\n") []), .flush, .encode (.cycle 1), .close,
    .encode (.cycle 2)]
  named := rfl
  keepsFile := by decide

/-- Two runs that leave the same file have encoded the same commands. -/
theorem text_faithful_imitating :
    TextRun.imitating.content? = TextRun.flushed.content? ∧
    TextRun.imitating.encoded = TextRun.flushed.encoded := by
  have hSame : TextRun.imitating.content? = TextRun.flushed.content? := by decide +kernel
  obtain ⟨_, _, _, _, _, hEncoded⟩ := text_faithful Text.isVisible
  exact ⟨hSame, hEncoded _ _ hSame⟩

end Output
end CycleTrace
