/-
What is encoded is read back.

An encoder may have done anything before: written other files, defined names,
been closed, refused commands while no file was open. Beginning a file makes it
ready for a stream of its own, and the file that is left when the encoder is
closed reads as the version and the commands that were encoded, in order,
whether or not it is compressed. Missing are only the repetitions of clocked
cycles, which the binary form leaves out.
-/

import CycleTrace.Inspection.TraceFile
import CycleTrace.Lz4.StoredBlocks
import CycleTrace.Proofs.Output.Decoding
import CycleTrace.Proofs.Output.Encoder

namespace CycleTrace
namespace Output

/-- A plain stream is not taken for a frame: it opens with the code of its
version. -/
theorem isFrame_streamBytes (commands : List Command) :
    Lz4.isFrame (streamBytes false (openingVersion :: commands)) = false :=
  rfl

section Codec

variable [Lz4.Codec]

/-! ### Commands for a closed file -/

namespace BinaryEncoder

/-- A computation that moves the stream within its sizes and does not touch the
writer. -/
def LeavesWriter (writer : Writer) (act : BinaryEncoding α) : Prop :=
  ∀ stream : BinaryStream, stream.Sized →
    ∃ after : BinaryStream, after.Sized ∧ stateAfter (act ⟨stream, writer⟩) = ⟨after, writer⟩

variable {writer : Writer}

theorem LeavesWriter.pure (value : α) : LeavesWriter writer (pure value) :=
  fun stream hSized => ⟨stream, hSized, rfl⟩

theorem LeavesWriter.bind {act : BinaryEncoding α} {next : α → BinaryEncoding β}
    (hAct : LeavesWriter writer act) (hNext : ∀ value, LeavesWriter writer (next value)) :
    LeavesWriter writer (act >>= next) := by
  intro stream hSized
  obtain ⟨middle, hMiddle, hState⟩ := hAct stream hSized
  cases hResult : act ⟨stream, writer⟩ with
  | ok value state =>
      rw [hResult] at hState
      rw [bind_of_ok hResult, show state = ⟨middle, writer⟩ from hState]
      exact hNext value middle hMiddle
  | error fault state =>
      rw [hResult] at hState
      rw [bind_of_error hResult]
      exact ⟨middle, hMiddle, hState⟩

theorem leavesWriter_write (hClosed : writer.isOpen = false) (bytes : List UInt8) :
    LeavesWriter writer (write bytes) := by
  intro stream hSized
  refine ⟨stream, hSized, ?_⟩
  unfold write
  dsimp only
  rw [Writer.write_of_closed hClosed]
  rfl

theorem leavesWriter_defineTag (hClosed : writer.isOpen = false) (name : Option String) :
    LeavesWriter writer (defineTag name) := by
  cases name with
  | none => exact .pure 0
  | some name =>
      have hAssign : LeavesWriter writer (assignTag name) :=
        fun stream hSized => ⟨_, hSized.nameTag (some name), rfl⟩
      refine hAssign.bind fun assignment => ?_
      cases assignment.isNew with
      | false => exact .pure _
      | true => exact (leavesWriter_write hClosed _).bind fun _ => .pure _

theorem leavesWriter_defineText (hClosed : writer.isOpen = false) (value : Option String) :
    LeavesWriter writer (defineText value) := by
  cases value with
  | none => exact .pure 0
  | some value =>
      have hAssign : LeavesWriter writer (assignText value) :=
        fun stream hSized => ⟨_, hSized.nameText (some value), rfl⟩
      refine hAssign.bind fun assignment => ?_
      cases assignment.isNew with
      | false => exact .pure _
      | true => exact (leavesWriter_write hClosed _).bind fun _ => .pure _

theorem leavesWriter_encodeDefined (hClosed : writer.isOpen = false) (command : Command) :
    LeavesWriter writer (encodeDefined command) := by
  refine (leavesWriter_defineTag hClosed _).bind fun tag => ?_
  refine (leavesWriter_defineText hClosed _).bind fun text => ?_
  have hLayOut : LeavesWriter writer (layOut tag text command) :=
    fun stream hSized =>
      ⟨{ stream with last := (Wire.body stream.last tag text command).2 },
        { hSized with }, rfl⟩
  exact hLayOut.bind fun bytes => leavesWriter_write hClosed bytes

theorem leavesWriter_encode (hClosed : writer.isOpen = false) (command : Command) :
    LeavesWriter writer (encode command) := by
  cases command with
  | defineTag id name => exact .pure ()
  | defineText id value => exact .pure ()
  | clockedCycle cycle =>
      have hNote : LeavesWriter writer (noteClockedCycle cycle) := by
        intro stream hSized
        rw [noteClockedCycle_eq]
        split
        · exact ⟨{ stream with skippedCycles := stream.skippedCycles + 1 }, { hSized with }, rfl⟩
        · exact ⟨{ stream with lastClockedCycle := some cycle }, { hSized with }, rfl⟩
      refine hNote.bind fun repeated => ?_
      cases repeated with
      | false => exact leavesWriter_encodeDefined hClosed _
      | true => exact .pure ()
  | _ => exact leavesWriter_encodeDefined hClosed _

end BinaryEncoder

/-! ### Histories of encoders -/

namespace Encoder

/-- What an encoder can be asked for. -/
inductive Request where
  | beginFile (path : String) (compressed : Bool)
  | encode (command : Command)
  | flush
  | close
deriving DecidableEq, Repr

/-- An encoder after a request, granted or refused. -/
def afterRequest (encoder : Encoder) : Request → Encoder
  | .beginFile path compressed => stateAfter (Encoder.beginFile path compressed encoder)
  | .encode command => stateAfter (Encoder.encode command encoder)
  | .flush => encoder.flush
  | .close => encoder.close

/-- An encoder after requests in order. -/
def afterRequests (encoder : Encoder) (requests : List Request) : Encoder :=
  requests.foldl afterRequest encoder

variable {encoder : Encoder} {text : Bool}

theorem Ready.encode (hReady : encoder.Ready text) (command : Command) :
    (stateAfter (Encoder.encode command encoder)).Ready text := by
  cases hReady with
  | @text writer hAccounted =>
      unfold Encoder.encode
      dsimp only
      split
      · exact .text hAccounted
      · cases hWrite : Writer.write (line command) writer with
        | ok value written => exact .text (hAccounted.write hWrite)
        | error fault after => exact .text (hAccounted.write_refused hWrite)
  | @binary stream writer hSized hAccounted =>
      unfold Encoder.encode
      dsimp only
      cases hOpen : writer.isOpen with
      | true =>
          rw [BinaryEncoder.encode_of_isOpen hOpen]
          exact .binary (hSized.emit command) (hAccounted.foldl_accept hOpen _)
      | false =>
          obtain ⟨after, hAfter, hState⟩ :=
            BinaryEncoder.leavesWriter_encode hOpen command stream hSized
          cases hResult : BinaryEncoder.encode command ⟨stream, writer⟩ with
          | ok value state =>
              rw [hResult] at hState
              rw [show state = ⟨after, writer⟩ from hState]
              exact .binary hAfter hAccounted
          | error fault state =>
              rw [hResult] at hState
              rw [show state = ⟨after, writer⟩ from hState]
              exact .binary hAfter hAccounted

theorem Ready.afterRequest (hReady : encoder.Ready text) (request : Request) :
    (encoder.afterRequest request).Ready text := by
  cases request with
  | beginFile path compressed =>
      unfold Encoder.afterRequest
      rcases beginFile_cases hReady path compressed with ⟨name, begun, _, hBegin, hCarries⟩ |
        ⟨fault, _, hRefused⟩
      · simp only [hBegin]
        exact hCarries.ready
      · simp only [hRefused]
        exact hReady.close.1
  | encode command => exact hReady.encode command
  | flush => exact hReady.flush
  | close => exact hReady.close.1

theorem Ready.afterRequests (hReady : encoder.Ready text) (requests : List Request) :
    (encoder.afterRequests requests).Ready text := by
  induction requests generalizing encoder with
  | nil => exact hReady
  | cons request requests ih => exact ih (hReady.afterRequest request)

end Encoder

/-! ### The round trip -/

/-- A file that reads as a stream is read as the stream, compressed or not. -/
theorem readTrace_of_fileReads {content : List UInt8} {compressed : Bool}
    {commands : List Command}
    (hFile : Writer.FileReads content compressed
      (streamBytes false (openingVersion :: commands))) :
    Inspection.readTrace content
      = Wire.decode (streamBytes false (openingVersion :: commands)) := by
  unfold Inspection.readTrace
  cases compressed with
  | false =>
      have hContent : content = streamBytes false (openingVersion :: commands) := hFile
      rw [hContent, isFrame_streamBytes, if_neg Bool.false_ne_true]
  | true =>
      obtain ⟨hFrame, hRead⟩ :
        Lz4.isFrame content = true ∧ Lz4.Coder.expand content = .ok _ := hFile
      rw [if_pos hFrame, Inspection.expandFrame, hRead]
      rfl

/-- Whatever an encoder did before, a file that it begins, fills with the commands
and closes reads as the stream. -/
def StoredAs (commands : List Command) (stream : List UInt8) : Prop :=
  ∀ (bufferBytes : Nat) (directory : Directory) (history : List Encoder.Request) (path : String)
    (compressed : Bool), (Directory.fileName? path).isSome = true →
    ∃ finished content,
      (do Encoder.beginFile path compressed; Encoder.encodeAll commands : Encoding Unit)
          ((Encoder.ofForm false bufferBytes directory).afterRequests history)
        = .ok () finished ∧
      finished.close.writer.directory.find? path = some content ∧
      Writer.FileReads content.toList compressed stream

theorem storedAs_streamBytes (commands : List Command) :
    StoredAs commands (streamBytes false (openingVersion :: commands)) := by
  intro bufferBytes directory history path compressed hPath
  have hReady := (Encoder.ready_ofForm false bufferBytes directory).afterRequests history
  obtain ⟨name, hName⟩ := Option.isSome_iff_exists.mp hPath
  obtain ⟨begun, hBegin, hBegun⟩ := hReady.beginFile hName compressed
  obtain ⟨finished, hEncode, hFinished⟩ := hBegun.encodeAll commands
  obtain ⟨content, hContent, hReads⟩ := hFinished.close
  refine ⟨finished, content, (bind_of_ok hBegin).trans hEncode, ?_, hReads⟩
  rw [Directory.find?_of_fileName? hName, hContent]

/-- A list of commands within the limits of the binary format is read back from
the file it was encoded into: the version, then the commands in order, without
definitions and without repetitions of clocked cycles. -/
theorem readTraceAt_encodeAll (bufferBytes : Nat) (directory : Directory)
    (history : List Encoder.Request) {path name : String} (compressed : Bool)
    {commands : List Command} (hPath : Directory.fileName? path = some name)
    (hFits : ∀ command ∈ commands, command.FitsWire) :
    ∃ finished decoded,
      (do Encoder.beginFile path compressed; Encoder.encodeAll commands : Encoding Unit)
          ((Encoder.ofForm false bufferBytes directory).afterRequests history)
        = .ok () finished ∧
      Inspection.readTraceAt finished.close.writer.directory path = .ok decoded ∧
      withoutDefinitions decoded
        = openingVersion :: dropRepeatedCycles none (withoutDefinitions commands) := by
  have hReady := (Encoder.ready_ofForm false bufferBytes directory).afterRequests history
  rcases Encoder.beginFile_cases hReady path compressed with ⟨file, begun, hFile, hBegin, hBegun⟩ |
    ⟨_, hNoFile, _⟩
  · obtain ⟨finished, hEncode, hFinished⟩ := hBegun.encodeAll commands
    obtain ⟨content, hContent, hReads⟩ := hFinished.close
    obtain ⟨decoded, hDecode, hDecoded⟩ := BinaryStream.decode_emitAll hFits
    refine ⟨finished, decoded, (bind_of_ok hBegin).trans hEncode, ?_, hDecoded⟩
    unfold Inspection.readTraceAt
    rw [Directory.find?_of_fileName? hFile, hContent]
    exact (readTrace_of_fileReads hReads).trans hDecode
  · rw [hPath] at hNoFile
    cases hNoFile

end Codec

/-- The round trip of a tag, a move and a clocked cycle that is reported twice,
through a file after an earlier one. -/
theorem readTraceAt_encodeAll_tagged_move :
    ∃ finished decoded,
      (do
        Encoder.beginFile "./run.ptr" false
        Encoder.encodeAll [.tagItem 7 "op" (.text "load"), .moveItems 2 [7, 9] [0, 1],
          .clockedCycle ⟨1, 5, .high⟩, .defineTag 3 "op", .clockedCycle ⟨1, 5, .high⟩] :
          Encoding Unit)
          ((Encoder.ofForm false 16 {}).afterRequests
            [.beginFile "first.ptr" false, .encode (.tagCycle "op" (.int 1)), .close,
              .encode (.cycle 1)])
        = .ok () finished ∧
      Inspection.readTraceAt finished.close.writer.directory "./run.ptr" = .ok decoded ∧
      withoutDefinitions decoded = [openingVersion, .tagItem 7 "op" (.text "load"),
        .moveItems 2 [7, 9] [0, 1], .clockedCycle ⟨1, 5, .high⟩] := by
  have hPath : Directory.fileName? "./run.ptr" = some "run.ptr" := rfl
  exact readTraceAt_encodeAll 16 {} _ false hPath (by decide)

end Output
end CycleTrace
