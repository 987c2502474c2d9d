/-
The file of an encoder is a function of its commands.

`streamBytes` gives the bytes of a list of commands in either form.
`Encoder.Carries` says that the open file of an encoder holds these bytes, and
that the encoder is ready to go on from there. Beginning a file, writing a
command, flushing and closing keep to this description, so what a file contains
in the end depends on nothing but the form and the commands.
-/

import CycleTrace.Proofs.Output.Emission

namespace CycleTrace
namespace Output

/-- The bytes of a stream of commands in text form or in binary form. -/
def streamBytes (text : Bool) (commands : List Command) : List UInt8 :=
  if text then (commands.filter fun command => !command.isDefinition).flatMap Encoder.line
  else (({} : BinaryStream).emitAll commands).1

namespace Encoder

theorem streamBytes_text_append (commands : List Command) (command : Command) :
    streamBytes true (commands ++ [command]) = streamBytes true commands
      ++ (if command.isDefinition then [] else line command) := by
  unfold streamBytes
  cases hDefinition : command.isDefinition <;> simp [List.filter_append, hDefinition]

theorem streamBytes_binary_append (commands : List Command) (command : Command) :
    streamBytes false (commands ++ [command]) = streamBytes false commands
      ++ ((({} : BinaryStream).emitAll commands).2.emit command).1.flatten := by
  unfold streamBytes
  rw [BinaryStream.emitAll_append, BinaryStream.emitAll_single]
  rfl

variable [Lz4.Codec]

/-- The open file of an encoder holds a stream of commands. -/
inductive Carries : Encoder → (text : Bool) → (name : String) → (compressed : Bool) →
    List Command → Prop
  | text {writer : Writer} {name : String} {compressed : Bool} {commands : List Command}
      (hHolds : writer.Holds name compressed (streamBytes true commands)) :
      Carries (.text writer) true name compressed commands
  | binary {stream : BinaryStream} {writer : Writer} {name : String} {compressed : Bool}
      {commands : List Command}
      (hStream : stream.SameButCounts (({} : BinaryStream).emitAll commands).2)
      (hSized : stream.Sized)
      (hHolds : writer.Holds name compressed (streamBytes false commands)) :
      Carries (.binary ⟨stream, writer⟩) false name compressed commands

/-- An encoder from which a file can be begun: nothing is lost track of, and the
tables of its stream have their proper sizes. -/
inductive Ready : Encoder → (text : Bool) → Prop
  | text {writer : Writer} (hAccounted : writer.Accounted) : Ready (.text writer) true
  | binary {stream : BinaryStream} {writer : Writer} (hSized : stream.Sized)
      (hAccounted : writer.Accounted) : Ready (.binary ⟨stream, writer⟩) false

variable {encoder : Encoder} {text compressed : Bool} {name : String} {commands : List Command}

theorem Carries.ready (hCarries : encoder.Carries text name compressed commands) :
    encoder.Ready text := by
  cases hCarries with
  | text hHolds => exact .text (.inr ⟨_, _, _, hHolds⟩)
  | binary hStream hSized hHolds => exact .binary hSized (.inr ⟨_, _, _, hHolds⟩)

theorem Carries.isOpen (hCarries : encoder.Carries text name compressed commands) :
    encoder.isOpen = true := by
  cases hCarries with
  | text hHolds => exact hHolds.isOpen
  | binary hStream hSized hHolds => exact hHolds.isOpen

theorem ready_ofForm (text : Bool) (bufferBytes : Nat) (directory : Directory) :
    (ofForm text bufferBytes directory).Ready text := by
  cases text with
  | false => exact .binary BinaryStream.sized_initial (.inl ⟨rfl, rfl⟩)
  | true => exact .text (.inl ⟨rfl, rfl⟩)

theorem isOpen_ofForm (text : Bool) (bufferBytes : Nat) (directory : Directory) :
    (ofForm text bufferBytes directory).isOpen = false := by
  cases text <;> rfl

/-! ### Writing -/

/-- An encoder that carries a stream takes another command. -/
theorem Carries.encode (hCarries : encoder.Carries text name compressed commands)
    (command : Command) :
    ∃ after, Encoder.encode command encoder = .ok () after ∧
      after.Carries text name compressed (commands ++ [command]) := by
  cases hCarries with
  | @text writer _ _ _ hHolds =>
      unfold Encoder.encode
      cases hDefinition : command.isDefinition with
      | true =>
          refine ⟨.text writer, rfl, .text ?_⟩
          rw [streamBytes_text_append, hDefinition, if_pos rfl, List.append_nil]
          exact hHolds
      | false =>
          simp only [Bool.false_eq_true, if_false, Writer.write_of_isOpen hHolds.isOpen]
          refine ⟨_, rfl, .text ?_⟩
          rw [streamBytes_text_append, hDefinition, if_neg Bool.false_ne_true]
          exact hHolds.accept (line command)
  | @binary stream writer _ _ _ hStream hSized hHolds =>
      unfold Encoder.encode
      dsimp only
      rw [BinaryEncoder.encode_of_isOpen hHolds.isOpen]
      obtain ⟨hWrites, hAfter⟩ := hStream.emit command
      refine ⟨_, rfl, .binary ?_ (hSized.emit command) ?_⟩
      · rw [BinaryStream.emitAll_append, BinaryStream.emitAll_single]
        exact hAfter
      · rw [streamBytes_binary_append, ← hWrites]
        exact hHolds.foldl_accept _

theorem Carries.encodeAll (hCarries : encoder.Carries text name compressed commands)
    (more : List Command) :
    ∃ after, Encoder.encodeAll more encoder = .ok () after ∧
      after.Carries text name compressed (commands ++ more) := by
  induction more generalizing encoder commands with
  | nil =>
      rw [List.append_nil]
      exact ⟨encoder, rfl, hCarries⟩
  | cons command more ih =>
      obtain ⟨middle, hEncode, hMiddle⟩ := hCarries.encode command
      obtain ⟨after, hMore, hAfter⟩ := ih hMiddle
      rw [List.append_assoc] at hAfter
      exact ⟨after, (bind_of_ok hEncode).trans hMore, hAfter⟩

theorem Carries.of_encodeAll {after : Encoder} {more : List Command}
    (hCarries : encoder.Carries text name compressed commands)
    (hEncode : Encoder.encodeAll more encoder = .ok () after) :
    after.Carries text name compressed (commands ++ more) := by
  obtain ⟨encoded, hEncoded, hAfter⟩ := hCarries.encodeAll more
  rw [hEncode] at hEncoded
  cases hEncoded
  exact hAfter

theorem Carries.flush (hCarries : encoder.Carries text name compressed commands) :
    encoder.flush.Carries text name compressed commands := by
  cases hCarries with
  | text hHolds => exact .text (hHolds.flush.1.holds hHolds.flush.2)
  | binary hStream hSized hHolds =>
      exact .binary hStream hSized (hHolds.flush.1.holds hHolds.flush.2)

/-- An encoder with an open file refuses no command. -/
theorem encode_of_isOpen (hOpen : encoder.isOpen = true) (command : Command) :
    ∃ after, Encoder.encode command encoder = .ok () after ∧ after.isOpen = true := by
  cases encoder with
  | text writer =>
      have hWriter : writer.isOpen = true := hOpen
      unfold Encoder.encode
      dsimp only
      split
      · exact ⟨_, rfl, hOpen⟩
      · rw [Writer.write_of_isOpen hWriter]
        exact ⟨_, rfl, Writer.isOpen_accept hWriter _⟩
  | binary encoder =>
      obtain ⟨stream, writer⟩ := encoder
      have hWriter : writer.isOpen = true := hOpen
      unfold Encoder.encode
      dsimp only
      rw [BinaryEncoder.encode_of_isOpen hWriter]
      exact ⟨_, rfl, BinaryEncoder.isOpen_foldl_accept hWriter _⟩

theorem encodeAll_of_isOpen (hOpen : encoder.isOpen = true) (commands : List Command) :
    ∃ after, Encoder.encodeAll commands encoder = .ok () after ∧ after.isOpen = true := by
  induction commands generalizing encoder with
  | nil => exact ⟨encoder, rfl, hOpen⟩
  | cons command commands ih =>
      obtain ⟨middle, hEncode, hMiddle⟩ := encode_of_isOpen hOpen command
      obtain ⟨after, hRest, hAfter⟩ := ih hMiddle
      exact ⟨after, (bind_of_ok hEncode).trans hRest, hAfter⟩

theorem encodeAll_append {middle after : Encoder} {others : List Command}
    (hFirst : Encoder.encodeAll commands encoder = .ok () middle)
    (hSecond : Encoder.encodeAll others middle = .ok () after) :
    Encoder.encodeAll (commands ++ others) encoder = .ok () after := by
  induction commands generalizing encoder with
  | nil =>
      cases hFirst
      exact hSecond
  | cons command commands ih =>
      cases hEncode : Encoder.encode command encoder with
      | ok value next =>
          have hRest : Encoder.encodeAll commands next = .ok () middle :=
            (bind_of_ok hEncode).symm.trans hFirst
          exact (bind_of_ok hEncode).trans (ih hRest)
      | error fault next =>
          have hRefused := (bind_of_error hEncode).symm.trans hFirst
          cases hRefused

/-! ### Beginning and ending a file -/

theorem openStream_text (path : String) (compressed : Bool) (writer : Writer) :
    openStream path compressed (.text writer)
      = match Writer.openFile path compressed writer with
        | .ok _ opened => .ok () (.text opened)
        | .error fault closed => .error fault (.text closed) :=
  rfl

theorem openStream_binary (path : String) (compressed : Bool) (stream : BinaryStream)
    (writer : Writer) :
    openStream path compressed (.binary ⟨stream, writer⟩)
      = match Writer.openFile path compressed writer with
        | .ok _ opened => .ok () (.binary ⟨stream.restart, opened⟩)
        | .error fault closed => .error fault (.binary ⟨stream, closed⟩) :=
  rfl

/-- A path that names no file is refused alike in both forms. -/
theorem beginFile_of_none {path : String} (hNone : Directory.fileName? path = none)
    (compressed : Bool) (encoder : Encoder) :
    beginFile path compressed encoder
      = .error (.inputOutput "the file cannot be created") encoder.close := by
  have hOpenStream : openStream path compressed encoder
      = .error (.inputOutput "the file cannot be created") encoder.close := by
    cases encoder with
    | text writer =>
        rw [openStream_text, Writer.openFile_of_none hNone]
        rfl
    | binary encoder =>
        rw [openStream_binary, Writer.openFile_of_none hNone]
        rfl
  exact bind_of_error hOpenStream

theorem Ready.beginFile (hReady : encoder.Ready text) {path : String}
    (hName : Directory.fileName? path = some name) (compressed : Bool) :
    ∃ begun, Encoder.beginFile path compressed encoder = .ok () begun ∧
      begun.Carries text name compressed [openingVersion] := by
  have hBegun {opened : Encoder} (hOpen : openStream path compressed encoder = .ok () opened)
      (hOpened : opened.Carries text name compressed []) :
      ∃ begun, Encoder.beginFile path compressed encoder = .ok () begun ∧
        begun.Carries text name compressed [openingVersion] := by
    obtain ⟨begun, hEncode, hBegun⟩ := hOpened.encode openingVersion
    exact ⟨begun, (bind_of_ok hOpen).trans hEncode, hBegun⟩
  cases hReady with
  | @text writer hAccounted =>
      obtain ⟨opened, hOpen, hHolds⟩ := hAccounted.openFile hName compressed
      have hOpenStream := openStream_text path compressed writer
      rw [hOpen] at hOpenStream
      exact hBegun hOpenStream (.text hHolds)
  | @binary stream writer hSized hAccounted =>
      obtain ⟨opened, hOpen, hHolds⟩ := hAccounted.openFile hName compressed
      have hOpenStream := openStream_binary path compressed stream writer
      rw [hOpen] at hOpenStream
      exact hBegun hOpenStream (.binary hSized.restart.1 hSized.restart.2 hHolds)

/-- Only a path that names no file keeps a file from being begun; the encoder
has then closed what was open. -/
theorem beginFile_cases (hReady : encoder.Ready text) (path : String) (compressed : Bool) :
    (∃ name begun, Directory.fileName? path = some name ∧
      beginFile path compressed encoder = .ok () begun ∧
      begun.Carries text name compressed [openingVersion]) ∨
    (∃ fault, Directory.fileName? path = none ∧
      beginFile path compressed encoder = .error fault encoder.close) := by
  cases hName : Directory.fileName? path with
  | none => exact .inr ⟨_, rfl, beginFile_of_none hName compressed encoder⟩
  | some name =>
      obtain ⟨begun, hBegin, hBegun⟩ := hReady.beginFile hName compressed
      exact .inl ⟨name, begun, rfl, hBegin, hBegun⟩

/-- A closed encoder has left a file that reads as the stream. -/
theorem Carries.close (hCarries : encoder.Carries text name compressed commands) :
    ∃ content, encoder.close.writer.directory.files[name]? = some content ∧
      Writer.FileReads content.toList compressed (streamBytes text commands) := by
  cases hCarries with
  | text hHolds => exact hHolds.close.1
  | binary hStream hSized hHolds => exact hHolds.close.1

theorem Ready.close (hReady : encoder.Ready text) :
    encoder.close.Ready text ∧ encoder.close.isOpen = false := by
  cases hReady with
  | text hAccounted => exact ⟨.text (.inl hAccounted.close), hAccounted.close.1⟩
  | binary hSized hAccounted => exact ⟨.binary hSized (.inl hAccounted.close), hAccounted.close.1⟩

theorem Ready.flush (hReady : encoder.Ready text) : encoder.flush.Ready text := by
  cases hReady with
  | text hAccounted => exact .text hAccounted.flush
  | binary hSized hAccounted => exact .binary hSized hAccounted.flush

theorem close_of_closed (hClosed : encoder.isOpen = false) : encoder.close = encoder := by
  cases encoder with
  | text writer => exact congrArg Encoder.text (Writer.close_of_closed hClosed)
  | binary encoder =>
      exact congrArg (fun writer => Encoder.binary ⟨encoder.stream, writer⟩)
        (Writer.close_of_closed hClosed)

theorem isOpen_flush (encoder : Encoder) : encoder.flush.isOpen = encoder.isOpen := by
  cases encoder with
  | text writer => exact Writer.isOpen_flush writer
  | binary encoder => exact Writer.isOpen_flush encoder.writer

end Encoder
end Output
end CycleTrace
