/-
A plain file is readable at every moment.

Bytes leave the buffer of a writer in whole writes: a write waits behind the
others, or takes all of them to the file, and is never divided. A binary
encoder makes one write for each definition and one for each command, so a
plain file that is looked at between two requests holds some of the writes that
come first, and a reader that stops there has read a prefix of the trace.
Nothing of this depends on the capacity of the buffer.
-/

import CycleTrace.Lz4.StoredBlocks
import CycleTrace.Proofs.Output.RoundTrip

namespace CycleTrace
namespace Output

/-! ### Whole writes -/

namespace Writer

variable [Lz4.Codec]

/-- The writes of a plain file are whole: those that come first are in the
file, the others wait in the buffer. -/
def HoldsWhole (writer : Writer) (name : String) (writes : List (List UInt8)) : Prop :=
  ∃ delivered waiting, writes = delivered ++ waiting ∧
    writer.Delivered name false delivered.flatten ∧ writer.buffer.toList = waiting.flatten

variable {writer : Writer} {name : String} {data : List UInt8} {writes : List (List UInt8)}

theorem Holds.holdsWhole (hHolds : writer.Holds name false []) : writer.HoldsWhole name [] := by
  obtain ⟨delivered, hDelivered, hNothing⟩ := hHolds
  obtain ⟨rfl, hBuffer⟩ := List.append_eq_nil_iff.mp hNothing
  exact ⟨[], [], rfl, hDelivered, hBuffer⟩

theorem HoldsWhole.holds (hWhole : writer.HoldsWhole name writes) :
    writer.Holds name false writes.flatten := by
  obtain ⟨delivered, waiting, rfl, hDelivered, hBuffer⟩ := hWhole
  exact ⟨_, hDelivered, by rw [hBuffer, List.flatten_append]⟩

theorem HoldsWhole.accept (hWhole : writer.HoldsWhole name writes) (data : List UInt8) :
    (writer.accept data).HoldsWhole name (writes ++ [data]) := by
  obtain ⟨delivered, waiting, rfl, hDelivered, hBuffer⟩ := hWhole
  have hCases := hDelivered.accept_cases data
  rw [hBuffer, ← List.flatten_append] at hCases
  -- the write waits behind the others, or after them alone, or nothing waits any more
  rcases hCases with ⟨hNext, hWaiting⟩ | ⟨hNext, hWaiting⟩ | ⟨hNext, hWaiting⟩
  · refine ⟨delivered, waiting ++ [data], List.append_assoc _ _ _, hNext, ?_⟩
    rw [hWaiting, List.flatten_append, List.flatten_singleton]
  · refine ⟨delivered ++ waiting, [data], rfl, hNext, ?_⟩
    rw [hWaiting, List.flatten_singleton]
  · refine ⟨delivered ++ waiting ++ [data], [], (List.append_nil _).symm, ?_, hWaiting⟩
    rw [List.flatten_append, List.flatten_singleton]
    exact hNext

theorem HoldsWhole.foldl_accept (hWhole : writer.HoldsWhole name writes)
    (more : List (List UInt8)) :
    (more.foldl Writer.accept writer).HoldsWhole name (writes ++ more) := by
  induction more generalizing writer writes with
  | nil =>
      rw [List.append_nil]
      exact hWhole
  | cons first rest ih =>
      have hLater := ih (hWhole.accept first)
      rw [List.append_assoc] at hLater
      exact hLater

theorem HoldsWhole.flush (hWhole : writer.HoldsWhole name writes) :
    writer.flush.HoldsWhole name writes ∧
    ∃ content, writer.flush.directory.files[name]? = some content ∧
      content.toList = writes.flatten := by
  obtain ⟨hFlushed, hEmpty⟩ := hWhole.holds.flush
  refine ⟨⟨writes, [], (List.append_nil writes).symm, hFlushed, ?_⟩, hFlushed.content⟩
  rw [hEmpty]
  rfl

end Writer

/-! ### The writes of a stream -/

/-- The writes for a stream of commands. -/
def streamWrites (commands : List Command) : List (List UInt8) :=
  ({} : BinaryStream).writesAll commands

theorem streamWrites_append (commands others : List Command) :
    streamWrites (commands ++ others) = streamWrites commands
      ++ (({} : BinaryStream).emitAll commands).2.writesAll others :=
  BinaryStream.writesAll_append {} commands others

theorem isFrame_writes {commands : List Command} {writes : List (List UInt8)}
    (hFirst : writes <+: streamWrites (openingVersion :: commands)) (hSome : writes ≠ []) :
    Lz4.isFrame writes.flatten = false := by
  cases writes with
  | nil => exact absurd rfl hSome
  | cons first rest =>
      -- the first write is the version, and no frame begins like it
      have hVersion := (List.cons_prefix_cons.mp hFirst).1
      rw [hVersion]
      rfl

namespace Encoder

/-- A request to go on with a file or to end it; its command fits the binary
format. -/
def Request.Continues : Request → Prop
  | .beginFile .. => False
  | .encode command => command.FitsWire
  | .flush | .close => True

instance : (request : Request) → Decidable request.Continues
  | .beginFile .. => isFalse id
  | .encode command => inferInstanceAs (Decidable command.FitsWire)
  | .flush => isTrue trivial
  | .close => isTrue trivial

/-- The commands that an open file takes from requests, until one closes it. -/
def Request.taken : List Request → List Command
  | [] => []
  | .encode command :: requests => command :: taken requests
  | .flush :: requests => taken requests
  | .beginFile .. :: _ | .close :: _ => []

theorem Request.taken_prefix (requests others : List Request) :
    taken requests <+: taken (requests ++ others) := by
  induction requests with
  | nil => exact List.nil_prefix
  | cons request requests ih =>
      cases request with
      | encode command => exact (List.cons_prefix_cons).mpr ⟨rfl, ih⟩
      | flush => exact ih
      | beginFile path compressed => exact List.nil_prefix
      | close => exact List.nil_prefix

theorem Request.fitsWire_of_mem_taken {requests : List Request}
    (hContinues : ∀ request ∈ requests, request.Continues) :
    ∀ command ∈ taken requests, command.FitsWire := by
  induction requests with
  | nil =>
      intro command hNone
      cases hNone
  | cons request requests ih =>
      have hLater := ih fun other hOther => hContinues other (List.mem_cons_of_mem _ hOther)
      cases request with
      | encode command =>
          intro other hOther
          rcases List.mem_cons.mp hOther with rfl | hOther
          · exact hContinues (.encode other) List.mem_cons_self
          · exact hLater other hOther
      | flush => exact hLater
      | beginFile path compressed => exact fun command hNone => nomatch hNone
      | close => exact fun command hNone => nomatch hNone

section Codec

variable [Lz4.Codec] {encoder : Encoder} {name : String} {commands : List Command}

/-- A plain file that an encoder goes on with holds a stream in whole writes. -/
inductive Growing : Encoder → (name : String) → List Command → Prop
  | intro {stream : BinaryStream} {writer : Writer} {name : String} {commands : List Command}
      (hStream : stream.SameButCounts (({} : BinaryStream).emitAll commands).2)
      (hSized : stream.Sized) (hWhole : writer.HoldsWhole name (streamWrites commands)) :
      Growing (.binary ⟨stream, writer⟩) name commands

/-- A plain file that an encoder has closed holds all of a stream. -/
inductive Finished : Encoder → (name : String) → List Command → Prop
  | intro {stream : BinaryStream} {writer : Writer} {name : String} {commands : List Command}
      (hSized : stream.Sized) (hClosed : writer.isOpen = false)
      (hFile : ∃ content, writer.directory.files[name]? = some content ∧
        content.toList = (streamWrites commands).flatten) :
      Finished (.binary ⟨stream, writer⟩) name commands

/-! ### Requests -/

theorem Growing.encode (hGrowing : encoder.Growing name commands) (command : Command) :
    ∃ after, Encoder.encode command encoder = .ok () after ∧
      after.Growing name (commands ++ [command]) := by
  cases hGrowing with
  | @intro stream writer _ _ hStream hSized hWhole =>
      obtain ⟨hWrites, hAfter⟩ := hStream.emit command
      unfold Encoder.encode
      dsimp only
      rw [BinaryEncoder.encode_of_isOpen hWhole.holds.isOpen, hWrites]
      refine ⟨_, rfl, .intro ?_ (hSized.emit command) ?_⟩
      · rw [BinaryStream.emitAll_append, BinaryStream.emitAll_single]
        exact hAfter
      · rw [streamWrites_append, BinaryStream.writesAll_single]
        exact hWhole.foldl_accept _

theorem Growing.flush (hGrowing : encoder.Growing name commands) :
    encoder.flush.Growing name commands ∧
    ∃ content, encoder.flush.writer.directory.files[name]? = some content ∧
      content.toList = (streamWrites commands).flatten := by
  cases hGrowing with
  | intro hStream hSized hWhole =>
      exact ⟨.intro hStream hSized hWhole.flush.1, hWhole.flush.2⟩

theorem Growing.close (hGrowing : encoder.Growing name commands) :
    encoder.close.Finished name commands := by
  cases hGrowing with
  | intro hStream hSized hWhole =>
      obtain ⟨⟨content, hFile, hReads⟩, hClosed, _⟩ := hWhole.holds.close
      exact .intro hSized hClosed ⟨content, hFile, Writer.fileReads_plain.mp hReads⟩

theorem growing_beginFile (hReady : encoder.Ready false) {path : String}
    (hPath : Directory.fileName? path = some name) :
    (encoder.afterRequest (.beginFile path false)).Growing name [openingVersion] := by
  cases hReady with
  | @binary stream writer hSized hAccounted =>
      have hOpenStream := openStream_binary path false stream writer
      obtain ⟨opened, hOk, hHolds⟩ := hAccounted.openFile hPath false
      rw [hOk] at hOpenStream
      have hOpened : Growing (.binary ⟨stream.restart, opened⟩) name [] :=
        .intro hSized.restart.1 hSized.restart.2 hHolds.holdsWhole
      obtain ⟨begun, hEncode, hBegun⟩ := hOpened.encode openingVersion
      have hBegin : beginFile path false (.binary ⟨stream, writer⟩) = .ok () begun :=
        (bind_of_ok hOpenStream).trans hEncode
      unfold Encoder.afterRequest
      dsimp only
      rw [hBegin]
      exact hBegun

theorem Finished.file (hFinished : encoder.Finished name commands) :
    ∃ content, encoder.writer.directory.files[name]? = some content ∧
      content.toList = (streamWrites commands).flatten := by
  cases hFinished with
  | intro _ _ hFile => exact hFile

theorem Finished.encode (hFinished : encoder.Finished name commands) (command : Command) :
    (stateAfter (Encoder.encode command encoder)).Finished name commands := by
  cases hFinished with
  | @intro stream writer _ _ hSized hClosed hFile =>
      obtain ⟨after, hAfter, hState⟩ :=
        BinaryEncoder.leavesWriter_encode hClosed command stream hSized
      unfold Encoder.encode
      dsimp only
      cases hResult : BinaryEncoder.encode command ⟨stream, writer⟩ with
      | ok value state =>
          rw [hResult] at hState
          rw [show state = ⟨after, writer⟩ from hState]
          exact .intro hAfter hClosed hFile
      | error fault state =>
          rw [hResult] at hState
          rw [show state = ⟨after, writer⟩ from hState]
          exact .intro hAfter hClosed hFile

theorem Finished.afterRequest (hFinished : encoder.Finished name commands)
    {request : Request} (hContinues : request.Continues) :
    (encoder.afterRequest request).Finished name commands := by
  cases request with
  | beginFile path compressed => exact hContinues.elim
  | encode command => exact hFinished.encode command
  | flush =>
      cases hFinished with
      | intro hSized hClosed hFile =>
          refine .intro hSized ((Writer.isOpen_flush _).trans hClosed) ?_
          rw [Writer.flush_of_closed hClosed]
          exact hFile
  | close =>
      cases hFinished with
      | intro hSized hClosed hFile =>
          have hSame := Writer.close_of_closed hClosed
          exact .intro hSized (hSame.symm ▸ hClosed) (hSame.symm ▸ hFile)

theorem Finished.afterRequests (hFinished : encoder.Finished name commands)
    {requests : List Request} (hContinues : ∀ request ∈ requests, request.Continues) :
    (encoder.afterRequests requests).Finished name commands := by
  induction requests generalizing encoder with
  | nil => exact hFinished
  | cons request requests ih =>
      rw [List.forall_mem_cons] at hContinues
      exact ih (hFinished.afterRequest hContinues.1) hContinues.2

/-- Requests that follow the beginning of a plain file keep it growing until one
of them finishes it. -/
theorem Growing.afterRequests (hGrowing : encoder.Growing name commands)
    {requests : List Request} (hContinues : ∀ request ∈ requests, request.Continues) :
    (encoder.afterRequests requests).Growing name (commands ++ Request.taken requests) ∨
    (encoder.afterRequests requests).Finished name (commands ++ Request.taken requests) := by
  induction requests generalizing encoder commands with
  | nil =>
      rw [Request.taken, List.append_nil]
      exact .inl hGrowing
  | cons request requests ih =>
      rw [List.forall_mem_cons] at hContinues
      obtain ⟨hContinues, hLater⟩ := hContinues
      cases request with
      | beginFile path compressed => exact hContinues.elim
      | encode command =>
          obtain ⟨after, hEncode, hAfter⟩ := hGrowing.encode command
          have hRest := ih hAfter hLater
          rw [List.append_assoc] at hRest
          rw [← stateAfter_of_ok hEncode] at hRest
          exact hRest
      | flush => exact ih hGrowing.flush.1 hLater
      | close =>
          rw [Request.taken, List.append_nil]
          exact .inr (hGrowing.close.afterRequests hLater)

/-! ### Moments -/

theorem Growing.file (hGrowing : encoder.Growing name commands) :
    ∃ content writes, encoder.writer.directory.files[name]? = some content ∧
      content.toList = writes.flatten ∧ writes <+: streamWrites commands := by
  cases hGrowing with
  | intro _ _ hWhole =>
      obtain ⟨delivered, waiting, hWrites, hDelivered, _⟩ := hWhole
      obtain ⟨content, hFile, hContent⟩ := hDelivered.content
      exact ⟨content, delivered, hFile, hContent, waiting, hWrites.symm⟩

/-- A reader that stops after some writes of a trace has read commands that the
trace begins with. -/
theorem readTrace_writes {trace : List Command} {after : Wire.Decoder}
    (hEach : (Wire.Decoder.ofBytes []).FollowsEach
      (streamWrites (openingVersion :: commands)) trace after)
    {writes : List (List UInt8)} (hFirst : writes <+: streamWrites (openingVersion :: commands))
    (hSome : writes ≠ []) :
    ∃ decoded, Inspection.readTrace writes.flatten = .ok decoded ∧ decoded <+: trace := by
  obtain ⟨middle, hTaken⟩ := hEach.take writes.length
  rw [← List.prefix_iff_eq_take.mp hFirst] at hTaken
  refine ⟨_, ?_, List.take_prefix writes.length trace⟩
  unfold Inspection.readTrace
  rw [isFrame_writes hFirst hSome, if_neg Bool.false_ne_true]
  exact Wire.decode_of_followsEach hTaken hSome

theorem readTrace_streamWrites (hFits : ∀ command ∈ commands, command.FitsWire) :
    ∃ trace after, (Wire.Decoder.ofBytes []).FollowsEach
        (streamWrites (openingVersion :: commands)) trace after ∧
      Inspection.readTrace (streamWrites (openingVersion :: commands)).flatten = .ok trace ∧
      withoutDefinitions trace
        = openingVersion :: dropRepeatedCycles none (withoutDefinitions commands) := by
  obtain ⟨trace, after, hEach, hTrace⟩ := BinaryStream.followsEach_writesAll hFits
  refine ⟨trace, after, hEach, ?_, hTrace⟩
  have hSome : streamWrites (openingVersion :: commands) ≠ [] := List.cons_ne_nil _ _
  unfold Inspection.readTrace
  rw [isFrame_writes (List.prefix_refl _) hSome, if_neg Bool.false_ne_true]
  exact Wire.decode_of_followsEach hEach hSome

/-- The directory that the requests of a binary encoder leave. -/
def directoryAfter (bufferBytes : Nat) (directory : Directory) (requests : List Request) :
    Directory :=
  ((ofForm false bufferBytes directory).afterRequests requests).writer.directory

theorem standing (bufferBytes : Nat) (directory : Directory) (history : List Request)
    {path : String} (hPath : Directory.fileName? path = some name) {requests : List Request}
    (hContinues : ∀ request ∈ requests, request.Continues) :
    ((ofForm false bufferBytes directory).afterRequests
      (history ++ .beginFile path false :: requests)).Growing name
        (openingVersion :: Request.taken requests) ∨
    ((ofForm false bufferBytes directory).afterRequests
      (history ++ .beginFile path false :: requests)).Finished name
        (openingVersion :: Request.taken requests) := by
  have hReady := (ready_ofForm false bufferBytes directory).afterRequests history
  have hStanding := (growing_beginFile hReady hPath).afterRequests hContinues
  unfold Encoder.afterRequests at hStanding ⊢
  rw [List.foldl_append]
  exact hStanding

theorem readTraceAt_of_file {directory : Directory} {path : String}
    (hPath : Directory.fileName? path = some name) {content : Array UInt8}
    (hFile : directory.files[name]? = some content) :
    Inspection.readTraceAt directory path = Inspection.readTrace content.toList := by
  unfold Inspection.readTraceAt
  rw [Directory.find?_of_fileName? hPath, hFile]

theorem file_of_delivering
    (hStanding : encoder.Growing name commands ∨ encoder.Finished name commands)
    {request : Request} (hDelivers : request = .flush ∨ request = .close) :
    ∃ content, (encoder.afterRequest request).writer.directory.files[name]? = some content ∧
      content.toList = (streamWrites commands).flatten := by
  rcases hStanding with hGrowing | hFinished
  · rcases hDelivers with rfl | rfl
    · exact hGrowing.flush.2
    · exact hGrowing.close.file
  · have hContinues : request.Continues := by
      rcases hDelivers with rfl | rfl <;> exact trivial
    exact (hFinished.afterRequest hContinues).file

theorem afterRequests_snoc (requests : List Request) (request : Request) :
    encoder.afterRequests (requests ++ [request])
      = (encoder.afterRequests requests).afterRequest request := by
  unfold Encoder.afterRequests
  rw [List.foldl_append]
  rfl

theorem readTraceAt_delivering (bufferBytes : Nat) (directory : Directory)
    (history : List Request) {path : String} {requests : List Request}
    (hPath : Directory.fileName? path = some name)
    (hContinues : ∀ request ∈ requests, request.Continues) {request : Request}
    (hDelivers : request = .flush ∨ request = .close) :
    Inspection.readTraceAt (directoryAfter bufferBytes directory
        (history ++ .beginFile path false :: (requests ++ [request]))) path
      = Inspection.readTrace
          (streamWrites (openingVersion :: Request.taken requests)).flatten := by
  have hStanding := standing bufferBytes directory history hPath hContinues
  obtain ⟨content, hFile, hContent⟩ := file_of_delivering hStanding hDelivers
  rw [← afterRequests_snoc, List.append_assoc, List.cons_append] at hFile
  rw [directoryAfter, readTraceAt_of_file hPath hFile, hContent]

/-- A plain file can be read at every moment between two requests. It is empty
or holds commands that the trace begins with, and once the encoder was flushed
or closed it holds all that it took so far. -/
theorem readTraceAt_moments (bufferBytes : Nat) (directory : Directory)
    (history : List Request) {path name : String} {requests : List Request}
    (hPath : Directory.fileName? path = some name)
    (hContinues : ∀ request ∈ requests, request.Continues) :
    ∃ trace,
      Inspection.readTraceAt (directoryAfter bufferBytes directory
        (history ++ .beginFile path false :: (requests ++ [.close]))) path = .ok trace ∧
      withoutDefinitions trace = openingVersion ::
        dropRepeatedCycles none (withoutDefinitions (Request.taken requests)) ∧
      (∀ earlier later, requests = earlier ++ later →
        (directoryAfter bufferBytes directory
          (history ++ .beginFile path false :: earlier)).find? path = some #[] ∨
        ∃ decoded, Inspection.readTraceAt (directoryAfter bufferBytes directory
            (history ++ .beginFile path false :: earlier)) path = .ok decoded ∧
          decoded <+: trace) ∧
      (∀ earlier request later, requests = earlier ++ request :: later →
        request = .flush ∨ request = .close →
        ∃ decoded, Inspection.readTraceAt (directoryAfter bufferBytes directory
            (history ++ .beginFile path false :: (earlier ++ [request]))) path = .ok decoded ∧
          decoded <+: trace ∧
          withoutDefinitions decoded = openingVersion ::
            dropRepeatedCycles none (withoutDefinitions (Request.taken earlier))) := by
  obtain ⟨trace, after, hEach, hAll, hTrace⟩ :=
    readTrace_streamWrites (Request.fitsWire_of_mem_taken hContinues)
  -- the writes up to a moment come first among the writes of the whole trace
  have hEarlier {earlier later : List Request} (hSplit : requests = earlier ++ later) :
      (∀ request ∈ earlier, request.Continues) ∧
      streamWrites (openingVersion :: Request.taken earlier)
        <+: streamWrites (openingVersion :: Request.taken requests) := by
    refine ⟨fun request hMember => hContinues request ?_, ?_⟩
    · rw [hSplit]
      exact List.mem_append_left later hMember
    · obtain ⟨more, hTaken⟩ := Request.taken_prefix earlier later
      rw [hSplit, ← hTaken, ← List.cons_append, streamWrites_append]
      exact List.prefix_append _ _
  refine ⟨trace, ?_, hTrace, ?_, ?_⟩
  · rw [readTraceAt_delivering bufferBytes directory history hPath hContinues (.inr rfl)]
    exact hAll
  · intro earlier later hSplit
    obtain ⟨hBefore, hFirst⟩ := hEarlier hSplit
    have hFile : ∃ content writes, (directoryAfter bufferBytes directory
        (history ++ .beginFile path false :: earlier)).files[name]? = some content ∧
        content.toList = writes.flatten ∧
        writes <+: streamWrites (openingVersion :: Request.taken earlier) := by
      rcases standing bufferBytes directory history hPath hBefore with hGrowing | hFinished
      · exact hGrowing.file
      · obtain ⟨content, hFile, hContent⟩ := hFinished.file
        exact ⟨content, _, hFile, hContent, List.prefix_refl _⟩
    obtain ⟨content, writes, hFile, hContent, hWrites⟩ := hFile
    by_cases hSome : writes = []
    · left
      rw [hSome, List.flatten_nil, Array.toList_eq_nil_iff] at hContent
      rw [Directory.find?_of_fileName? hPath, hFile, hContent]
    · right
      rw [readTraceAt_of_file hPath hFile, hContent]
      exact readTrace_writes hEach (hWrites.trans hFirst) hSome
  · intro earlier request later hSplit hDelivers
    obtain ⟨hBefore, hFirst⟩ := hEarlier hSplit
    obtain ⟨decoded, _, _, hRead, hDecoded⟩ :=
      readTrace_streamWrites (Request.fitsWire_of_mem_taken hBefore)
    obtain ⟨first, hSame, hPart⟩ := readTrace_writes hEach hFirst (List.cons_ne_nil _ _)
    rw [hRead, Except.ok.injEq] at hSame
    rw [readTraceAt_delivering bufferBytes directory history hPath hBefore hDelivers]
    exact ⟨decoded, hRead, hSame ▸ hPart, hDecoded⟩

end Codec

/-- A file that is begun after another one through a small buffer: what a
reader finds in it after the flush, and in the end. -/
theorem readTraceAt_moments_small_buffer :
    ∃ trace decoded,
      Inspection.readTraceAt (directoryAfter 4 {}
        [.beginFile "first.ptr" true, .encode (.cycle 9), .beginFile "./run.ptr" false,
          .encode (.tagItem 7 "op" (.text "load")), .flush, .encode (.cycle 1), .close,
          .encode (.cycle 2), .close]) "./run.ptr" = .ok trace ∧
      withoutDefinitions trace
        = [openingVersion, .tagItem 7 "op" (.text "load"), .cycle 1] ∧
      Inspection.readTraceAt (directoryAfter 4 {}
        [.beginFile "first.ptr" true, .encode (.cycle 9), .beginFile "./run.ptr" false,
          .encode (.tagItem 7 "op" (.text "load")), .flush]) "./run.ptr" = .ok decoded ∧
      decoded <+: trace ∧
      withoutDefinitions decoded = [openingVersion, .tagItem 7 "op" (.text "load")] := by
  have hPath : Directory.fileName? "./run.ptr" = some "run.ptr" := rfl
  have hContinues : ∀ request ∈ [Request.encode (.tagItem 7 "op" (.text "load")), .flush,
      .encode (.cycle 1), .close, .encode (.cycle 2)], request.Continues := by decide
  obtain ⟨trace, hRead, hTrace, _, hDelivered⟩ := readTraceAt_moments 4 {}
    [.beginFile "first.ptr" true, .encode (.cycle 9)] hPath hContinues
  obtain ⟨decoded, hDecoded, hPart, hSofar⟩ := hDelivered
    [.encode (.tagItem 7 "op" (.text "load"))] .flush _ rfl (.inl rfl)
  exact ⟨trace, decoded, hRead, hTrace, hDecoded, hPart, hSofar⟩

end Encoder
end Output
end CycleTrace
