/-
A stream knows nothing of the streams before it.

An encoder carries its tables, its last identifiers and its last clocked cycle
from one file to the next, and commands that were refused for want of a file
have changed them too. Beginning a file makes all of this what it is in a new
encoder. So an encoder that was used and one that is new go abreast from there:
they answer alike and ask their writers for the same things, which means the
same bytes in the same writes. What is left of the earlier streams are counts,
and nothing that is written depends on a count.

`KeepsAbreast` states this for the parts of encoding, from which the requests
follow. It needs no open file, for a refusal changes both streams in the same
way.
-/

import CycleTrace.Lz4.StoredBlocks
import CycleTrace.Proofs.Output.Buffering
import CycleTrace.Proofs.Output.RoundTrip

namespace CycleTrace
namespace Output

/-! ### Two streams -/

namespace BinaryStream

/-- Counts are all that a stream could keep from one file to the next. -/
theorem SameButCounts.restart {stream other : BinaryStream} (hSame : SameButCounts stream other) :
    SameButCounts stream.restart other.restart := by
  have hTags : stream.tags.uncounted.capacity = other.tags.uncounted.capacity :=
    congrArg Wire.RecencyTable.capacity hSame.tags_uncounted
  have hTexts : stream.texts.uncounted.capacity = other.texts.uncounted.capacity :=
    congrArg Wire.RecencyTable.capacity hSame.texts_uncounted
  change stream.tags.capacity = other.tags.capacity at hTags
  change stream.texts.capacity = other.texts.capacity at hTexts
  unfold SameButCounts uncounted BinaryStream.restart
  unfold Wire.RecencyTable.uncounted Wire.RecencyTable.clear
  rw [hTags, hTexts]

end BinaryStream

/-! ### Two writers with the same buffer -/

namespace Directory

variable {directory twin : Directory} {name other : String}

theorem getElem?_append_congr (hSame : twin.files[other]? = directory.files[other]?)
    (bytes : List UInt8) :
    (twin.append name bytes).files[other]? = (directory.append name bytes).files[other]? := by
  by_cases hName : name = other
  · subst hName
    unfold append
    rw [Std.TreeMap.getElem?_modify_self, Std.TreeMap.getElem?_modify_self, hSame]
  · rw [getElem?_append_other twin hName, getElem?_append_other directory hName, hSame]

theorem getElem?_create_congr (hSame : twin.files[other]? = directory.files[other]?) :
    (twin.create name).files[other]? = (directory.create name).files[other]? := by
  by_cases hName : name = other
  · subst hName
    rw [getElem?_files_create, getElem?_files_create]
  · rw [getElem?_create_other twin hName, getElem?_create_other directory hName, hSame]

end Directory

namespace Writer

variable [Lz4.Codec]

/-- Two writers with the same open file and the same data in their buffers. The
files they have in common are the open one and the one of the given name. -/
structure Beside (name : String) (writer twin : Writer) : Prop where
  capacity : twin.capacity = writer.capacity
  buffer : twin.buffer = writer.buffer
  sink : twin.sink = writer.sink
  files : ∀ other, other = name ∨ writer.openName? = some other →
    twin.directory.files[other]? = writer.directory.files[other]?

section Beside

variable {name : String} {writer twin : Writer}

theorem Beside.isOpen (hBeside : writer.Beside name twin) : twin.isOpen = writer.isOpen :=
  congrArg Option.isSome hBeside.sink

theorem Beside.deliver (hBeside : writer.Beside name twin) {sink : Sink}
    (hSink : writer.sink = some sink) (bytes : List UInt8) :
    (writer.deliver sink bytes).Beside name (twin.deliver sink bytes) := by
  have hOpen : writer.openName? = some sink.name := by
    unfold openName?
    rw [hSink]
    rfl
  unfold Writer.deliver
  cases hFrame : sink.frame with
  | none =>
      exact ⟨hBeside.capacity, hBeside.buffer, hBeside.sink,
        fun other hOther => Directory.getElem?_append_congr (hBeside.files other hOther) _⟩
  | some frame =>
      refine ⟨hBeside.capacity, hBeside.buffer, rfl, fun other hOther => ?_⟩
      exact Directory.getElem?_append_congr (hBeside.files other (hOpen ▸ hOther)) _

theorem Beside.spill (hBeside : writer.Beside name twin) :
    writer.spill.Beside name twin.spill := by
  unfold Writer.spill
  rw [hBeside.sink, hBeside.buffer]
  cases hSink : writer.sink with
  | none => exact hBeside
  | some sink =>
      dsimp only
      split
      · exact hBeside
      · have hDelivered := hBeside.deliver hSink writer.buffer.toList
        exact ⟨hDelivered.capacity, rfl, hDelivered.sink, hDelivered.files⟩

theorem Beside.accept (hBeside : writer.Beside name twin) (data : List UInt8) :
    (writer.accept data).Beside name (twin.accept data) := by
  have hCounted : ({ writer with accepted := writer.accepted + data.length } : Writer).Beside name
      { twin with accepted := twin.accepted + data.length } :=
    ⟨hBeside.capacity, hBeside.buffer, hBeside.sink, hBeside.files⟩
  have hSpilled := hCounted.spill
  have hRoom : twin.buffer.size + data.length ≤ twin.capacity ↔
      writer.buffer.size + data.length ≤ writer.capacity := by
    rw [hBeside.buffer, hBeside.capacity]
  have hCollected {buffer other : Array UInt8} (hBuffer : other = buffer) :
      other ++ data = buffer ++ data := by
    rw [hBuffer]
  unfold Writer.accept
  dsimp only
  rw [hSpilled.capacity, hSpilled.sink]
  -- the first writer decides, and the second has as much room
  split
  · next hFits =>
      rw [if_pos (hRoom.mpr hFits)]
      exact ⟨hBeside.capacity, hCollected hBeside.buffer, hBeside.sink, hBeside.files⟩
  · next hFull =>
      rw [if_neg (mt hRoom.mp hFull)]
      split
      · exact ⟨rfl, hCollected hSpilled.buffer, rfl, hSpilled.files⟩
      · split
        · exact hSpilled
        · next sink hSink => exact hSpilled.deliver hSink data

theorem Beside.flush (hBeside : writer.Beside name twin) :
    writer.flush.Beside name twin.flush := by
  have hSpilled := hBeside.spill
  unfold Writer.flush
  dsimp only
  rw [hSpilled.sink]
  split
  · next path file frame hSink =>
      have hOpen : writer.spill.openName? = some file := by
        unfold openName?
        rw [hSink]
        rfl
      refine ⟨hSpilled.capacity, hSpilled.buffer, rfl, fun other hOther => ?_⟩
      exact Directory.getElem?_append_congr (hSpilled.files other (hOpen ▸ hOther)) _
  · exact hSpilled

theorem isOpen_close (writer : Writer) : writer.close.isOpen = false := by
  unfold Writer.close
  dsimp only
  split
  · next hNone => exact Option.isSome_eq_false_iff.mpr (Option.isNone_iff_eq_none.mpr hNone)
  · rfl

theorem Beside.close (hBeside : writer.Beside name twin) :
    writer.close.Beside name twin.close := by
  have hFlushed := hBeside.flush
  unfold Writer.close
  dsimp only
  rw [hFlushed.sink]
  split
  · exact hFlushed
  · refine ⟨hFlushed.capacity, hFlushed.buffer, rfl, fun other hOther => ?_⟩
    -- nothing is open now, so only the file of the given name is left to compare
    rcases hOther with rfl | hNone
    · exact Directory.getElem?_append_congr (hFlushed.files other (.inl rfl)) _
    · cases hNone

theorem Beside.openFile (hBeside : writer.Beside name twin) (path : String) (compressed : Bool) :
    (writer.afterCall (.openFile path compressed)).Beside name
      (twin.afterCall (.openFile path compressed)) := by
  have hClosed := hBeside.close
  unfold Writer.afterCall
  dsimp only
  cases hFile : Directory.fileName? path with
  | none =>
      rw [openFile_of_none hFile, openFile_of_none hFile]
      exact hClosed
  | some file =>
      rw [openFile_of_fileName? hFile, openFile_of_fileName? hFile]
      refine ⟨hClosed.capacity, hClosed.buffer, rfl, fun other hOther => ?_⟩
      rcases hOther with rfl | hOpen
      · exact Directory.getElem?_create_congr (hClosed.files other (.inl rfl))
      · cases hOpen
        exact (Directory.getElem?_files_create _ _).trans
          (Directory.getElem?_files_create _ _).symm

theorem Beside.afterCall (hBeside : writer.Beside name twin) (call : Call) :
    (writer.afterCall call).Beside name (twin.afterCall call) := by
  cases call with
  | openFile path compressed => exact hBeside.openFile path compressed
  | write data =>
      unfold Writer.afterCall
      dsimp only
      cases hOpen : writer.isOpen with
      | false =>
          rw [write_of_closed hOpen, write_of_closed (hBeside.isOpen.trans hOpen)]
          exact hBeside
      | true =>
          rw [write_of_isOpen hOpen, write_of_isOpen (hBeside.isOpen.trans hOpen)]
          exact hBeside.accept data
  | flush => exact hBeside.flush
  | close => exact hBeside.close

theorem Beside.afterCalls (hBeside : writer.Beside name twin) (calls : List Call) :
    (writer.afterCalls calls).Beside name (twin.afterCalls calls) := by
  induction calls generalizing writer twin with
  | nil => exact hBeside
  | cons call calls ih => exact ih (hBeside.afterCall call)

/-- Two writers that have nothing in common but the capacity are side by side
once they open a file by the same path. -/
theorem beside_opened (hCapacity : twin.capacity = writer.capacity)
    (hAccounted : writer.Accounted) (hTwin : twin.Accounted) {path : String}
    (hName : Directory.fileName? path = some name) (compressed : Bool) :
    (writer.afterCall (.openFile path compressed)).Beside name
      (twin.afterCall (.openFile path compressed)) := by
  have hCreated (before : Writer) : before.afterCall (.openFile path compressed)
      = { before.close with
          directory := before.close.directory.create name
          sink := some ⟨path, name, if compressed then some Lz4.Coder.start else none⟩ } :=
    stateAfter_of_ok (openFile_of_fileName? hName compressed before)
  rw [hCreated, hCreated]
  refine ⟨?_, hTwin.close.2.trans hAccounted.close.2.symm, rfl, fun other hOther => ?_⟩
  · exact (movesOnly_close twin).capacity.trans
      (hCapacity.trans (movesOnly_close writer).capacity.symm)
  · have hSame : other = name := by
      rcases hOther with rfl | hOpen
      · rfl
      · exact (Option.some.inj hOpen).symm
    subst hSame
    exact (Directory.getElem?_files_create _ _).trans (Directory.getElem?_files_create _ _).symm

theorem afterCalls_append (writer : Writer) (calls others : List Call) :
    writer.afterCalls (calls ++ others) = (writer.afterCalls calls).afterCalls others :=
  List.foldl_append

end Beside
end Writer

/-! ### Two encoders -/

section Codec

variable [Lz4.Codec]

/-- Two encoders at the same place of a stream, whose writers were asked for the
same things since the one was `origin` and the other `twin`. -/
structure Abreast (origin twin : Writer) (first second : BinaryEncoder) : Prop where
  stream : first.stream.SameButCounts second.stream
  opens : second.writer.isOpen = first.writer.isOpen
  calls : ∃ calls, first.writer = origin.afterCalls calls ∧ second.writer = twin.afterCalls calls

/-- Two computations end in the same way and leave the encoders abreast. -/
inductive EndAbreast (origin twin : Writer) :
    EStateM.Result Fault BinaryEncoder α → EStateM.Result Fault BinaryEncoder α → Prop
  | granted (value : α) {first second : BinaryEncoder}
      (hAfter : Abreast origin twin first second) :
      EndAbreast origin twin (.ok value first) (.ok value second)
  | refused (fault : Fault) {first second : BinaryEncoder}
      (hAfter : Abreast origin twin first second) :
      EndAbreast origin twin (.error fault first) (.error fault second)

/-- A part of encoding that ends in the same way for encoders abreast and leaves
them so. -/
def KeepsAbreast (origin twin : Writer) (act : BinaryEncoding α) : Prop :=
  ∀ ⦃first second : BinaryEncoder⦄, Abreast origin twin first second →
    EndAbreast origin twin (act first) (act second)

section Abreast

variable {origin twin : Writer} {first second : BinaryEncoder}

theorem KeepsAbreast.pure (value : α) : KeepsAbreast origin twin (pure value) :=
  fun _ _ hAbreast => .granted value hAbreast

theorem KeepsAbreast.bind {act : BinaryEncoding α} {next : α → BinaryEncoding β}
    (hAct : KeepsAbreast origin twin act) (hNext : ∀ value, KeepsAbreast origin twin (next value)) :
    KeepsAbreast origin twin (act >>= next) := by
  intro first second hAbreast
  have hMiddle := hAct hAbreast
  cases hFirst : act first with
  | ok value middle =>
      rw [hFirst] at hMiddle
      generalize hSecond : act second = ending at hMiddle
      cases hMiddle with
      | granted _ hAfter =>
          rw [bind_of_ok hFirst, bind_of_ok hSecond]
          exact hNext value hAfter
  | error fault middle =>
      rw [hFirst] at hMiddle
      generalize hSecond : act second = ending at hMiddle
      cases hMiddle with
      | refused _ hAfter =>
          rw [bind_of_error hFirst, bind_of_error hSecond]
          exact .refused fault hAfter

/-- Another call to both writers. -/
theorem Abreast.called (hAbreast : Abreast origin twin first second) (call : Writer.Call)
    {after other : BinaryEncoder} (hStream : after.stream.SameButCounts other.stream)
    (hOpens : other.writer.isOpen = after.writer.isOpen)
    (hAfter : after.writer = first.writer.afterCall call)
    (hOther : other.writer = second.writer.afterCall call) : Abreast origin twin after other := by
  obtain ⟨calls, hFirst, hSecond⟩ := hAbreast.calls
  refine ⟨hStream, hOpens, calls ++ [call], ?_, ?_⟩
  · rw [hAfter, hFirst, Writer.afterCalls_append]
    rfl
  · rw [hOther, hSecond, Writer.afterCalls_append]
    rfl

theorem keepsAbreast_write (bytes : List UInt8) :
    KeepsAbreast origin twin (BinaryEncoder.write bytes) := by
  rintro ⟨stream, writer⟩ ⟨other, another⟩ hAbreast
  have hOpens : another.isOpen = writer.isOpen := hAbreast.opens
  cases hOpen : writer.isOpen with
  | true =>
      have hAnother := hOpens.trans hOpen
      -- the writers differ, but they are asked for the same bytes
      rw [BinaryEncoder.write_of_isOpen hOpen, BinaryEncoder.write_of_isOpen hAnother]
      refine .granted () (hAbreast.called (.write bytes) hAbreast.stream ?_ ?_ ?_)
      · exact (Writer.isOpen_accept hAnother bytes).trans (Writer.isOpen_accept hOpen bytes).symm
      · exact (stateAfter_of_ok (Writer.write_of_isOpen hOpen bytes)).symm
      · exact (stateAfter_of_ok (Writer.write_of_isOpen hAnother bytes)).symm
  | false =>
      unfold BinaryEncoder.write
      dsimp only
      rw [Writer.write_of_closed hOpen, Writer.write_of_closed (hOpens.trans hOpen)]
      exact .refused _ hAbreast

/-- A part of encoding that does not touch the writer goes by the stream alone. -/
theorem keepsAbreast_of_stream {act : BinaryEncoding α} {answer : BinaryStream → α}
    {change : BinaryStream → BinaryStream}
    (hAct : ∀ stream writer, act ⟨stream, writer⟩ = .ok (answer stream) ⟨change stream, writer⟩)
    (hSame : ∀ stream other : BinaryStream, stream.SameButCounts other →
      answer stream = answer other ∧ (change stream).SameButCounts (change other)) :
    KeepsAbreast origin twin act := by
  rintro ⟨stream, writer⟩ ⟨other, another⟩ hAbreast
  obtain ⟨hAnswer, hChange⟩ := hSame stream other hAbreast.stream
  rw [hAct, hAct, hAnswer]
  exact .granted _ ⟨hChange, hAbreast.opens, hAbreast.calls⟩

theorem keepsAbreast_assignTag (name : String) :
    KeepsAbreast origin twin (BinaryEncoder.assignTag name) := by
  refine keepsAbreast_of_stream (fun _ _ => rfl) fun stream other hSame => ?_
  obtain ⟨hAssignment, hTags⟩ :=
    Wire.RecencyTable.assign_eq_of_uncounted hSame.tags_uncounted name
  exact ⟨hAssignment, .ofFields hSame.last_eq hTags hSame.texts_uncounted
    hSame.lastClockedCycle_eq⟩

theorem keepsAbreast_assignText (value : String) :
    KeepsAbreast origin twin (BinaryEncoder.assignText value) := by
  refine keepsAbreast_of_stream (fun _ _ => rfl) fun stream other hSame => ?_
  obtain ⟨hAssignment, hTexts⟩ :=
    Wire.RecencyTable.assign_eq_of_uncounted hSame.texts_uncounted value
  exact ⟨hAssignment, .ofFields hSame.last_eq hSame.tags_uncounted hTexts
    hSame.lastClockedCycle_eq⟩

theorem keepsAbreast_layOut (tag : UInt8) (text : UInt16) (command : Command) :
    KeepsAbreast origin twin (BinaryEncoder.layOut tag text command) := by
  refine keepsAbreast_of_stream (fun _ _ => rfl) fun stream other hSame => ?_
  rw [hSame.last_eq]
  exact ⟨rfl, .ofFields rfl hSame.tags_uncounted hSame.texts_uncounted hSame.lastClockedCycle_eq⟩

theorem keepsAbreast_noteClockedCycle (cycle : ClockedCycle) :
    KeepsAbreast origin twin (BinaryEncoder.noteClockedCycle cycle) := by
  rintro ⟨stream, writer⟩ ⟨other, another⟩ hAbreast
  have hSame : stream.SameButCounts other := hAbreast.stream
  have hLast := hSame.lastClockedCycle_eq
  rw [BinaryEncoder.noteClockedCycle_eq, BinaryEncoder.noteClockedCycle_eq, ← hLast]
  split
  · refine .granted true ⟨?_, hAbreast.opens, hAbreast.calls⟩
    exact .ofFields hSame.last_eq hSame.tags_uncounted hSame.texts_uncounted rfl
  · refine .granted false ⟨?_, hAbreast.opens, hAbreast.calls⟩
    exact .ofFields hSame.last_eq hSame.tags_uncounted hSame.texts_uncounted rfl

theorem keepsAbreast_defineTag (name : Option String) :
    KeepsAbreast origin twin (BinaryEncoder.defineTag name) := by
  cases name with
  | none => exact .pure 0
  | some name =>
      refine (keepsAbreast_assignTag name).bind fun assignment => ?_
      cases assignment.isNew with
      | false => exact .pure _
      | true => exact (keepsAbreast_write _).bind fun _ => .pure _

theorem keepsAbreast_defineText (value : Option String) :
    KeepsAbreast origin twin (BinaryEncoder.defineText value) := by
  cases value with
  | none => exact .pure 0
  | some value =>
      refine (keepsAbreast_assignText value).bind fun assignment => ?_
      cases assignment.isNew with
      | false => exact .pure _
      | true => exact (keepsAbreast_write _).bind fun _ => .pure _

theorem keepsAbreast_encodeDefined (command : Command) :
    KeepsAbreast origin twin (BinaryEncoder.encodeDefined command) :=
  (keepsAbreast_defineTag _).bind fun tag =>
    (keepsAbreast_defineText _).bind fun text =>
      (keepsAbreast_layOut tag text command).bind fun bytes => keepsAbreast_write bytes

theorem keepsAbreast_encode (command : Command) :
    KeepsAbreast origin twin (BinaryEncoder.encode command) := by
  cases command with
  | defineTag id name => exact .pure ()
  | defineText id value => exact .pure ()
  | clockedCycle cycle =>
      refine (keepsAbreast_noteClockedCycle cycle).bind fun repeated => ?_
      cases repeated with
      | false => exact keepsAbreast_encodeDefined _
      | true => exact .pure ()
  | _ => exact keepsAbreast_encodeDefined _

end Abreast

end Codec

/-! ### Requests -/

/-- The value or the fault that a computation ends with. -/
def outcome : EStateM.Result ε σ α → Except ε α
  | .ok value _ => .ok value
  | .error fault _ => .error fault

namespace Encoder

section Codec

variable [Lz4.Codec]

/-- The answer to a request. -/
def answerTo (encoder : Encoder) : Request → Except Fault Unit
  | .beginFile path compressed => outcome (Encoder.beginFile path compressed encoder)
  | .encode command => outcome (Encoder.encode command encoder)
  | .flush | .close => .ok ()

/-- The answers to requests in order. -/
def answersTo (encoder : Encoder) : List Request → List (Except Fault Unit)
  | [] => []
  | request :: requests =>
      encoder.answerTo request :: (encoder.afterRequest request).answersTo requests

section Abreast

variable {origin twin : Writer} {first second : BinaryEncoder}

/-- Two encoders abreast answer in the same way and stay abreast. -/
inductive AnswersAbreast (origin twin : Writer) :
    EStateM.Result Fault Encoder Unit → EStateM.Result Fault Encoder Unit → Prop
  | granted {first second : BinaryEncoder} (hAfter : Abreast origin twin first second) :
      AnswersAbreast origin twin (.ok () (.binary first)) (.ok () (.binary second))
  | refused (fault : Fault) {first second : BinaryEncoder}
      (hAfter : Abreast origin twin first second) :
      AnswersAbreast origin twin (.error fault (.binary first)) (.error fault (.binary second))

theorem AnswersAbreast.outcome_eq {answer other : EStateM.Result Fault Encoder Unit}
    (hAnswers : AnswersAbreast origin twin answer other) : outcome answer = outcome other := by
  cases hAnswers <;> rfl

theorem AnswersAbreast.stateAfter {answer other : EStateM.Result Fault Encoder Unit}
    (hAnswers : AnswersAbreast origin twin answer other) :
    ∃ first second, Output.stateAfter answer = .binary first ∧
      Output.stateAfter other = .binary second ∧ Abreast origin twin first second := by
  cases hAnswers with
  | granted hAfter => exact ⟨_, _, rfl, rfl, hAfter⟩
  | refused fault hAfter => exact ⟨_, _, rfl, rfl, hAfter⟩

theorem answersAbreast_encode (hAbreast : Abreast origin twin first second) (command : Command) :
    AnswersAbreast origin twin (Encoder.encode command (.binary first))
      (Encoder.encode command (.binary second)) := by
  have hEnd : EndAbreast origin twin (BinaryEncoder.encode command first)
      (BinaryEncoder.encode command second) := keepsAbreast_encode command hAbreast
  unfold Encoder.encode
  dsimp only
  generalize BinaryEncoder.encode command first = ending at hEnd
  generalize BinaryEncoder.encode command second = other at hEnd
  cases hEnd with
  | granted value hAfter => exact .granted hAfter
  | refused fault hAfter => exact .refused fault hAfter

/-- A path that names a file begins a stream in it. -/
theorem beginFile_binary {path name : String} (hName : Directory.fileName? path = some name)
    (compressed : Bool) (stream : BinaryStream) (writer : Writer) :
    beginFile path compressed (.binary ⟨stream, writer⟩)
      = encode openingVersion
          (.binary ⟨stream.restart, writer.afterCall (.openFile path compressed)⟩) := by
  have hOpened := Writer.openFile_of_fileName? hName compressed writer
  have hOpen : openStream path compressed (.binary ⟨stream, writer⟩)
      = .ok () (.binary ⟨stream.restart, writer.afterCall (.openFile path compressed)⟩) := by
    rw [openStream_binary, hOpened]
    unfold Writer.afterCall
    dsimp only
    rw [hOpened]
    rfl
  exact bind_of_ok hOpen

theorem answersAbreast_beginFile (hAbreast : Abreast origin twin first second) (path : String)
    (compressed : Bool) :
    AnswersAbreast origin twin (beginFile path compressed (.binary first))
      (beginFile path compressed (.binary second)) := by
  cases hName : Directory.fileName? path with
  | none =>
      rw [beginFile_of_none hName, beginFile_of_none hName]
      refine .refused _ (hAbreast.called .close hAbreast.stream ?_ rfl rfl)
      exact (Writer.isOpen_close _).trans (Writer.isOpen_close _).symm
  | some name =>
      rw [beginFile_binary hName, beginFile_binary hName]
      refine answersAbreast_encode
        (hAbreast.called (.openFile path compressed) hAbreast.stream.restart ?_ rfl rfl) _
      unfold Writer.afterCall
      dsimp only
      rw [Writer.openFile_of_fileName? hName, Writer.openFile_of_fileName? hName]
      rfl

theorem abreast_request (hAbreast : Abreast origin twin first second) (request : Request) :
    (Encoder.binary first).answerTo request = (Encoder.binary second).answerTo request ∧
    ∃ next other, (Encoder.binary first).afterRequest request = .binary next ∧
      (Encoder.binary second).afterRequest request = .binary other ∧
      Abreast origin twin next other := by
  cases request with
  | beginFile path compressed =>
      have hAnswers := answersAbreast_beginFile hAbreast path compressed
      exact ⟨hAnswers.outcome_eq, hAnswers.stateAfter⟩
  | encode command =>
      have hAnswers := answersAbreast_encode hAbreast command
      exact ⟨hAnswers.outcome_eq, hAnswers.stateAfter⟩
  | flush =>
      refine ⟨rfl, _, _, rfl, rfl, hAbreast.called .flush hAbreast.stream ?_ rfl rfl⟩
      exact (Writer.isOpen_flush _).trans (hAbreast.opens.trans (Writer.isOpen_flush _).symm)
  | close =>
      refine ⟨rfl, _, _, rfl, rfl, hAbreast.called .close hAbreast.stream ?_ rfl rfl⟩
      exact (Writer.isOpen_close _).trans (Writer.isOpen_close _).symm

theorem abreast_requests (hAbreast : Abreast origin twin first second) (requests : List Request) :
    (Encoder.binary first).answersTo requests = (Encoder.binary second).answersTo requests ∧
    ∃ next other, (Encoder.binary first).afterRequests requests = .binary next ∧
      (Encoder.binary second).afterRequests requests = .binary other ∧
      Abreast origin twin next other := by
  -- each request leaves the encoders abreast for the rest of them
  induction requests generalizing first second with
  | nil => exact ⟨rfl, first, second, rfl, rfl, hAbreast⟩
  | cons request requests ih =>
      obtain ⟨hAnswer, next, other, hNext, hOther, hStill⟩ := abreast_request hAbreast request
      obtain ⟨hAnswers, hAfter⟩ := ih hStill
      unfold answersTo afterRequests
      rw [List.foldl_cons, List.foldl_cons, hAnswer, hNext, hOther, hAnswers]
      exact ⟨rfl, hAfter⟩

/-- Two encoders are abreast once they have begun a file by the same path, if
their streams restart alike. -/
theorem abreast_begun {path name : String} (hName : Directory.fileName? path = some name)
    {compressed : Bool} {stream other : BinaryStream} {writer : Writer} {begun : Encoder}
    (hBegin : Encoder.beginFile path compressed (.binary ⟨stream, writer⟩) = .ok () begun)
    (hSame : stream.restart.SameButCounts other.restart) (another : Writer) :
    ∃ first second, begun = .binary first ∧
      Encoder.beginFile path compressed (.binary ⟨other, another⟩) = .ok () (.binary second) ∧
      Abreast (writer.afterCall (.openFile path compressed))
        (another.afterCall (.openFile path compressed)) first second := by
  have hOpens (writer : Writer) : (writer.afterCall (.openFile path compressed)).isOpen = true := by
    unfold Writer.afterCall
    dsimp only
    rw [Writer.openFile_of_fileName? hName]
    rfl
  have hOpened : Abreast (writer.afterCall (.openFile path compressed))
      (another.afterCall (.openFile path compressed))
      ⟨stream.restart, writer.afterCall (.openFile path compressed)⟩
      ⟨other.restart, another.afterCall (.openFile path compressed)⟩ :=
    ⟨hSame, (hOpens another).trans (hOpens writer).symm, [], rfl, rfl⟩
  have hAnswers := answersAbreast_encode hOpened openingVersion
  rw [← beginFile_binary hName, ← beginFile_binary hName, hBegin] at hAnswers
  generalize hAnother : Encoder.beginFile path compressed (.binary ⟨other, another⟩) = answer
    at hAnswers
  cases hAnswers with
  | granted hAfter => exact ⟨_, _, rfl, rfl, hAfter⟩

end Abreast

/-- Whatever an encoder was asked for, its tables and its buffer have their sizes. -/
theorem afterRequests_binary (bufferBytes : Nat) (directory : Directory)
    (history : List Request) :
    ∃ used, (ofForm false bufferBytes directory).afterRequests history = .binary used ∧
      used.stream.Sized ∧ used.writer.Accounted ∧ used.writer.capacity = bufferBytes := by
  let start : Writer := { capacity := bufferBytes, directory }
  -- the encoder is abreast of itself, so its writer is the first one after some calls
  have hStart : Abreast start start ⟨{}, start⟩ ⟨{}, start⟩ := ⟨rfl, rfl, [], rfl, rfl⟩
  obtain ⟨_, used, _, hUsed, _, hAbreast⟩ := abreast_requests hStart history
  obtain ⟨calls, hWriter, _⟩ := hAbreast.calls
  have hReady := (ready_ofForm false bufferBytes directory).afterRequests history
  change (ofForm false bufferBytes directory).afterRequests history = .binary used at hUsed
  rw [hUsed] at hReady
  refine ⟨used, hUsed, ?_⟩
  cases hReady with
  | binary hSized hAccounted =>
      refine ⟨hSized, hAccounted, ?_⟩
      exact (congrArg Writer.capacity hWriter).trans (start.capacity_afterCalls calls)

/-- A file that is begun is written as a new encoder writes it, whatever the
encoder was asked for before. Every request that follows has the same answer, and
has the writer called in the same way; with buffers of one size the files are
equal at every moment. -/
theorem beginFile_as_new (bufferBytes otherBytes : Nat) (directory otherDirectory : Directory)
    (history : List Request) {path : String} {compressed : Bool} {begun : Encoder}
    (hBegin : Encoder.beginFile path compressed
      ((ofForm false bufferBytes directory).afterRequests history) = .ok () begun) :
    ∃ fresh, Encoder.beginFile path compressed (ofForm false otherBytes otherDirectory)
        = .ok () fresh ∧
      ∀ requests : List Request,
        begun.answersTo requests = fresh.answersTo requests ∧
        (∃ calls : List Writer.Call,
          (begun.afterRequests requests).writer
            = ((ofForm false bufferBytes directory).afterRequests history).writer.afterCalls
                (.openFile path compressed :: calls) ∧
          (fresh.afterRequests requests).writer
            = (ofForm false otherBytes otherDirectory).writer.afterCalls
                (.openFile path compressed :: calls)) ∧
        (bufferBytes = otherBytes →
          (begun.afterRequests requests).writer.directory.find? path
            = (fresh.afterRequests requests).writer.directory.find? path) := by
  obtain ⟨used, hUsed, hSized, hAccounted, hCapacity⟩ :=
    afterRequests_binary bufferBytes directory history
  obtain ⟨stream, writer⟩ := used
  let new : Writer := { capacity := otherBytes, directory := otherDirectory }
  rw [hUsed] at hBegin ⊢
  cases hName : Directory.fileName? path with
  | none =>
      rw [beginFile_of_none hName] at hBegin
      cases hBegin
  | some name =>
      obtain ⟨first, second, rfl, hFresh, hAbreast⟩ :=
        abreast_begun hName hBegin
          (hSized.restart.1.trans BinaryStream.sized_initial.restart.1.symm) new
      refine ⟨.binary second, hFresh, fun requests => ?_⟩
      obtain ⟨hAnswers, next, other, hNext, hOther, hAfter⟩ := abreast_requests hAbreast requests
      obtain ⟨calls, hCalls, hOtherCalls⟩ := hAfter.calls
      rw [hNext, hOther]
      refine ⟨hAnswers, ⟨calls, hCalls, hOtherCalls⟩, fun hBytes => ?_⟩
      have hOpened : (writer.afterCall (.openFile path compressed)).Beside name
          (new.afterCall (.openFile path compressed)) :=
        Writer.beside_opened (hBytes.symm.trans hCapacity.symm) hAccounted (.inl ⟨rfl, rfl⟩)
          hName compressed
      have hBeside := hOpened.afterCalls calls
      rw [← hCalls, ← hOtherCalls] at hBeside
      rw [Directory.find?_of_fileName? hName, Directory.find?_of_fileName? hName]
      exact (hBeside.files name (.inl rfl)).symm

end Codec

/-- A second file after one that defined the same tag, after a file that could
not be begun and after commands that were refused. -/
theorem beginFile_as_new_after_refusals :
    ∃ begun fresh, Encoder.beginFile "second.ptr" false
        ((ofForm false 16 {}).afterRequests
          [.beginFile "first.ptr" true, .encode (.tagCycle "op" (.int 1)),
            .encode (.clockedCycle ⟨1, 5, .high⟩), .beginFile "" false,
            .encode (.tagCycle "unit" (.text "load")), .encode (.clockedCycle ⟨2, 7, .low⟩)])
        = .ok () begun ∧
      Encoder.beginFile "second.ptr" false (ofForm false 16 {}) = .ok () fresh ∧
      ∀ requests, begun.answersTo requests = fresh.answersTo requests ∧
        (begun.afterRequests requests).writer.directory.find? "second.ptr"
          = (fresh.afterRequests requests).writer.directory.find? "second.ptr" := by
  have hName : Directory.fileName? "second.ptr" = some "second.ptr" := rfl
  obtain ⟨begun, hBegin, _⟩ := ((ready_ofForm false 16 {}).afterRequests _).beginFile hName false
  obtain ⟨fresh, hFresh, hAfter⟩ := beginFile_as_new 16 16 {} {} _ hBegin
  refine ⟨begun, fresh, hBegin, hFresh, fun requests => ?_⟩
  exact ⟨(hAfter requests).1, (hAfter requests).2.2 rfl⟩

end Encoder
end Output
end CycleTrace
