/-
Commands for a binary encoder without an open file.

The file is asked for when bytes are written, and a command comes to that after
its names, its identifiers and its clocked cycle have been noted in the stream.
So whatever is written is refused, and no byte of it is counted. A clocked cycle
that repeats the one noted before is not written: it is granted without a file
and counted as left out. It is enough for this that the cycle was refused
before.
-/

import CycleTrace.Lz4.StoredBlocks
import CycleTrace.Proofs.Output.Restarts

namespace CycleTrace
namespace Output

/-! ### Refusals -/

/-- Streams with the same clocked cycle before them and the same count of cycles
left out. -/
structure BinaryStream.SameCycles (stream after : BinaryStream) : Prop where
  last : after.lastClockedCycle = stream.lastClockedCycle
  skipped : after.skippedCycles = stream.skippedCycles

theorem BinaryStream.SameCycles.trans {stream middle after : BinaryStream}
    (hFirst : stream.SameCycles middle) (hSecond : middle.SameCycles after) :
    stream.SameCycles after :=
  ⟨hSecond.last.trans hFirst.last, hSecond.skipped.trans hFirst.skipped⟩

namespace BinaryEncoder

/-- The clocked cycle that is noted once a command was asked for. -/
def notedCycle? (last : Option ClockedCycle) : Command → Option ClockedCycle
  | .clockedCycle cycle => some cycle
  | _ => last

variable [Lz4.Codec]

/-- An end that leaves the writer and the clocked cycles of the stream as they
were; only the missing file can be the cause of a refusal. -/
inductive HeldBack (stream : BinaryStream) (writer : Writer) :
    EStateM.Result Fault BinaryEncoder α → Prop
  | granted (value : α) {after : BinaryStream} (hCycles : stream.SameCycles after) :
      HeldBack stream writer (.ok value ⟨after, writer⟩)
  | refused {after : BinaryStream} (hCycles : stream.SameCycles after) :
      HeldBack stream writer (.error .sinkClosed ⟨after, writer⟩)

/-- A computation that ends so for every stream. -/
def HoldsBack (writer : Writer) (act : BinaryEncoding α) : Prop :=
  ∀ stream : BinaryStream, HeldBack stream writer (act ⟨stream, writer⟩)

/-- A computation that is always refused. -/
def Refuses (writer : Writer) (act : BinaryEncoding α) : Prop :=
  ∀ stream : BinaryStream, ∃ after, stream.SameCycles after ∧
    act ⟨stream, writer⟩ = .error .sinkClosed ⟨after, writer⟩

variable {writer : Writer} {stream : BinaryStream}

theorem HoldsBack.pure (value : α) : HoldsBack writer (pure value) :=
  fun _ => .granted value ⟨rfl, rfl⟩

theorem Refuses.holdsBack {act : BinaryEncoding α} (hAct : Refuses writer act) :
    HoldsBack writer act := by
  intro stream
  obtain ⟨after, hCycles, hRefused⟩ := hAct stream
  rw [hRefused]
  exact .refused hCycles

theorem HoldsBack.bind {act : BinaryEncoding α} {next : α → BinaryEncoding β}
    (hAct : HoldsBack writer act) (hNext : ∀ value, HoldsBack writer (next value)) :
    HoldsBack writer (act >>= next) := by
  intro stream
  have hFirst := hAct stream
  generalize hResult : act ⟨stream, writer⟩ = result at hFirst
  cases hFirst with
  | @granted value middle hCycles =>
      rw [bind_of_ok hResult]
      have hSecond := hNext value middle
      generalize next value ⟨middle, writer⟩ = ending at hSecond
      cases hSecond with
      | granted value hLater => exact .granted value (hCycles.trans hLater)
      | refused hLater => exact .refused (hCycles.trans hLater)
  | refused hCycles =>
      rw [bind_of_error hResult]
      exact .refused hCycles

/-- What ends in a refusal is refused. -/
theorem HoldsBack.refuses {act : BinaryEncoding α} {next : α → BinaryEncoding β}
    (hAct : HoldsBack writer act) (hNext : ∀ value, Refuses writer (next value)) :
    Refuses writer (act >>= next) := by
  intro stream
  have hFirst := hAct stream
  generalize hResult : act ⟨stream, writer⟩ = result at hFirst
  cases hFirst with
  | @granted value middle hCycles =>
      obtain ⟨after, hLater, hRefused⟩ := hNext value middle
      exact ⟨after, hCycles.trans hLater, (bind_of_ok hResult).trans hRefused⟩
  | @refused after hCycles => exact ⟨after, hCycles, bind_of_error hResult⟩

theorem refuses_write (hClosed : writer.isOpen = false) (bytes : List UInt8) :
    Refuses writer (write bytes) := by
  intro stream
  refine ⟨stream, ⟨rfl, rfl⟩, ?_⟩
  unfold write
  dsimp only
  rw [Writer.write_of_closed hClosed]

theorem holdsBack_defineTag (hClosed : writer.isOpen = false) (name : Option String) :
    HoldsBack writer (defineTag name) := by
  cases name with
  | none => exact .pure 0
  | some name =>
      have hAssign : HoldsBack writer (assignTag name) := fun _ => .granted _ ⟨rfl, rfl⟩
      refine hAssign.bind fun assignment => ?_
      cases assignment.isNew with
      | false => exact .pure _
      | true => exact (refuses_write hClosed _).holdsBack.bind fun _ => .pure _

theorem holdsBack_defineText (hClosed : writer.isOpen = false) (value : Option String) :
    HoldsBack writer (defineText value) := by
  cases value with
  | none => exact .pure 0
  | some value =>
      have hAssign : HoldsBack writer (assignText value) := fun _ => .granted _ ⟨rfl, rfl⟩
      refine hAssign.bind fun assignment => ?_
      cases assignment.isNew with
      | false => exact .pure _
      | true => exact (refuses_write hClosed _).holdsBack.bind fun _ => .pure _

theorem refuses_encodeDefined (hClosed : writer.isOpen = false) (command : Command) :
    Refuses writer (encodeDefined command) := by
  refine (holdsBack_defineTag hClosed _).refuses fun tag => ?_
  refine (holdsBack_defineText hClosed _).refuses fun text => ?_
  have hLayOut : HoldsBack writer (layOut tag text command) := fun _ => .granted _ ⟨rfl, rfl⟩
  exact hLayOut.refuses fun bytes => refuses_write hClosed bytes

/-- Without an open file, just the repetition of the clocked cycle noted last is
granted. -/
theorem encode_of_closed (hClosed : writer.isOpen = false) {command : Command}
    (hPlain : command.isDefinition = false) (stream : BinaryStream) :
    (∃ cycle, command = .clockedCycle cycle ∧ stream.lastClockedCycle = some cycle ∧
      encode command ⟨stream, writer⟩
        = .ok () ⟨{ stream with skippedCycles := stream.skippedCycles + 1 }, writer⟩) ∨
    (∀ cycle, command = .clockedCycle cycle → stream.lastClockedCycle ≠ some cycle) ∧
      ∃ after, encode command ⟨stream, writer⟩ = .error .sinkClosed ⟨after, writer⟩ ∧
        after.lastClockedCycle = notedCycle? stream.lastClockedCycle command ∧
        after.skippedCycles = stream.skippedCycles := by
  cases command with
  | defineTag id name => cases hPlain
  | defineText id value => cases hPlain
  | clockedCycle cycle =>
      by_cases hRepeated : stream.lastClockedCycle = some cycle
      · have hNote : noteClockedCycle cycle ⟨stream, writer⟩ = .ok true
            ⟨{ stream with skippedCycles := stream.skippedCycles + 1 }, writer⟩ := by
          rw [noteClockedCycle_eq, if_pos hRepeated]
        exact .inl ⟨cycle, rfl, hRepeated, bind_of_ok hNote⟩
      · have hNote : noteClockedCycle cycle ⟨stream, writer⟩ = .ok false
            ⟨{ stream with lastClockedCycle := some cycle }, writer⟩ := by
          rw [noteClockedCycle_eq, if_neg hRepeated]
        obtain ⟨after, hCycles, hRefused⟩ := refuses_encodeDefined hClosed
          (.clockedCycle cycle) { stream with lastClockedCycle := some cycle }
        refine .inr ⟨?_, after, (bind_of_ok hNote).trans hRefused, hCycles.last, hCycles.skipped⟩
        intro other hOther
        cases hOther
        exact hRepeated
  | _ =>
      obtain ⟨after, hCycles, hRefused⟩ := refuses_encodeDefined hClosed _ stream
      exact .inr ⟨nofun, after, hRefused, hCycles.last, hCycles.skipped⟩

/-- A command leaves its clocked cycle noted, granted or refused. -/
theorem lastClockedCycle_encode (command : Command) (encoder : BinaryEncoder) :
    (stateAfter (encode command encoder)).stream.lastClockedCycle
      = notedCycle? encoder.stream.lastClockedCycle command := by
  obtain ⟨stream, writer⟩ := encoder
  cases hOpen : writer.isOpen with
  | true =>
      rw [encode_of_isOpen hOpen]
      change (stream.emit command).2.lastClockedCycle = _
      cases command with
      | defineTag id name => rfl
      | defineText id value => rfl
      | clockedCycle cycle =>
          unfold BinaryStream.emit
          dsimp only
          split
          · assumption
          · exact BinaryStream.lastClockedCycle_emitDefined _ _
      | _ => exact BinaryStream.lastClockedCycle_emitDefined _ _
  | false =>
      cases hDefinition : command.isDefinition with
      | true => cases command <;> first | rfl | cases hDefinition
      | false =>
          rcases encode_of_closed hOpen hDefinition stream with
            ⟨cycle, rfl, hLast, hGranted⟩ | ⟨_, after, hRefused, hLast, _⟩
          · rw [hGranted]
            exact hLast
          · rw [hRefused]
            exact hLast

end BinaryEncoder

/-! ### What an encoder was asked for -/

namespace Encoder

/-- The clocked cycle noted after a request. -/
def Request.notedCycle? (last : Option ClockedCycle) : Request → Option ClockedCycle
  | .beginFile path _ => if (Directory.fileName? path).isSome then none else last
  | .encode command => BinaryEncoder.notedCycle? last command
  | .flush | .close => last

/-- The clocked cycle that an encoder was asked for last, granted or refused,
since it began a file. -/
def Request.lastCycle? (requests : List Request) : Option ClockedCycle :=
  requests.foldl Request.notedCycle? none

section Codec

variable [Lz4.Codec]

/-- Clocked cycles left out so far; the text form leaves out none. -/
def skippedCycles : Encoder → Nat
  | text _ => 0
  | binary encoder => encoder.stream.skippedCycles

theorem encode_binary (command : Command) (encoder : BinaryEncoder) :
    stateAfter (Encoder.encode command (.binary encoder))
      = .binary (stateAfter (BinaryEncoder.encode command encoder)) := by
  unfold Encoder.encode
  dsimp only
  cases BinaryEncoder.encode command encoder <;> rfl

theorem outcome_encode_binary (command : Command) (encoder : BinaryEncoder) :
    outcome (Encoder.encode command (.binary encoder))
      = outcome (BinaryEncoder.encode command encoder) := by
  unfold Encoder.encode
  dsimp only
  cases BinaryEncoder.encode command encoder <;> rfl

/-- A request takes a binary encoder to one that has noted what it asked for. -/
theorem notedCycle_afterRequest (encoder : BinaryEncoder) (request : Request) :
    ∃ after : BinaryEncoder, (Encoder.binary encoder).afterRequest request = .binary after ∧
      after.stream.lastClockedCycle = request.notedCycle? encoder.stream.lastClockedCycle := by
  cases request with
  | beginFile path compressed =>
      unfold afterRequest Request.notedCycle?
      dsimp only
      cases hName : Directory.fileName? path with
      | none =>
          rw [beginFile_of_none hName]
          exact ⟨_, rfl, rfl⟩
      | some name =>
          rw [beginFile_binary hName, encode_binary]
          exact ⟨_, rfl, BinaryEncoder.lastClockedCycle_encode _ _⟩
  | encode command =>
      exact ⟨_, encode_binary command encoder, BinaryEncoder.lastClockedCycle_encode _ _⟩
  | flush => exact ⟨_, rfl, rfl⟩
  | close => exact ⟨_, rfl, rfl⟩

theorem lastCycle_afterRequests (bufferBytes : Nat) (directory : Directory)
    (history : List Request) :
    ∃ after : BinaryEncoder, (ofForm false bufferBytes directory).afterRequests history
        = .binary after ∧
      after.stream.lastClockedCycle = Request.lastCycle? history := by
  have hNoted (encoder : BinaryEncoder) : ∃ after : BinaryEncoder,
      (Encoder.binary encoder).afterRequests history = .binary after ∧
      after.stream.lastClockedCycle
        = history.foldl Request.notedCycle? encoder.stream.lastClockedCycle := by
    induction history generalizing encoder with
    | nil => exact ⟨encoder, rfl, rfl⟩
    | cons request history ih =>
        obtain ⟨middle, hMiddle, hLast⟩ := notedCycle_afterRequest encoder request
        obtain ⟨after, hAfter, hRest⟩ := ih middle
        refine ⟨after, ?_, ?_⟩
        · unfold afterRequests
          rw [List.foldl_cons, hMiddle]
          exact hAfter
        · rw [List.foldl_cons, ← hLast]
          exact hRest
  exact hNoted _

/-- A file that could not be begun leaves none open. -/
theorem isOpen_failed_begin {path : String} (hNone : Directory.fileName? path = none)
    (compressed : Bool) (encoder : Encoder) :
    (encoder.afterRequest (.beginFile path compressed)).isOpen = false := by
  unfold afterRequest
  dsimp only
  rw [beginFile_of_none hNone]
  cases encoder <;> exact Writer.isOpen_close _

/-! ### Repeated commands -/

variable {writer : Writer} {command : Command}

/-- The request for a command without an open file: a repetition of the clocked
cycle noted last is granted, everything else is refused. -/
theorem request_of_closed (hClosed : writer.isOpen = false)
    (hPlain : command.isDefinition = false) (stream : BinaryStream) :
    (∃ cycle, command = .clockedCycle cycle ∧ stream.lastClockedCycle = some cycle ∧
      (Encoder.binary ⟨stream, writer⟩).answerTo (.encode command) = .ok () ∧
      (Encoder.binary ⟨stream, writer⟩).afterRequest (.encode command)
        = .binary ⟨{ stream with skippedCycles := stream.skippedCycles + 1 }, writer⟩) ∨
    (∀ cycle, command = .clockedCycle cycle → stream.lastClockedCycle ≠ some cycle) ∧
      ∃ after, (Encoder.binary ⟨stream, writer⟩).answerTo (.encode command)
          = .error .sinkClosed ∧
        (Encoder.binary ⟨stream, writer⟩).afterRequest (.encode command)
          = .binary ⟨after, writer⟩ ∧
        after.lastClockedCycle = BinaryEncoder.notedCycle? stream.lastClockedCycle command ∧
        after.skippedCycles = stream.skippedCycles := by
  unfold answerTo afterRequest
  dsimp only
  rw [encode_binary, outcome_encode_binary]
  rcases BinaryEncoder.encode_of_closed hClosed hPlain stream with
    ⟨cycle, hCycle, hLast, hGranted⟩ | ⟨hNew, after, hRefused, hNoted, hSkipped⟩
  · rw [hGranted]
    exact .inl ⟨cycle, hCycle, hLast, rfl, rfl⟩
  · rw [hRefused]
    exact .inr ⟨hNew, after, rfl, rfl, hNoted, hSkipped⟩

/-- A command that is repeated without an open file leaves the writer as it was.
All of it is refused, and nothing is counted, just when no repetition of a
clocked cycle is among it. -/
theorem replicate_of_closed (hClosed : writer.isOpen = false)
    (hPlain : command.isDefinition = false) (stream : BinaryStream) (times : Nat) :
    ∃ after : BinaryStream,
      (Encoder.binary ⟨stream, writer⟩).afterRequests (List.replicate times (.encode command))
        = .binary ⟨after, writer⟩ ∧
      ((Encoder.binary ⟨stream, writer⟩).answersTo (List.replicate times (.encode command))
          = List.replicate times (.error .sinkClosed) ∧
        after.skippedCycles = stream.skippedCycles ↔
        ∀ cycle, command = .clockedCycle cycle →
          times = 0 ∨ times = 1 ∧ stream.lastClockedCycle ≠ some cycle) := by
  induction times generalizing stream with
  | zero => exact ⟨stream, rfl, fun _ cycle _ => .inl rfl, fun _ => ⟨rfl, rfl⟩⟩
  | succ times ih =>
      simp only [List.replicate_succ, afterRequests, List.foldl_cons, answersTo, List.cons.injEq]
      rcases request_of_closed hClosed hPlain stream with
        ⟨cycle, hCycle, hLast, hGranted, hState⟩ |
        ⟨hNew, middle, hRefused, hState, hNoted, hSkipped⟩
      · obtain ⟨after, hAfter, _⟩ :=
          ih { stream with skippedCycles := stream.skippedCycles + 1 }
        rw [hGranted, hState]
        refine ⟨after, hAfter, fun hNone => ?_, fun hOnce => ?_⟩
        · cases hNone.1.1
        · rcases hOnce cycle hCycle with hZero | ⟨_, hOther⟩
          · cases hZero
          · exact absurd hLast hOther
      · obtain ⟨after, hAfter, hRest⟩ := ih middle
        rw [hRefused, hState]
        refine ⟨after, hAfter, ?_⟩
        rw [and_iff_right rfl, ← hSkipped, hRest, hNoted]
        -- the refused command is noted, so no repetition of a clocked cycle may follow
        refine forall_congr' fun cycle => forall_congr' fun hCycle => ?_
        have hOther := hNew cycle hCycle
        subst hCycle
        simp [BinaryEncoder.notedCycle?, hOther]

/-- Without an open file a command is refused and nothing is counted, however
often it is repeated, just when no clocked cycle is repeated: the command is none,
or it is asked for once and is not the one asked for last since the encoder began
a file. No byte is accepted in any case. -/
theorem encode_refused_iff (bufferBytes : Nat) (directory : Directory) (history : List Request)
    (command : Command) (times : Nat)
    (hClosed : ((ofForm false bufferBytes directory).afterRequests history).isOpen = false)
    (hPlain : command.isDefinition = false) :
    let encoder := (ofForm false bufferBytes directory).afterRequests history
    let requests := List.replicate times (Request.encode command)
    (encoder.afterRequests requests).accepted = encoder.accepted ∧
    (encoder.answersTo requests = List.replicate times (.error .sinkClosed) ∧
      (encoder.afterRequests requests).skippedCycles = encoder.skippedCycles ↔
      ∀ cycle, command = .clockedCycle cycle →
        times = 0 ∨ times = 1 ∧ Request.lastCycle? history ≠ some cycle) := by
  obtain ⟨⟨stream, writer⟩, hState, hLast⟩ :=
    lastCycle_afterRequests bufferBytes directory history
  rw [hState] at hClosed ⊢
  have hWriter : writer.isOpen = false := hClosed
  obtain ⟨after, hAfter, hRefused⟩ := replicate_of_closed hWriter hPlain stream times
  dsimp only
  rw [← hLast, hAfter]
  exact ⟨rfl, hRefused⟩

end Codec

/-- A tag is refused three times after a file was closed and another could not be
begun, though the tag was written to the file before. -/
theorem encode_refused_failed_begin :
    let encoder := (ofForm false 16 {}).afterRequests
      [.beginFile "first.ptr" true, .encode (.tagCycle "op" (.text "load")),
        .encode (.clockedCycle ⟨1, 5, .high⟩), .close, .beginFile "" false]
    let requests := List.replicate 3 (Request.encode (.tagCycle "op" (.text "load")))
    encoder.isOpen = false ∧
    encoder.answersTo requests = List.replicate 3 (.error .sinkClosed) ∧
    (encoder.afterRequests requests).accepted = encoder.accepted ∧
    (encoder.afterRequests requests).skippedCycles = encoder.skippedCycles := by
  have hClosed : ((ofForm false 16 {}).afterRequests
      [.beginFile "first.ptr" true, .encode (.tagCycle "op" (.text "load")),
        .encode (.clockedCycle ⟨1, 5, .high⟩), .close, .beginFile "" false]).isOpen = false :=
    isOpen_failed_begin rfl false _
  obtain ⟨hAccepted, hRefused⟩ := encode_refused_iff 16 {} _
    (.tagCycle "op" (.text "load")) 3 hClosed rfl
  obtain ⟨hAnswers, hSkipped⟩ := hRefused.mpr nofun
  exact ⟨hClosed, hAnswers, hAccepted, hSkipped⟩

/-- A clocked cycle is granted, and counted as left out, to an encoder that never
had an open file: it is enough that it was refused before. -/
theorem repeated_cycle_granted :
    let encoder := ofForm false 64 {}
    let requests := List.replicate 2 (Request.encode (.clockedCycle ⟨1, 5, .high⟩))
    encoder.isOpen = false ∧
    encoder.answersTo requests = [.error .sinkClosed, .ok ()] ∧
    encoder.answersTo requests ≠ List.replicate 2 (.error .sinkClosed) ∧
    encoder.skippedCycles = 0 ∧ (encoder.afterRequests requests).skippedCycles = 1 := by
  refine ⟨rfl, rfl, ?_, rfl, rfl⟩
  decide

end Encoder
end Output
end CycleTrace
