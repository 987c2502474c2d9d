/-
What a binary stream emits.

Encoding in binary form changes two things apart from each other: the stream,
and the writer it goes to. Here the first is a function on its own. A command
takes a stream to the writes it calls for and to the stream after it, and an
encoder with an open file makes exactly these writes.

The counts of evictions and of cycles left out run on from stream to stream.
They play no part in what is emitted, so a stream that was started afresh emits
what the first stream of an encoder would.
-/

import CycleTrace.Output.Encoder
import CycleTrace.Proofs.Output.Writer
import CycleTrace.Proofs.Wire.Recency

namespace CycleTrace
namespace Output
namespace BinaryStream

/-! ### Emission -/

/-- The identifier of a tag name, the writes that define it, and the stream that
knows it. -/
def nameTag (stream : BinaryStream) : Option String → UInt8 × List (List UInt8) × BinaryStream
  | none => (0, [], stream)
  | some name =>
      let (assignment, tags) := stream.tags.assign name
      let id := assignment.id.toUInt8
      (id, if assignment.isNew then [Wire.tagDefinition id name] else [], { stream with tags })

/-- The identifier of a text value, the writes that define it, and the stream
that knows it. -/
def nameText (stream : BinaryStream) :
    Option String → UInt16 × List (List UInt8) × BinaryStream
  | none => (0, [], stream)
  | some value =>
      let (assignment, texts) := stream.texts.assign value
      let id := assignment.id.toUInt16
      (id, if assignment.isNew then [Wire.textDefinition id value] else [], { stream with texts })

/-- The writes for a command after the definitions it needs. -/
def emitDefined (stream : BinaryStream) (command : Command) :
    List (List UInt8) × BinaryStream :=
  let (tag, tagWrites, stream) := stream.nameTag command.tagName?
  let (text, textWrites, stream) := stream.nameText command.textValue?
  let (bytes, last) := Wire.body stream.last tag text command
  (tagWrites ++ (textWrites ++ [bytes]), { stream with last })

/-- The writes for a command, and the stream after it. -/
def emit (stream : BinaryStream) (command : Command) : List (List UInt8) × BinaryStream :=
  match command with
  | .defineTag .. | .defineText .. => ([], stream)
  | .clockedCycle cycle =>
      if stream.lastClockedCycle = some cycle then
        ([], { stream with skippedCycles := stream.skippedCycles + 1 })
      else { stream with lastClockedCycle := some cycle }.emitDefined command
  | command => stream.emitDefined command

/-- The bytes of commands in order, and the stream after them. -/
def emitAll (stream : BinaryStream) : List Command → List UInt8 × BinaryStream
  | [] => ([], stream)
  | command :: commands =>
      let (writes, stream) := stream.emit command
      let (bytes, stream) := stream.emitAll commands
      (writes.flatten ++ bytes, stream)

theorem emitAll_append (stream : BinaryStream) (commands others : List Command) :
    stream.emitAll (commands ++ others)
      = ((stream.emitAll commands).1 ++ ((stream.emitAll commands).2.emitAll others).1,
          ((stream.emitAll commands).2.emitAll others).2) := by
  induction commands generalizing stream with
  | nil => rfl
  | cons command commands ih =>
      simp only [List.cons_append, emitAll, ih, List.append_assoc]

theorem emitAll_single (stream : BinaryStream) (command : Command) :
    stream.emitAll [command] = ((stream.emit command).1.flatten, (stream.emit command).2) := by
  simp only [emitAll, List.append_nil]

/-- The writes for commands in order. -/
def writesAll (stream : BinaryStream) : List Command → List (List UInt8)
  | [] => []
  | command :: commands => (stream.emit command).1 ++ (stream.emit command).2.writesAll commands

theorem flatten_writesAll (stream : BinaryStream) (commands : List Command) :
    (stream.writesAll commands).flatten = (stream.emitAll commands).1 := by
  induction commands generalizing stream with
  | nil => rfl
  | cons command commands ih => simp only [writesAll, emitAll, List.flatten_append, ih]

theorem writesAll_append (stream : BinaryStream) (commands others : List Command) :
    stream.writesAll (commands ++ others)
      = stream.writesAll commands ++ (stream.emitAll commands).2.writesAll others := by
  induction commands generalizing stream with
  | nil => rfl
  | cons command commands ih =>
      simp only [List.cons_append, writesAll, emitAll, ih, List.append_assoc]

theorem writesAll_single (stream : BinaryStream) (command : Command) :
    stream.writesAll [command] = (stream.emit command).1 := by
  simp only [writesAll, List.append_nil]

/-! ### Streams that differ in their counts -/

/-- A stream whose counts start again. -/
def uncounted (stream : BinaryStream) : BinaryStream :=
  { stream with
    tags := stream.tags.uncounted
    texts := stream.texts.uncounted
    skippedCycles := 0 }

/-- Streams that differ in their counts at most. -/
def SameButCounts (stream other : BinaryStream) : Prop :=
  stream.uncounted = other.uncounted

namespace SameButCounts

variable {stream other : BinaryStream}

theorem tags_uncounted (hSame : SameButCounts stream other) :
    stream.tags.uncounted = other.tags.uncounted :=
  congrArg BinaryStream.tags hSame

theorem texts_uncounted (hSame : SameButCounts stream other) :
    stream.texts.uncounted = other.texts.uncounted :=
  congrArg BinaryStream.texts hSame

theorem last_eq (hSame : SameButCounts stream other) : stream.last = other.last := by
  have hLast : stream.uncounted.last = other.uncounted.last := congrArg BinaryStream.last hSame
  exact hLast

theorem lastClockedCycle_eq (hSame : SameButCounts stream other) :
    stream.lastClockedCycle = other.lastClockedCycle := by
  have hCycle : stream.uncounted.lastClockedCycle = other.uncounted.lastClockedCycle :=
    congrArg BinaryStream.lastClockedCycle hSame
  exact hCycle

theorem ofFields (hLast : stream.last = other.last)
    (hTags : stream.tags.uncounted = other.tags.uncounted)
    (hTexts : stream.texts.uncounted = other.texts.uncounted)
    (hCycle : stream.lastClockedCycle = other.lastClockedCycle) :
    SameButCounts stream other := by
  unfold SameButCounts uncounted
  rw [hLast, hTags, hTexts, hCycle]

theorem nameTag (hSame : SameButCounts stream other) (name : Option String) :
    (stream.nameTag name).1 = (other.nameTag name).1 ∧
    (stream.nameTag name).2.1 = (other.nameTag name).2.1 ∧
    SameButCounts (stream.nameTag name).2.2 (other.nameTag name).2.2 := by
  cases name with
  | none => exact ⟨rfl, rfl, hSame⟩
  | some name =>
      obtain ⟨hAssignment, hTags⟩ :=
        Wire.RecencyTable.assign_eq_of_uncounted hSame.tags_uncounted name
      unfold BinaryStream.nameTag
      dsimp only
      rw [hAssignment]
      exact ⟨rfl, rfl, .ofFields hSame.last_eq hTags hSame.texts_uncounted
        hSame.lastClockedCycle_eq⟩

theorem nameText (hSame : SameButCounts stream other) (value : Option String) :
    (stream.nameText value).1 = (other.nameText value).1 ∧
    (stream.nameText value).2.1 = (other.nameText value).2.1 ∧
    SameButCounts (stream.nameText value).2.2 (other.nameText value).2.2 := by
  cases value with
  | none => exact ⟨rfl, rfl, hSame⟩
  | some value =>
      obtain ⟨hAssignment, hTexts⟩ :=
        Wire.RecencyTable.assign_eq_of_uncounted hSame.texts_uncounted value
      unfold BinaryStream.nameText
      dsimp only
      rw [hAssignment]
      exact ⟨rfl, rfl, .ofFields hSame.last_eq hSame.tags_uncounted hTexts
        hSame.lastClockedCycle_eq⟩

theorem emitDefined (hSame : SameButCounts stream other) (command : Command) :
    (stream.emitDefined command).1 = (other.emitDefined command).1 ∧
    SameButCounts (stream.emitDefined command).2 (other.emitDefined command).2 := by
  obtain ⟨hTag, hTagWrites, hTagged⟩ := hSame.nameTag command.tagName?
  obtain ⟨hText, hTextWrites, hNamed⟩ := hTagged.nameText command.textValue?
  unfold BinaryStream.emitDefined
  dsimp only
  rw [hTag, hTagWrites, hText, hTextWrites, hNamed.last_eq]
  exact ⟨rfl, .ofFields rfl hNamed.tags_uncounted hNamed.texts_uncounted
    hNamed.lastClockedCycle_eq⟩

theorem emit (hSame : SameButCounts stream other) (command : Command) :
    (stream.emit command).1 = (other.emit command).1 ∧
    SameButCounts (stream.emit command).2 (other.emit command).2 := by
  unfold BinaryStream.emit
  split
  · exact ⟨rfl, hSame⟩
  · exact ⟨rfl, hSame⟩
  · rename_i cycle
    rw [hSame.lastClockedCycle_eq]
    have hNoted : SameButCounts { stream with lastClockedCycle := some cycle }
        { other with lastClockedCycle := some cycle } :=
      .ofFields hSame.last_eq hSame.tags_uncounted hSame.texts_uncounted rfl
    split
    · refine ⟨rfl, ?_⟩
      dsimp only
      exact .ofFields hSame.last_eq hSame.tags_uncounted hSame.texts_uncounted rfl
    · exact hNoted.emitDefined _
  · exact hSame.emitDefined command

end SameButCounts

/-- A stream with the capacities of a new one. -/
structure Sized (stream : BinaryStream) : Prop where
  tags : stream.tags.capacity = Limits.rememberedTags
  texts : stream.texts.capacity = Limits.rememberedTexts
  tagsSound : stream.tags.Sound
  textsSound : stream.texts.Sound

theorem Sized.restart {stream : BinaryStream} (hSized : stream.Sized) :
    SameButCounts stream.restart {} ∧ stream.restart.Sized := by
  obtain ⟨hTags, hTexts, hTagsSound, hTextsSound⟩ := hSized
  refine ⟨?_, hTags, hTexts, hTagsSound.clear, hTextsSound.clear⟩
  unfold SameButCounts uncounted BinaryStream.restart
  unfold Wire.RecencyTable.uncounted Wire.RecencyTable.clear Wire.RecencyTable.ofCapacity
  rw [hTags, hTexts]
  rfl

theorem sized_initial : ({} : BinaryStream).Sized :=
  ⟨rfl, rfl, Wire.RecencyTable.sound_ofCapacity _, Wire.RecencyTable.sound_ofCapacity _⟩

theorem Sized.nameTag {stream : BinaryStream} (hSized : stream.Sized) (name : Option String) :
    (stream.nameTag name).2.2.Sized := by
  cases name with
  | none => exact hSized
  | some name =>
      exact { hSized with
        tags := (Wire.RecencyTable.capacity_use hSized.tagsSound name).trans hSized.tags
        tagsSound := hSized.tagsSound.use name }

theorem Sized.nameText {stream : BinaryStream} (hSized : stream.Sized) (value : Option String) :
    (stream.nameText value).2.2.Sized := by
  cases value with
  | none => exact hSized
  | some value =>
      exact { hSized with
        texts := (Wire.RecencyTable.capacity_use hSized.textsSound value).trans hSized.texts
        textsSound := hSized.textsSound.use value }

theorem Sized.emit {stream : BinaryStream} (hSized : stream.Sized) (command : Command) :
    (stream.emit command).2.Sized := by
  have hDefined (stream : BinaryStream) (hSized : stream.Sized) :
      (stream.emitDefined command).2.Sized :=
    { (hSized.nameTag command.tagName?).nameText command.textValue? with }
  unfold BinaryStream.emit
  split
  · exact hSized
  · exact hSized
  · split
    · exact { hSized with }
    · exact hDefined _ { hSized with }
  · exact hDefined stream hSized

end BinaryStream

/-! ### Encoders -/

/-- The state that a computation ends in, refused or not. -/
def stateAfter : EStateM.Result ε σ α → σ
  | .ok _ state => state
  | .error _ state => state

theorem stateAfter_of_ok {result : EStateM.Result ε σ α} {value : α} {state : σ}
    (hOk : result = .ok value state) : stateAfter result = state := by
  rw [hOk]
  rfl

theorem stateAfter_of_error {result : EStateM.Result ε σ α} {fault : ε} {state : σ}
    (hError : result = .error fault state) : stateAfter result = state := by
  rw [hError]
  rfl

theorem bind_of_ok {act : EStateM Fault σ α} {next : α → EStateM Fault σ β} {before after : σ}
    {value : α} (hAct : act before = .ok value after) :
    (act >>= next) before = next value after := by
  change EStateM.bind act next before = _
  unfold EStateM.bind
  rw [hAct]

theorem bind_of_error {act : EStateM Fault σ α} {next : α → EStateM Fault σ β}
    {before after : σ} {fault : Fault} (hAct : act before = .error fault after) :
    (act >>= next) before = .error fault after := by
  change EStateM.bind act next before = _
  unfold EStateM.bind
  rw [hAct]

namespace BinaryEncoder

variable [Lz4.Codec] {stream : BinaryStream} {writer : Writer}

theorem write_of_isOpen (hOpen : writer.isOpen = true) (bytes : List UInt8) :
    write bytes ⟨stream, writer⟩ = .ok () ⟨stream, writer.accept bytes⟩ := by
  unfold write
  dsimp only
  rw [Writer.write_of_isOpen hOpen]

theorem defineTag_of_isOpen (hOpen : writer.isOpen = true) (name : Option String) :
    defineTag name ⟨stream, writer⟩ = .ok (stream.nameTag name).1
      ⟨(stream.nameTag name).2.2, (stream.nameTag name).2.1.foldl Writer.accept writer⟩ := by
  cases name with
  | none => rfl
  | some name =>
      have hAssign : assignTag name ⟨stream, writer⟩ = .ok (stream.tags.assign name).1
          ⟨{ stream with tags := (stream.tags.assign name).2 }, writer⟩ := rfl
      refine (bind_of_ok hAssign).trans ?_
      unfold BinaryStream.nameTag
      dsimp only
      cases (stream.tags.assign name).1.isNew with
      | false => rfl
      | true => exact bind_of_ok (write_of_isOpen hOpen _)

theorem defineText_of_isOpen (hOpen : writer.isOpen = true) (value : Option String) :
    defineText value ⟨stream, writer⟩ = .ok (stream.nameText value).1
      ⟨(stream.nameText value).2.2, (stream.nameText value).2.1.foldl Writer.accept writer⟩ := by
  cases value with
  | none => rfl
  | some value =>
      have hAssign : assignText value ⟨stream, writer⟩ = .ok (stream.texts.assign value).1
          ⟨{ stream with texts := (stream.texts.assign value).2 }, writer⟩ := rfl
      refine (bind_of_ok hAssign).trans ?_
      unfold BinaryStream.nameText
      dsimp only
      cases (stream.texts.assign value).1.isNew with
      | false => rfl
      | true => exact bind_of_ok (write_of_isOpen hOpen _)

theorem isOpen_foldl_accept (hOpen : writer.isOpen = true) (writes : List (List UInt8)) :
    (writes.foldl Writer.accept writer).isOpen = true := by
  induction writes generalizing writer with
  | nil => exact hOpen
  | cons first rest ih => exact ih (Writer.isOpen_accept hOpen first)

theorem encodeDefined_of_isOpen (hOpen : writer.isOpen = true) (command : Command) :
    encodeDefined command ⟨stream, writer⟩ = .ok ()
      ⟨(stream.emitDefined command).2,
        (stream.emitDefined command).1.foldl Writer.accept writer⟩ := by
  have hTagged := isOpen_foldl_accept hOpen (stream.nameTag command.tagName?).2.1
  have hNamed := isOpen_foldl_accept hTagged
    ((stream.nameTag command.tagName?).2.2.nameText command.textValue?).2.1
  refine (bind_of_ok (defineTag_of_isOpen hOpen _)).trans ?_
  refine (bind_of_ok (defineText_of_isOpen hTagged _)).trans ?_
  unfold BinaryStream.emitDefined
  dsimp only
  rw [List.foldl_append, List.foldl_append]
  exact write_of_isOpen hNamed _

theorem noteClockedCycle_eq (cycle : ClockedCycle) :
    noteClockedCycle cycle ⟨stream, writer⟩
      = if stream.lastClockedCycle = some cycle then
          .ok true ⟨{ stream with skippedCycles := stream.skippedCycles + 1 }, writer⟩
        else .ok false ⟨{ stream with lastClockedCycle := some cycle }, writer⟩ := by
  let noted (answer : Bool × BinaryEncoder) : EStateM.Result Fault BinaryEncoder Bool :=
    .ok answer.1 answer.2
  by_cases hSame : stream.lastClockedCycle = some cycle
  · rw [if_pos hSame]
    exact congrArg noted (if_pos hSame)
  · rw [if_neg hSame]
    exact congrArg noted (if_neg hSame)

/-- An encoder with an open file makes the writes that its stream emits. -/
theorem encode_of_isOpen (hOpen : writer.isOpen = true) (command : Command) :
    encode command ⟨stream, writer⟩ = .ok ()
      ⟨(stream.emit command).2, (stream.emit command).1.foldl Writer.accept writer⟩ := by
  cases command with
  | defineTag id name => rfl
  | defineText id value => rfl
  | clockedCycle cycle =>
      unfold BinaryStream.emit
      dsimp only
      by_cases hRepeated : stream.lastClockedCycle = some cycle
      · have hNote : noteClockedCycle cycle ⟨stream, writer⟩ = .ok true
            ⟨{ stream with skippedCycles := stream.skippedCycles + 1 }, writer⟩ := by
          rw [noteClockedCycle_eq, if_pos hRepeated]
        rw [if_pos hRepeated]
        exact bind_of_ok hNote
      · have hNote : noteClockedCycle cycle ⟨stream, writer⟩ = .ok false
            ⟨{ stream with lastClockedCycle := some cycle }, writer⟩ := by
          rw [noteClockedCycle_eq, if_neg hRepeated]
        rw [if_neg hRepeated]
        exact (bind_of_ok hNote).trans (encodeDefined_of_isOpen hOpen _)
  | _ => exact encodeDefined_of_isOpen hOpen _

end BinaryEncoder
end Output
end CycleTrace
