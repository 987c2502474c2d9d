/-
Where a binary stream defines names.

For each command a stream has one stretch: the definition of its tag name, the
definition of its text value and the command itself, as far as they are written.
The commands before it decide. A tag name is defined unless it is among the
distinct tag names that were used last, as many of them as identifiers, and so
is a text value, apart from the tag names. A new name gets the number of the
names before it, and when there is no such identifier any more, the one of the
name used longest ago. There are no other definitions.
-/

import CycleTrace.Proofs.Output.RoundTrip
import CycleTrace.Proofs.Wire.LastUses

namespace CycleTrace
namespace Output

open Wire (definedId? heldId)
open Wire.RecencyTable (isNew_assign toUInt8_id_assign toUInt16_id_assign)

/-! ### Stretches of a stream -/

/-- What a stream has for one command. -/
structure Stretch where
  tag? : Option (UInt8 × String) := none
  text? : Option (UInt16 × String) := none
  body : List UInt8 := []
deriving DecidableEq, Repr

def Stretch.bytes (stretch : Stretch) : List UInt8 :=
  stretch.tag?.elim [] (fun (id, name) => Wire.tagDefinition id name)
    ++ stretch.text?.elim [] (fun (id, value) => Wire.textDefinition id value) ++ stretch.body

/-- The tag names that commands use, the latest in front. -/
def latestTags (commands : List Command) : List String :=
  (commands.filterMap Command.tagName?).reverse

/-- The text values that commands use, the latest in front. -/
def latestTexts (commands : List Command) : List String :=
  (commands.filterMap Command.textValue?).reverse

/-- The body of a command in a stream, which refers to names by the identifiers
that they hold. -/
structure IsBody (bytes : List UInt8) (earlier : List Command) (command : Command) : Prop where
  laidOut : ∃ last tag text, bytes = (Wire.body last tag text command).1 ∧
    (∀ name, command.tagName? = some name →
      tag.toNat = heldId Limits.rememberedTags (latestTags (earlier ++ [command])) name) ∧
    ∀ value, command.textValue? = some value →
      text.toNat = heldId Limits.rememberedTexts (latestTexts (earlier ++ [command])) value
  header : ∃ code width rest, bytes = Wire.codeHeader code width :: rest ∧
    code ≠ .defineTag ∧ code ≠ .defineText

/-- A stretch has what belongs there for a command after others. -/
structure Stretch.IsFor (stretch : Stretch) (earlier : List Command) (command : Command) :
    Prop where
  tag : stretch.tag?.map (fun (id, name) => (id.toNat, name))
    = command.tagName?.bind fun name =>
        (definedId? Limits.rememberedTags (latestTags earlier) name).map (·, name)
  text : stretch.text?.map (fun (id, value) => (id.toNat, value))
    = command.textValue?.bind fun value =>
        (definedId? Limits.rememberedTexts (latestTexts earlier) value).map (·, value)
  body : stretch.body = [] ∧ command.tagName? = none ∧ command.textValue? = none ∨
    IsBody stretch.body earlier command

theorem latestTags_snoc (earlier : List Command) (command : Command) :
    latestTags (earlier ++ [command]) = command.tagName?.toList ++ latestTags earlier := by
  unfold latestTags
  rw [List.filterMap_append, List.reverse_append]
  cases hName : command.tagName? <;> simp [hName]

theorem latestTexts_snoc (earlier : List Command) (command : Command) :
    latestTexts (earlier ++ [command]) = command.textValue?.toList ++ latestTexts earlier := by
  unfold latestTexts
  rw [List.filterMap_append, List.reverse_append]
  cases hValue : command.textValue? <;> simp [hValue]

/-- A command that is no definition has another code. -/
theorem header_body {command : Command} (hPlain : command.isDefinition = false)
    (last : Wire.LastIds) (tag : UInt8) (text : UInt16) :
    ∃ code width rest, (Wire.body last tag text command).1 = Wire.codeHeader code width :: rest ∧
      code ≠ .defineTag ∧ code ≠ .defineText := by
  cases command with
  | defineTag id name => cases hPlain
  | defineText id value => cases hPlain
  | tagItem item name value => cases value <;> exact ⟨_, _, _, rfl, by decide, by decide⟩
  | tagNode node name value position => cases value <;> exact ⟨_, _, _, rfl, by decide, by decide⟩
  | tagCycle name value => cases value <;> exact ⟨_, _, _, rfl, by decide, by decide⟩
  | _ => exact ⟨_, _, _, rfl, by decide, by decide⟩

/-! ### Streams and their commands -/

namespace BinaryStream

variable {stream : BinaryStream} {earlier : List Command}

/-- A stream that knows the names of the commands before. -/
structure Remembers (stream : BinaryStream) (earlier : List Command) : Prop where
  sized : stream.Sized
  tags : stream.tags.Knows (latestTags earlier)
  texts : stream.texts.Knows (latestTexts earlier)

theorem texts_nameTag (stream : BinaryStream) (name? : Option String) :
    (stream.nameTag name?).2.2.texts = stream.texts := by
  cases name? <;> rfl

theorem tags_nameText (stream : BinaryStream) (value? : Option String) :
    (stream.nameText value?).2.2.tags = stream.tags := by
  cases value? <;> rfl

/-- What a stream writes to define the tag name of a command. -/
theorem nameTag_of_knows (hSized : stream.Sized)
    (hKnows : stream.tags.Knows (latestTags earlier)) (name? : Option String) :
    ∃ tag? : Option (UInt8 × String),
      (stream.nameTag name?).2.1.flatten
        = tag?.elim [] (fun (id, name) => Wire.tagDefinition id name) ∧
      tag?.map (fun (id, name) => (id.toNat, name)) = name?.bind (fun name =>
        (definedId? Limits.rememberedTags (latestTags earlier) name).map (·, name)) ∧
      (∀ name, name? = some name → (stream.nameTag name?).1.toNat
        = heldId Limits.rememberedTags (name?.toList ++ latestTags earlier) name) ∧
      (stream.nameTag name?).2.2.tags.Knows (name?.toList ++ latestTags earlier) := by
  cases name? with
  | none => exact ⟨none, rfl, rfl, fun name hNone => (nomatch hNone), hKnows⟩
  | some name =>
      have hByte (id : Nat) (hBelow : id < stream.tags.capacity) : (UInt8.ofNat id).toNat = id := by
        rw [hSized.tags] at hBelow
        exact UInt8.toNat_ofNat_of_lt' hBelow
      obtain ⟨hId, hDefined⟩ := hKnows.use_written hByte name
      obtain ⟨_, _, _, hAfter⟩ := hKnows.use name
      rw [hSized.tags] at hId hDefined
      refine ⟨_, ?_, hDefined, ?_, hAfter⟩
      · unfold BinaryStream.nameTag
        dsimp only
        rw [toUInt8_id_assign, isNew_assign]
        cases (stream.tags.use name).1.isNew
        · rfl
        · exact List.append_nil _
      · rintro _ ⟨⟩
        exact (congrArg UInt8.toNat (toUInt8_id_assign stream.tags name)).trans hId

theorem nameText_of_knows (hSized : stream.Sized)
    (hKnows : stream.texts.Knows (latestTexts earlier)) (value? : Option String) :
    ∃ text? : Option (UInt16 × String),
      (stream.nameText value?).2.1.flatten
        = text?.elim [] (fun (id, value) => Wire.textDefinition id value) ∧
      text?.map (fun (id, value) => (id.toNat, value)) = value?.bind (fun value =>
        (definedId? Limits.rememberedTexts (latestTexts earlier) value).map (·, value)) ∧
      (∀ value, value? = some value → (stream.nameText value?).1.toNat
        = heldId Limits.rememberedTexts (value?.toList ++ latestTexts earlier) value) ∧
      (stream.nameText value?).2.2.texts.Knows (value?.toList ++ latestTexts earlier) := by
  cases value? with
  | none => exact ⟨none, rfl, rfl, fun value hNone => (nomatch hNone), hKnows⟩
  | some value =>
      have hWord (id : Nat) (hBelow : id < stream.texts.capacity) :
          (UInt16.ofNat id).toNat = id := by
        rw [hSized.texts] at hBelow
        exact UInt16.toNat_ofNat_of_lt' hBelow
      obtain ⟨hId, hDefined⟩ := hKnows.use_written hWord value
      obtain ⟨_, _, _, hAfter⟩ := hKnows.use value
      rw [hSized.texts] at hId hDefined
      refine ⟨_, ?_, hDefined, ?_, hAfter⟩
      · unfold BinaryStream.nameText
        dsimp only
        rw [toUInt16_id_assign, isNew_assign]
        cases (stream.texts.use value).1.isNew
        · rfl
        · exact List.append_nil _
      · rintro _ ⟨⟩
        exact (congrArg UInt16.toNat (toUInt16_id_assign stream.texts value)).trans hId

/-- A command that is written has its stretch. -/
theorem Remembers.emitDefined (hKnows : stream.Remembers earlier) {command : Command}
    (hPlain : command.isDefinition = false) :
    ∃ stretch, Stretch.IsFor stretch earlier command ∧
      (stream.emitDefined command).1.flatten = stretch.bytes ∧
      (stream.emitDefined command).2.Remembers (earlier ++ [command]) := by
  obtain ⟨tag?, hTagWrites, hTag, hTagId, hTags⟩ :=
    nameTag_of_knows hKnows.sized hKnows.tags command.tagName?
  have hTexts : (stream.nameTag command.tagName?).2.2.texts.Knows (latestTexts earlier) := by
    rw [texts_nameTag]
    exact hKnows.texts
  obtain ⟨text?, hTextWrites, hText, hTextId, hTextsOn⟩ :=
    nameText_of_knows (hKnows.sized.nameTag _) hTexts command.textValue?
  rw [← latestTags_snoc] at hTagId hTags
  rw [← latestTexts_snoc] at hTextId hTextsOn
  have hBody : IsBody (Wire.body
      ((stream.nameTag command.tagName?).2.2.nameText command.textValue?).2.2.last
      (stream.nameTag command.tagName?).1
      ((stream.nameTag command.tagName?).2.2.nameText command.textValue?).1 command).1
      earlier command :=
    ⟨⟨_, _, _, rfl, hTagId, hTextId⟩, header_body hPlain _ _ _⟩
  unfold BinaryStream.emitDefined
  dsimp only
  refine ⟨⟨tag?, text?, _⟩, ⟨hTag, hText, .inr hBody⟩, ?_, ?_, ?_, hTextsOn⟩
  · rw [List.flatten_append, List.flatten_append, hTagWrites, hTextWrites]
    simp [Stretch.bytes]
  · exact { (hKnows.sized.nameTag command.tagName?).nameText command.textValue? with }
  · change ((stream.nameTag command.tagName?).2.2.nameText command.textValue?).2.2.tags.Knows _
    rw [tags_nameText]
    exact hTags

/-- A command without names that is not written has an empty stretch. -/
theorem Remembers.skip (hKnows : stream.Remembers earlier) {command : Command}
    {after : BinaryStream} (hTag : command.tagName? = none) (hText : command.textValue? = none)
    (hSized : after.Sized) (hTags : after.tags = stream.tags)
    (hTexts : after.texts = stream.texts) :
    Stretch.IsFor {} earlier command ∧ after.Remembers (earlier ++ [command]) := by
  refine ⟨⟨?_, ?_, .inl ⟨rfl, hTag, hText⟩⟩, hSized, ?_, ?_⟩
  · rw [hTag]
    rfl
  · rw [hText]
    rfl
  · rw [latestTags_snoc, hTag, hTags]
    exact hKnows.tags
  · rw [latestTexts_snoc, hText, hTexts]
    exact hKnows.texts

/-- Every command has its stretch. -/
theorem Remembers.emit (hKnows : stream.Remembers earlier) (command : Command) :
    ∃ stretch, Stretch.IsFor stretch earlier command ∧
      (stream.emit command).1.flatten = stretch.bytes ∧
      (stream.emit command).2.Remembers (earlier ++ [command]) := by
  have hSkipped {after : BinaryStream} (hEmit : stream.emit command = ([], after))
      (hTag : command.tagName? = none) (hText : command.textValue? = none)
      (hTags : after.tags = stream.tags) (hTexts : after.texts = stream.texts) :
      ∃ stretch, Stretch.IsFor stretch earlier command ∧
        (stream.emit command).1.flatten = stretch.bytes ∧
        (stream.emit command).2.Remembers (earlier ++ [command]) := by
    have hSized := hKnows.sized.emit command
    rw [hEmit] at hSized ⊢
    obtain ⟨hStretch, hAfter⟩ := hKnows.skip hTag hText hSized hTags hTexts
    exact ⟨{}, hStretch, rfl, hAfter⟩
  cases command with
  | defineTag id name => exact hSkipped rfl rfl rfl rfl rfl
  | defineText id value => exact hSkipped rfl rfl rfl rfl rfl
  | clockedCycle cycle =>
      by_cases hRepeated : stream.lastClockedCycle = some cycle
      · exact hSkipped (if_pos hRepeated) rfl rfl rfl rfl
      · have hNoted : ({ stream with lastClockedCycle := some cycle } : BinaryStream).Remembers
            earlier := { hKnows with sized := { hKnows.sized with } }
        have hEmit : stream.emit (.clockedCycle cycle)
            = { stream with lastClockedCycle := some cycle }.emitDefined (.clockedCycle cycle) :=
          if_neg hRepeated
        rw [hEmit]
        exact hNoted.emitDefined rfl
  | _ => exact hKnows.emitDefined rfl

/-- A stream of commands falls into their stretches. -/
theorem Remembers.emitAll (hKnows : stream.Remembers earlier) (commands : List Command) :
    ∃ stretches : List Stretch, stretches.length = commands.length ∧
      (stream.emitAll commands).1 = stretches.flatMap Stretch.bytes ∧
      ∀ first command rest, commands = first ++ command :: rest →
        ∃ stretch, stretches[first.length]? = some stretch ∧
          stretch.IsFor (earlier ++ first) command := by
  -- before every command the stream knows the names of all commands before it
  induction commands generalizing stream earlier with
  | nil => exact ⟨[], rfl, rfl, fun first command rest hSplit => by simp at hSplit⟩
  | cons command commands ih =>
      obtain ⟨stretch, hStretch, hBytes, hAfter⟩ := hKnows.emit command
      obtain ⟨stretches, hLength, hRest, hEach⟩ := ih hAfter
      refine ⟨stretch :: stretches, congrArg (· + 1) hLength, ?_, ?_⟩
      · rw [BinaryStream.emitAll, List.flatMap_cons, ← hBytes, ← hRest]
      · intro first other rest hSplit
        cases first with
        | nil =>
            obtain ⟨rfl, rfl⟩ := List.cons.inj hSplit
            rw [List.append_nil]
            exact ⟨stretch, rfl, hStretch⟩
        | cons head first =>
            obtain ⟨rfl, hTail⟩ := List.cons.inj hSplit
            obtain ⟨later, hAt, hLater⟩ := hEach first other rest hTail
            rw [List.append_assoc] at hLater
            exact ⟨later, hAt, hLater⟩

theorem remembers_opening :
    (({} : BinaryStream).emit openingVersion).2.Remembers [] where
  sized := sized_initial.emit openingVersion
  tags := Wire.RecencyTable.knows_ofCapacity _
  texts := Wire.RecencyTable.knows_ofCapacity _

end BinaryStream

/-- Whatever an encoder did before, the file that it fills with commands is the
version and a stretch for each command. A stretch defines the tag name of its
command just when the name is not among the tag names used last, and its text
value likewise, with the identifier that is due; the command follows, and its
names are meant by the identifiers they hold. Nothing else is defined. -/
theorem storedAs_stretches [Lz4.Codec] (commands : List Command) :
    ∃ stretches : List Stretch,
      StoredAs commands
        (streamBytes false [openingVersion] ++ stretches.flatMap Stretch.bytes) ∧
      stretches.length = commands.length ∧
      ∀ earlier command later, commands = earlier ++ command :: later →
        ∃ stretch, stretches[earlier.length]? = some stretch ∧ stretch.IsFor earlier command := by
  obtain ⟨stretches, hLength, hBytes, hEach⟩ := BinaryStream.remembers_opening.emitAll commands
  refine ⟨stretches, ?_, hLength, hEach⟩
  have hStream : streamBytes false (openingVersion :: commands)
      = streamBytes false [openingVersion] ++ stretches.flatMap Stretch.bytes := by
    rw [← hBytes]
    exact congrArg Prod.fst (BinaryStream.emitAll_append {} [openingVersion] commands)
  rw [← hStream]
  exact storedAs_streamBytes commands

end Output
end CycleTrace
