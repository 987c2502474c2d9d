/-
A decoder understands what a binary stream emits.

The stream and its reader never meet, but they know the same: the last
identifiers, and for every tag name and text value in use the identifier that
stands for it. `BinaryStream.Agrees` says so. A command is emitted after the
definitions it needs, so a reader that agrees before it can follow, and agrees
after it. An identifier that is taken from a name used long ago is defined anew
before it is used, which is why no reader meets an identifier it does not know,
however often identifiers change hands.
-/

import CycleTrace.Proofs.Output.Emission
import CycleTrace.Proofs.Wire.Streams

namespace CycleTrace

/-- Leaves out every clocked cycle that repeats the clocked cycle before it. -/
def dropRepeatedCycles (last : Option ClockedCycle) : List Command → List Command
  | [] => []
  | .clockedCycle cycle :: commands =>
      if last = some cycle then dropRepeatedCycles last commands
      else .clockedCycle cycle :: dropRepeatedCycles (some cycle) commands
  | command :: commands => command :: dropRepeatedCycles last commands

/-- The commands that come from the simulation. -/
def withoutDefinitions (commands : List Command) : List Command :=
  commands.filter fun command => !command.isDefinition

theorem withoutDefinitions_append (commands others : List Command) :
    withoutDefinitions (commands ++ others)
      = withoutDefinitions commands ++ withoutDefinitions others :=
  List.filter_append _ _

theorem withoutDefinitions_eq_nil {commands : List Command}
    (hDefinitions : ∀ command ∈ commands, command.isDefinition = true) :
    withoutDefinitions commands = [] := by
  refine List.filter_eq_nil_iff.mpr fun command hMember => ?_
  rw [hDefinitions command hMember]
  exact Bool.false_ne_true

/-! ### Tables and what their places stand for -/

namespace Wire
namespace RecencyTable

variable {α : Type} [BEq α] [Hashable α]

/-- Every place in use stands for its key. -/
def BoundIn (table : RecencyTable α) (bound : Nat → Option α) : Prop :=
  ∀ key place, table.placeOf? key = some place → bound place = some key

theorem boundIn_ofCapacity (capacity : Nat) (bound : Nat → Option α) :
    (ofCapacity capacity : RecencyTable α).BoundIn bound := by
  intro key place hKey
  simp [placeOf?, ofCapacity] at hKey

variable [LawfulBEq α]

theorem BoundIn.use_again {table : RecencyTable α} {bound : Nat → Option α}
    (hBound : table.BoundIn bound) (hSound : table.Sound) {key : α}
    (hOld : (table.use key).1.isNew = false) :
    (table.use key).2.BoundIn bound ∧ bound (table.use key).1.place = some key := by
  have hHeld := isNew_use hSound key
  rw [hOld] at hHeld
  have hKey : bound (table.use key).1.place = some key := hBound key _ hHeld
  refine ⟨?_, hKey⟩
  intro other id hOther
  rw [placeOf?_use hSound] at hOther
  split at hOther
  · rename_i hSame
    rw [beq_iff_eq] at hSame
    cases hOther
    rw [← hSame]
    exact hKey
  · exact hBound other id (Option.eq_some_of_filter_eq_some hOther)

/-- A new key may bring a new binding, as long as the others stay. -/
theorem BoundIn.use_new {table : RecencyTable α} {bound bound' : Nat → Option α}
    (hBound : table.BoundIn bound) (hSound : table.Sound) {key : α}
    (hKey : bound' (table.use key).1.place = some key)
    (hOthers : ∀ id, id < table.capacity → id ≠ (table.use key).1.place → bound' id = bound id) :
    (table.use key).2.BoundIn bound' := by
  intro other id hOther
  rw [placeOf?_use hSound] at hOther
  split at hOther
  · rename_i hSame
    rw [beq_iff_eq] at hSame
    cases hOther
    rw [← hSame]
    exact hKey
  · have hHeld := Option.eq_some_of_filter_eq_some hOther
    rw [hHeld, Option.filter_some_eq_some] at hOther
    have hBelow := hSound.place_lt other id hHeld
    have hSize := hSound.size_le
    rw [hOthers id (by omega) (by simpa using hOther)]
    exact hBound other id hHeld

/-- A binding that is written down under the new place of its key, where places
are told apart by how they are written. -/
theorem BoundIn.use_insert {β : Type} [BEq β] [Hashable β] [LawfulBEq β] [LawfulHashable β]
    {table : RecencyTable α} {written : Nat → β} {known : Std.HashMap β α}
    (hBound : table.BoundIn fun id => known[written id]?) (hSound : table.Sound)
    (hApart : ∀ id other, id < table.capacity → other < table.capacity →
      written id = written other → id = other) (key : α) :
    (table.use key).2.BoundIn
      fun id => (known.insert (written (table.use key).1.place) key)[written id]? := by
  apply hBound.use_new hSound
  · exact Std.HashMap.getElem?_insert_self
  · intro id hId hOther
    have hUnlike : written (table.use key).1.place ≠ written id := by
      intro hSame
      exact hOther (hApart _ id (place_use_lt hSound key) hId hSame).symm
    simp only [Std.HashMap.getElem?_insert, beq_iff_eq, hUnlike, if_false]

end RecencyTable
end Wire

namespace Output
namespace BinaryStream

open Wire (Decoder)

/-- A stream and its reader know the same. -/
structure Agrees (stream : BinaryStream) (decoder : Decoder) : Prop where
  last : decoder.last = stream.last
  versionSeen : decoder.versionSeen = true
  waiting : decoder.failed = false
  sized : stream.Sized
  tags : stream.tags.BoundIn fun place => decoder.tags[UInt8.ofNat place]?
  texts : stream.texts.BoundIn fun place => decoder.texts[UInt16.ofNat place]?

/-- Identifiers of tag names fit a byte. -/
private theorem ofNat8_inj {capacity : Nat} (hCapacity : capacity = Limits.rememberedTags)
    (id other : Nat) (hId : id < capacity) (hOther : other < capacity)
    (hSame : UInt8.ofNat id = UInt8.ofNat other) : id = other := by
  have hBytes : Limits.rememberedTags = UInt8.size := rfl
  have hNumbers := congrArg UInt8.toNat hSame
  rwa [UInt8.toNat_ofNat_of_lt' (by omega), UInt8.toNat_ofNat_of_lt' (by omega)] at hNumbers

/-- Identifiers of text values fit two bytes. -/
private theorem ofNat16_inj {capacity : Nat} (hCapacity : capacity = Limits.rememberedTexts)
    (id other : Nat) (hId : id < capacity) (hOther : other < capacity)
    (hSame : UInt16.ofNat id = UInt16.ofNat other) : id = other := by
  have hWords : Limits.rememberedTexts = UInt16.size := rfl
  have hNumbers := congrArg UInt16.toNat hSame
  rwa [UInt16.toNat_ofNat_of_lt' (by omega), UInt16.toNat_ofNat_of_lt' (by omega)] at hNumbers

/-- The reader can follow the definition of a tag name and knows it afterwards. -/
theorem Agrees.nameTag {stream : BinaryStream} {decoder : Decoder}
    (hAgrees : stream.Agrees decoder) {name : Option String}
    (hShort : ∀ tag, name = some tag → Command.ShortText tag) :
    ∃ definitions after, decoder.FollowsEach (stream.nameTag name).2.1 definitions after ∧
      (∀ command ∈ definitions, command.isDefinition = true) ∧
      (stream.nameTag name).2.2.Agrees after ∧
      (∀ tag, name = some tag → after.tags[(stream.nameTag name).1]? = some tag) := by
  cases name with
  | none => exact ⟨[], decoder, .nil decoder, by simp, hAgrees, by simp⟩
  | some tag =>
      have hSized := hAgrees.sized.nameTag (some tag)
      unfold BinaryStream.nameTag
      dsimp only
      rw [Wire.RecencyTable.toUInt8_id_assign]
      cases hNew : (stream.tags.assign tag).1.isNew with
      | false =>
          obtain ⟨hBound, hTag⟩ := hAgrees.tags.use_again hAgrees.sized.tagsSound hNew
          refine ⟨[], decoder, .nil decoder, by simp, ?_, ?_⟩
          · exact { hAgrees with sized := hSized, tags := hBound }
          · rintro _ ⟨⟩
            exact hTag
      | true =>
          let place := (stream.tags.use tag).1.place
          have hDefined := Wire.Reading.yields_tagDefinition
            (UInt8.ofNat place) hAgrees.versionSeen (hShort tag rfl)
          have hBound := hAgrees.tags.use_insert hAgrees.sized.tagsSound
            (ofNat8_inj hAgrees.sized.tags) tag
          refine ⟨[.defineTag (UInt8.ofNat place) tag],
            Wire.Reading.afterTag decoder (UInt8.ofNat place) tag, ?_,
            by simp [Command.isDefinition],
            { hAgrees with sized := hSized, tags := hBound }, ?_⟩
          · exact .cons (.single hAgrees.waiting hDefined) hAgrees.waiting hAgrees.versionSeen
              (.nil _)
          · rintro _ ⟨⟩
            exact Std.HashMap.getElem?_insert_self

/-- The reader can follow the definition of a text value and knows it
afterwards. The tag names it knows stay as they are. -/
theorem Agrees.nameText {stream : BinaryStream} {decoder : Decoder}
    (hAgrees : stream.Agrees decoder) {value : Option String}
    (hShort : ∀ text, value = some text → Command.ShortText text) :
    ∃ definitions after, decoder.FollowsEach (stream.nameText value).2.1 definitions after ∧
      (∀ command ∈ definitions, command.isDefinition = true) ∧
      (stream.nameText value).2.2.Agrees after ∧ after.tags = decoder.tags ∧
      (∀ text, value = some text → after.texts[(stream.nameText value).1]? = some text) := by
  cases value with
  | none => exact ⟨[], decoder, .nil decoder, by simp, hAgrees, rfl, by simp⟩
  | some text =>
      have hSized := hAgrees.sized.nameText (some text)
      unfold BinaryStream.nameText
      dsimp only
      rw [Wire.RecencyTable.toUInt16_id_assign]
      cases hNew : (stream.texts.assign text).1.isNew with
      | false =>
          obtain ⟨hBound, hText⟩ := hAgrees.texts.use_again hAgrees.sized.textsSound hNew
          refine ⟨[], decoder, .nil decoder, by simp, ?_, rfl, ?_⟩
          · exact { hAgrees with sized := hSized, texts := hBound }
          · rintro _ ⟨⟩
            exact hText
      | true =>
          let place := (stream.texts.use text).1.place
          have hDefined := Wire.Reading.yields_textDefinition
            (UInt16.ofNat place) hAgrees.versionSeen (hShort text rfl)
          have hBound := hAgrees.texts.use_insert hAgrees.sized.textsSound
            (ofNat16_inj hAgrees.sized.texts) text
          refine ⟨[.defineText (UInt16.ofNat place) text],
            Wire.Reading.afterText decoder (UInt16.ofNat place) text, ?_,
            by simp [Command.isDefinition],
            { hAgrees with sized := hSized, texts := hBound }, rfl, ?_⟩
          · exact .cons (.single hAgrees.waiting hDefined) hAgrees.waiting hAgrees.versionSeen
              (.nil _)
          · rintro _ ⟨⟩
            exact Std.HashMap.getElem?_insert_self

/-! ### Commands -/

theorem shortText_of_tagName? {command : Command} (hFits : command.FitsWire) (tag : String)
    (hTag : command.tagName? = some tag) : Command.ShortText tag := by
  cases command with
  | tagItem item name value =>
      cases hTag
      exact hFits.1
  | tagNode node name value position =>
      cases hTag
      exact hFits.1
  | tagCycle name value =>
      cases hTag
      exact hFits.1
  | describeTag name description =>
      cases hTag
      exact hFits.1
  | _ => cases hTag

theorem shortText_of_textValue? {command : Command} (hFits : command.FitsWire) (text : String)
    (hText : command.textValue? = some text) : Command.ShortText text := by
  cases command with
  | tagItem item name value =>
      cases value with
      | text value =>
          cases hText
          exact hFits.2
      | _ => cases hText
  | tagNode node name value position =>
      cases value with
      | text value =>
          cases hText
          exact hFits.2.1
      | _ => cases hText
  | tagCycle name value =>
      cases value with
      | text value =>
          cases hText
          exact hFits.2
      | _ => cases hText
  | _ => cases hText

theorem lastClockedCycle_emitDefined (stream : BinaryStream) (command : Command) :
    (stream.emitDefined command).2.lastClockedCycle = stream.lastClockedCycle := by
  have hTagged (name : Option String) :
      (stream.nameTag name).2.2.lastClockedCycle = stream.lastClockedCycle := by
    cases name <;> rfl
  have hNamed (other : BinaryStream) (value : Option String) :
      (other.nameText value).2.2.lastClockedCycle = other.lastClockedCycle := by
    cases value <;> rfl
  exact (hNamed _ _).trans (hTagged _)

/-- The reader can follow a command that is no definition itself. -/
theorem Agrees.emitDefined {stream : BinaryStream} {decoder : Decoder}
    (hAgrees : stream.Agrees decoder) {command : Command} (hFits : command.FitsWire)
    (hPlain : command.isDefinition = false) :
    ∃ decoded after, decoder.FollowsEach (stream.emitDefined command).1 decoded after ∧
      (stream.emitDefined command).2.Agrees after ∧ withoutDefinitions decoded = [command] := by
  obtain ⟨tagDefinitions, tagged, hTagFollows, hTagDefinitions, hTagged, hTag⟩ :=
    hAgrees.nameTag (shortText_of_tagName? hFits)
  obtain ⟨textDefinitions, named, hTextFollows, hTextDefinitions, hNamed, hSameTags, hText⟩ :=
    hTagged.nameText (shortText_of_textValue? hFits)
  have hUnderstands : Wire.Reading.Understands named (stream.nameTag command.tagName?).1
      ((stream.nameTag command.tagName?).2.2.nameText command.textValue?).1 command :=
    { versionSeen := hNamed.versionSeen
      tagName := fun tag hName => by rw [hSameTags, hTag tag hName]
      textValue := hText }
  have hBody := Decoder.Follows.single hNamed.waiting
    (Wire.Reading.yields_body hUnderstands hFits hPlain)
  rw [hNamed.last] at hBody
  have hLast := Decoder.FollowsEach.cons hBody hNamed.waiting hNamed.versionSeen (.nil _)
  refine ⟨_, _, hTagFollows.append (hTextFollows.append hLast), ?_, ?_⟩
  · exact { hNamed with last := rfl, sized := { hNamed.sized with } }
  · rw [withoutDefinitions_append, withoutDefinitions_append,
      withoutDefinitions_eq_nil hTagDefinitions, withoutDefinitions_eq_nil hTextDefinitions]
    simp [withoutDefinitions, hPlain]

/-- What a reader finds of one command, in front of anything that comes later. -/
theorem Agrees.emit {stream : BinaryStream} {decoder : Decoder}
    (hAgrees : stream.Agrees decoder) {command : Command} (hFits : command.FitsWire) :
    ∃ decoded after, decoder.FollowsEach (stream.emit command).1 decoded after ∧
      (stream.emit command).2.Agrees after ∧
      ∀ later, withoutDefinitions decoded
          ++ dropRepeatedCycles (stream.emit command).2.lastClockedCycle later
        = dropRepeatedCycles stream.lastClockedCycle (withoutDefinitions [command] ++ later) := by
  have hOrdinary (hPlain : command.isDefinition = false)
      (hEmit : stream.emit command = stream.emitDefined command)
      (hKept : ∀ last later, dropRepeatedCycles last (command :: later)
        = command :: dropRepeatedCycles last later) :
      ∃ decoded after, decoder.FollowsEach (stream.emit command).1 decoded after ∧
        (stream.emit command).2.Agrees after ∧
        ∀ later, withoutDefinitions decoded
            ++ dropRepeatedCycles (stream.emit command).2.lastClockedCycle later
          = dropRepeatedCycles stream.lastClockedCycle
              (withoutDefinitions [command] ++ later) := by
    rw [hEmit]
    obtain ⟨decoded, after, hFollows, hAfter, hDecoded⟩ := hAgrees.emitDefined hFits hPlain
    refine ⟨decoded, after, hFollows, hAfter, fun later => ?_⟩
    rw [hDecoded, lastClockedCycle_emitDefined]
    simp [withoutDefinitions, hPlain, hKept]
  cases command with
  | defineTag id name => exact ⟨[], decoder, .nil decoder, hAgrees, fun later => rfl⟩
  | defineText id value => exact ⟨[], decoder, .nil decoder, hAgrees, fun later => rfl⟩
  | clockedCycle cycle =>
      unfold BinaryStream.emit
      dsimp only
      by_cases hRepeated : stream.lastClockedCycle = some cycle
      · rw [if_pos hRepeated]
        refine ⟨[], decoder, .nil decoder,
          { hAgrees with sized := { hAgrees.sized with } }, fun later => ?_⟩
        simp [withoutDefinitions, Command.isDefinition, dropRepeatedCycles, hRepeated]
      · rw [if_neg hRepeated]
        have hNoted : ({ stream with lastClockedCycle := some cycle } : BinaryStream).Agrees
            decoder := { hAgrees with sized := { hAgrees.sized with } }
        obtain ⟨decoded, after, hFollows, hAfter, hDecoded⟩ := hNoted.emitDefined hFits rfl
        refine ⟨decoded, after, hFollows, hAfter, fun later => ?_⟩
        rw [hDecoded, lastClockedCycle_emitDefined]
        simp [withoutDefinitions, Command.isDefinition, dropRepeatedCycles, hRepeated]
  | _ => exact hOrdinary rfl rfl fun last later => rfl

/-- A reader follows any list of commands that fit the wire format. -/
theorem Agrees.emitAll {stream : BinaryStream} {decoder : Decoder}
    (hAgrees : stream.Agrees decoder) {commands : List Command}
    (hFits : ∀ command ∈ commands, command.FitsWire) :
    ∃ decoded after, decoder.FollowsEach (stream.writesAll commands) decoded after ∧
      (stream.emitAll commands).2.Agrees after ∧
      withoutDefinitions decoded
        = dropRepeatedCycles stream.lastClockedCycle (withoutDefinitions commands) := by
  -- the stream and its reader agree before every command
  induction commands generalizing stream decoder with
  | nil => exact ⟨[], decoder, .nil decoder, hAgrees, rfl⟩
  | cons command commands ih =>
      obtain ⟨first, middle, hFirst, hMiddle, hStep⟩ :=
        hAgrees.emit (hFits command List.mem_cons_self)
      obtain ⟨rest, after, hRest, hAfter, hLater⟩ :=
        ih hMiddle fun other hOther => hFits other (List.mem_cons_of_mem _ hOther)
      refine ⟨first ++ rest, after, hFirst.append hRest, hAfter, ?_⟩
      rw [withoutDefinitions_append, hLater, hStep, ← withoutDefinitions_append]
      rfl

/-! ### Whole streams -/

/-- The first command of a stream tells its version and nothing else. -/
theorem agrees_opening :
    ∃ after, (Decoder.ofBytes []).FollowsEach (({} : BinaryStream).emit openingVersion).1
        [openingVersion] after ∧ (({} : BinaryStream).emit openingVersion).2.Agrees after := by
  have hVersion := Wire.Reading.yields_command .version .one (.inr rfl)
    (Wire.Reading.yields_version (Decoder.ofBytes []) formatMinor)
  refine ⟨_, .cons (.single rfl hVersion) rfl rfl (.nil _), ?_⟩
  exact
    { last := rfl
      versionSeen := rfl
      waiting := rfl
      sized := sized_initial
      tags := Wire.RecencyTable.boundIn_ofCapacity _ _
      texts := Wire.RecencyTable.boundIn_ofCapacity _ _ }

/-- Each write of a stream of commands that fit holds one command of what the
stream decodes to: the version and the commands, without definitions and
repeated cycles. -/
theorem followsEach_writesAll {commands : List Command}
    (hFits : ∀ command ∈ commands, command.FitsWire) :
    ∃ decoded after, (Decoder.ofBytes []).FollowsEach
        (({} : BinaryStream).writesAll (openingVersion :: commands)) decoded after ∧
      withoutDefinitions decoded
        = openingVersion :: dropRepeatedCycles none (withoutDefinitions commands) := by
  obtain ⟨opened, hOpening, hOpened⟩ := agrees_opening
  obtain ⟨decoded, after, hFollows, _, hDecoded⟩ := hOpened.emitAll hFits
  refine ⟨[openingVersion] ++ decoded, after, hOpening.append hFollows, ?_⟩
  rw [withoutDefinitions_append, hDecoded]
  rfl

theorem decode_emitAll {commands : List Command}
    (hFits : ∀ command ∈ commands, command.FitsWire) :
    ∃ decoded, Wire.decode (({} : BinaryStream).emitAll (openingVersion :: commands)).1
        = .ok decoded ∧
      withoutDefinitions decoded
        = openingVersion :: dropRepeatedCycles none (withoutDefinitions commands) := by
  obtain ⟨decoded, after, hEach, hDecoded⟩ := followsEach_writesAll hFits
  refine ⟨decoded, ?_, hDecoded⟩
  rw [← flatten_writesAll]
  exact Wire.decode_of_followsEach hEach (List.cons_ne_nil _ _)

end BinaryStream
end Output
end CycleTrace
