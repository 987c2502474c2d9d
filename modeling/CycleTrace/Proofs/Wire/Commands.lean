/-
Commands read back from their bytes.

A command that fits the wire format is read back from the bytes that lay it
out, provided that the decoder has seen a version, knows the same last
identifiers as the layout started from, and knows the tag name and the text
value under the identifiers in the layout. Afterwards it knows the last
identifiers that the layout ended with. The packed bytes come apart into the
widths and counts they were put together from.
-/

import CycleTrace.Proofs.Wire.Fields

namespace CycleTrace
namespace Wire

/-! ### Packed bytes -/

theorem unpack_codeHeader (code : Code) (width : Width) :
    Code.ofByte? (codeHeader code width &&& (0x3f : UInt8)) = some code ∧
      Width.ofSelector (codeHeader code width >>> (6 : UInt8)) = width := by
  cases code <;> cases width <;> exact ⟨rfl, rfl⟩

theorem unpack_residenceByte (nodeWidth coordinateWidth : Width) {dimensions : Nat}
    (hDimensions : dimensions ≤ 15) :
    Width.ofSelector (residenceByte nodeWidth coordinateWidth dimensions) = nodeWidth ∧
      Width.ofSelector (residenceByte nodeWidth coordinateWidth dimensions >>> (2 : UInt8))
        = coordinateWidth ∧
      (residenceByte nodeWidth coordinateWidth dimensions).toNat / 16 = dimensions := by
  have hAll : ∀ dimensions : Fin 16,
      Width.ofSelector (residenceByte nodeWidth coordinateWidth dimensions) = nodeWidth ∧
        Width.ofSelector (residenceByte nodeWidth coordinateWidth dimensions >>> (2 : UInt8))
          = coordinateWidth ∧
        (residenceByte nodeWidth coordinateWidth dimensions).toNat / 16 = dimensions := by
    cases nodeWidth <;> cases coordinateWidth <;> decide
  exact hAll ⟨dimensions, by omega⟩

theorem unpack_moveByte (edgeWidth coordinateWidth : Width) (positioned : Bool) :
    Width.ofSelector (moveByte edgeWidth positioned coordinateWidth) = edgeWidth ∧
      Width.ofSelector (moveByte edgeWidth positioned coordinateWidth >>> (3 : UInt8))
        = coordinateWidth ∧
      ((moveByte edgeWidth positioned coordinateWidth &&& (4 : UInt8)) = 0
        ↔ positioned = false) := by
  cases edgeWidth <;> cases coordinateWidth <;> cases positioned <;> decide

theorem unpack_nodeTagByte (valueWidth coordinateWidth : Width) {dimensions : Nat}
    (hDimensions : dimensions ≤ 15) :
    Width.ofSelector (nodeTagByte valueWidth dimensions coordinateWidth) = valueWidth ∧
      Reading.nodeTagPositionWidth (nodeTagByte valueWidth dimensions coordinateWidth)
        = coordinateWidth ∧
      Reading.nodeTagDimensions (nodeTagByte valueWidth dimensions coordinateWidth)
        = dimensions := by
  have hAll : ∀ dimensions : Fin 16,
      Width.ofSelector (nodeTagByte valueWidth dimensions coordinateWidth) = valueWidth ∧
        Reading.nodeTagPositionWidth (nodeTagByte valueWidth dimensions coordinateWidth)
          = coordinateWidth ∧
        Reading.nodeTagDimensions (nodeTagByte valueWidth dimensions coordinateWidth)
          = dimensions := by
    cases valueWidth <;> cases coordinateWidth <;> decide
  exact hAll ⟨dimensions, by omega⟩

theorem toNat_countByte {count : Nat} (hCount : count ≤ 255) : (countByte count).toNat = count := by
  unfold countByte
  rw [UInt8.toNat_ofNat']
  omega

namespace Reading

/-! ### Declarations -/

theorem yields_version (decoder : Decoder) (minor : UInt16) :
    Yields version decoder (Wire.word16 formatMajor ++ Wire.word16 minor)
      (.version formatMajor minor) { decoder with versionSeen := true } := by
  refine (yields_word16 decoder formatMajor).bind ?_
  rw [← List.append_nil (Wire.word16 minor)]
  refine (yields_word16 decoder minor).bind ?_
  intro offset rest
  rfl

theorem yields_newNode {decoder : Decoder} {id : NodeId} {name : String} (parent : Option NodeId)
    (instanceNumber : UInt16) (hName : Command.ShortText name) :
    Yields (newNode (.forSigned (decoder.last.nodeDelta id))) decoder
      ([if parent.isSome then 1 else 0]
        ++ ((Width.forSigned (decoder.last.nodeDelta id)).signed (decoder.last.nodeDelta id)
        ++ ((match parent with
            | some parent => Wire.word16 parent
            | none => [])
        ++ (Wire.word16 instanceNumber ++ shortBytes (textBytes name)))))
      (.newNode id name parent instanceNumber) (afterNode decoder id) := by
  refine (yields_byte decoder _).bind ?_
  refine (yields_node (decoder.last.nodeDelta_held id)).bind ?_
  cases parent with
  | none =>
      dsimp only
      rw [if_neg (by decide)]
      refine (yields_pure none _).bind ?_
      exact (yields_word16 _ instanceNumber).bind (yields_shortText hName).bind_pure
  | some parent =>
      have hFlag : (if (some parent).isSome = true then (1 : UInt8) else 0).toNat % 2 = 1 := rfl
      dsimp only
      rw [if_pos hFlag]
      refine ((yields_word16 _ parent).map some).bind ?_
      exact (yields_word16 _ instanceNumber).bind (yields_shortText hName).bind_pure

theorem yields_newEdge {decoder : Decoder} {id : EdgeId} {name : String}
    (source destination : NodeId) (bandwidth latency : UInt32) (hName : Command.ShortText name) :
    Yields (newEdge (.forSigned (decoder.last.edgeDelta id))) decoder
      ((Width.forSigned (decoder.last.edgeDelta id)).signed (decoder.last.edgeDelta id)
        ++ (Wire.word16 source ++ (Wire.word16 destination ++ (Wire.word32 bandwidth
        ++ (Wire.word32 latency ++ shortBytes (textBytes name))))))
      (.newEdge id source destination bandwidth latency name) (afterEdge decoder id) := by
  refine (yields_edge (decoder.last.edgeDelta_held id)).bind ?_
  refine (yields_word16 _ source).bind ?_
  refine (yields_word16 _ destination).bind ?_
  refine (yields_word32 _ bandwidth).bind ?_
  refine (yields_word32 _ latency).bind ?_
  exact (yields_shortText hName).bind_pure

theorem yields_newClock {decoder : Decoder} {name : String} (id : ClockId) (frequency : UInt64)
    (skew divisions : UInt16) (hName : Command.ShortText name) :
    Yields newClock decoder
      (Wire.word16 id ++ (Wire.word64 frequency ++ (Wire.word16 skew ++ (Wire.word16 divisions
        ++ shortBytes (textBytes name)))))
      (.newClock id frequency skew divisions name) decoder := by
  refine (yields_word16 _ id).bind ?_
  refine (yields_word64 _ frequency).bind ?_
  refine (yields_word16 _ skew).bind ?_
  refine (yields_word16 _ divisions).bind ?_
  exact (yields_shortText hName).bind_pure

theorem yields_setLayout {decoder : Decoder} {dimensions : List UInt32} (node : NodeId)
    (hDimensions : dimensions.length ≤ 15) :
    Yields (setLayout (.forSigned (decoder.last.nodeDelta node))) decoder
      ([countByte dimensions.length]
        ++ ((Width.forSigned (decoder.last.nodeDelta node)).signed (decoder.last.nodeDelta node)
        ++ dimensions.flatMap Wire.word32))
      (.setLayout node dimensions) (afterNode decoder node) := by
  have hCount : (countByte dimensions.length).toNat % 16 = dimensions.length := by
    rw [toNat_countByte (by omega)]
    omega
  have hEach : YieldsEach word32 (afterNode decoder node) (dimensions.flatMap Wire.word32)
      (dimensions.map id) (afterNode decoder node) :=
    yieldsEach_of_forall _ _ _ fun size _ => yields_word32 _ size
  rw [List.map_id] at hEach
  refine (yields_byte decoder _).bind ?_
  refine (yields_node (decoder.last.nodeDelta_held node)).bind ?_
  exact (hEach.many hCount.symm).bind_pure

theorem yields_nodeBandwidth {decoder : Decoder} (build : NodeId → UInt32 → Command)
    (node : NodeId) (bandwidth : UInt32) :
    Yields (nodeBandwidth (.forSigned (decoder.last.nodeDelta node)) build) decoder
      ((Width.forSigned (decoder.last.nodeDelta node)).signed (decoder.last.nodeDelta node)
        ++ Wire.word32 bandwidth)
      (build node bandwidth) (afterNode decoder node) :=
  (yields_node (decoder.last.nodeDelta_held node)).bind (yields_word32 _ bandwidth).bind_pure

theorem yields_setClock {decoder : Decoder} (node : NodeId) (clock : ClockId) :
    Yields (setClock (.forSigned (decoder.last.nodeDelta node))) decoder
      ((Width.forSigned (decoder.last.nodeDelta node)).signed (decoder.last.nodeDelta node)
        ++ Wire.word16 clock)
      (.setClock node clock) (afterNode decoder node) :=
  (yields_node (decoder.last.nodeDelta_held node)).bind (yields_word16 _ clock).bind_pure

/-! ### Items -/

theorem yields_moveItems {decoder : Decoder} {items : List ItemId} {positions : List UInt32}
    (edge : EdgeId) (hItems : items.length ≤ 65535)
    (hPaired : positions = [] ∨ positions.length = items.length) :
    Yields (moveItems (deltaWidth (decoder.last.itemDeltas items))) decoder
      ([moveByte (.forSigned (decoder.last.edgeDelta edge)) (!positions.isEmpty)
          (positionWidth positions)]
        ++ ((Width.forSigned (decoder.last.edgeDelta edge)).signed (decoder.last.edgeDelta edge)
        ++ (littleEndian 2 items.length
        ++ ((decoder.last.itemDeltas items).flatMap
            (deltaWidth (decoder.last.itemDeltas items)).signed
        ++ positionBytes (positionWidth positions) positions))))
      (.moveItems edge items positions)
      (afterItem (afterEdge decoder edge) (items.getLastD decoder.last.item)) := by
  obtain ⟨hEdgeWidth, hPositionWidth, hPositioned⟩ :=
    unpack_moveByte (.forSigned (decoder.last.edgeDelta edge)) (positionWidth positions)
      (!positions.isEmpty)
  have hEach := yieldsEach_items (afterEdge decoder edge)
    ((afterEdge decoder edge).last.itemDeltas_held items)
  refine (yields_byte decoder _).bind ?_
  rw [hEdgeWidth, hPositionWidth]
  refine (yields_edge (decoder.last.edgeDelta_held edge)).bind ?_
  refine (yields_natural (Nat.lt_succ_of_le hItems)).bind ?_
  refine (hEach.many rfl).bind ?_
  dsimp only
  cases positions with
  | nil =>
      rw [if_pos (hPositioned.mpr rfl)]
      exact (yields_pure [] _).bind_pure
  | cons position rest =>
      have hAbsent : ¬ (moveByte (.forSigned (decoder.last.edgeDelta edge))
          (!(position :: rest).isEmpty) (positionWidth (position :: rest)) &&& (4 : UInt8)) = 0 :=
        fun hZero => Bool.noConfusion (hPositioned.mp hZero)
      rw [if_neg hAbsent]
      rcases hPaired with hEmpty | hLength
      · cases hEmpty
      · exact (yields_positions hLength).bind_pure

theorem yields_residence {decoder : Decoder} {position : List UInt32}
    (build : NodeId → ItemId → List UInt32 → Command) (node : NodeId) (item : ItemId)
    (hDimensions : position.length ≤ 15) :
    Yields (residence (.forSigned (decoder.last.itemDelta item)) build) decoder
      ([residenceByte (.forSigned (decoder.last.nodeDelta node)) (positionWidth position)
          position.length]
        ++ ((Width.forSigned (decoder.last.nodeDelta node)).signed (decoder.last.nodeDelta node)
        ++ ((Width.forSigned (decoder.last.itemDelta item)).signed (decoder.last.itemDelta item)
        ++ positionBytes (positionWidth position) position)))
      (build node item position) (afterItem (afterNode decoder node) item) := by
  obtain ⟨hNodeWidth, hPositionWidth, hCount⟩ :=
    unpack_residenceByte (.forSigned (decoder.last.nodeDelta node)) (positionWidth position)
      hDimensions
  refine (yields_byte decoder _).bind ?_
  rw [hNodeWidth, hPositionWidth, hCount]
  refine (yields_node (decoder.last.nodeDelta_held node)).bind ?_
  refine (yields_item ((afterNode decoder node).last.itemDelta_held item)).bind ?_
  exact (yields_positions rfl).bind_pure

/-! ### Tags -/

theorem yields_itemTagInt {decoder : Decoder} {tag : UInt8} {name : String} (item : ItemId)
    (value : UInt64) (hTag : decoder.tags[tag]? = some name) :
    Yields (itemTagInt (.forSigned (decoder.last.itemDelta item))) decoder
      ([(Width.forUnsigned value.toNat).selector]
        ++ ([tag]
        ++ ((Width.forSigned (decoder.last.itemDelta item)).signed (decoder.last.itemDelta item)
        ++ (Width.forUnsigned value.toNat).unsigned value.toNat)))
      (.tagItem item name (.int value)) (afterItem decoder item) := by
  refine (yields_byte decoder _).bind ?_
  rw [Width.ofSelector_selector]
  refine (yields_tagName hTag).bind ?_
  refine (yields_item (decoder.last.itemDelta_held item)).bind ?_
  exact (yields_cycleNumber _ value).bind_pure

theorem yields_itemTagText {decoder : Decoder} {tag : UInt8} {text : UInt16}
    {name value : String} (item : ItemId) (hTag : decoder.tags[tag]? = some name)
    (hText : decoder.texts[text]? = some value) :
    Yields (itemTagText (.forSigned (decoder.last.itemDelta item))) decoder
      ([tag] ++ (Wire.word16 text
        ++ (Width.forSigned (decoder.last.itemDelta item)).signed (decoder.last.itemDelta item)))
      (.tagItem item name (.text value)) (afterItem decoder item) := by
  refine (yields_tagName hTag).bind ?_
  refine (yields_textValue hText).bind ?_
  exact (yields_item (decoder.last.itemDelta_held item)).bind_pure

theorem yields_itemTagSet {decoder : Decoder} {tag : UInt8} {name : String}
    {values : List UInt64} (item : ItemId) (hTag : decoder.tags[tag]? = some name)
    (hValues : values.length ≤ 255) :
    Yields (itemTagSet (.forSigned (decoder.last.itemDelta item))) decoder
      ([(setWidth values).selector] ++ ([tag] ++ ([countByte values.length]
        ++ ((Width.forSigned (decoder.last.itemDelta item)).signed (decoder.last.itemDelta item)
        ++ setBytes (setWidth values) values))))
      (.tagItem item name (.set values)) (afterItem decoder item) := by
  refine (yields_byte decoder _).bind ?_
  rw [Width.ofSelector_selector]
  refine (yields_tagName hTag).bind ?_
  refine (yields_byte decoder _).bind ?_
  rw [toNat_countByte hValues]
  refine (yields_item (decoder.last.itemDelta_held item)).bind ?_
  exact (yields_elements rfl).bind_pure

theorem yields_nodeTagInt {decoder : Decoder} {tag : UInt8} {name : String}
    {position : List UInt32} (node : NodeId) (value : UInt64)
    (hTag : decoder.tags[tag]? = some name) (hDimensions : position.length ≤ 15) :
    Yields (nodeTagInt (.forSigned (decoder.last.nodeDelta node))) decoder
      ([nodeTagByte (.forUnsigned value.toNat) position.length (positionWidth position)]
        ++ ([tag]
        ++ ((Width.forSigned (decoder.last.nodeDelta node)).signed (decoder.last.nodeDelta node)
        ++ (positionBytes (positionWidth position) position
        ++ (Width.forUnsigned value.toNat).unsigned value.toNat))))
      (.tagNode node name (.int value) position) (afterNode decoder node) := by
  obtain ⟨hValueWidth, hPositionWidth, hCount⟩ :=
    unpack_nodeTagByte (.forUnsigned value.toNat) (positionWidth position) hDimensions
  refine (yields_byte decoder _).bind ?_
  rw [hValueWidth, hPositionWidth, hCount]
  refine (yields_tagName hTag).bind ?_
  refine (yields_node (decoder.last.nodeDelta_held node)).bind ?_
  refine (yields_positions rfl).bind ?_
  exact (yields_cycleNumber _ value).bind_pure

theorem yields_nodeTagText {decoder : Decoder} {tag : UInt8} {text : UInt16}
    {name value : String} {position : List UInt32} (node : NodeId)
    (hTag : decoder.tags[tag]? = some name) (hText : decoder.texts[text]? = some value)
    (hDimensions : position.length ≤ 15) :
    Yields (nodeTagText (.forSigned (decoder.last.nodeDelta node))) decoder
      ([nodeTagByte .one position.length (positionWidth position)]
        ++ ([tag] ++ (Wire.word16 text
        ++ ((Width.forSigned (decoder.last.nodeDelta node)).signed (decoder.last.nodeDelta node)
        ++ positionBytes (positionWidth position) position))))
      (.tagNode node name (.text value) position) (afterNode decoder node) := by
  obtain ⟨hValueWidth, hPositionWidth, hCount⟩ :=
    unpack_nodeTagByte .one (positionWidth position) hDimensions
  refine (yields_byte decoder _).bind ?_
  rw [hPositionWidth, hCount]
  refine (yields_tagName hTag).bind ?_
  refine (yields_textValue hText).bind ?_
  refine (yields_node (decoder.last.nodeDelta_held node)).bind ?_
  exact (yields_positions rfl).bind_pure

theorem yields_nodeTagSet {decoder : Decoder} {tag : UInt8} {name : String}
    {values : List UInt64} {position : List UInt32} (node : NodeId)
    (hTag : decoder.tags[tag]? = some name) (hValues : values.length ≤ 255)
    (hDimensions : position.length ≤ 15) :
    Yields (nodeTagSet (.forSigned (decoder.last.nodeDelta node))) decoder
      ([nodeTagByte (setWidth values) position.length (positionWidth position)]
        ++ ([tag] ++ ([countByte values.length]
        ++ ((Width.forSigned (decoder.last.nodeDelta node)).signed (decoder.last.nodeDelta node)
        ++ (positionBytes (positionWidth position) position
        ++ setBytes (setWidth values) values)))))
      (.tagNode node name (.set values) position) (afterNode decoder node) := by
  obtain ⟨hValueWidth, hPositionWidth, hCount⟩ :=
    unpack_nodeTagByte (setWidth values) (positionWidth position) hDimensions
  refine (yields_byte decoder _).bind ?_
  rw [hValueWidth, hPositionWidth, hCount]
  refine (yields_tagName hTag).bind ?_
  refine (yields_byte decoder _).bind ?_
  rw [toNat_countByte hValues]
  refine (yields_node (decoder.last.nodeDelta_held node)).bind ?_
  refine (yields_positions rfl).bind ?_
  exact (yields_elements rfl).bind_pure

theorem yields_cycleTagInt {decoder : Decoder} {tag : UInt8} {name : String} (value : UInt64)
    (hTag : decoder.tags[tag]? = some name) :
    Yields (cycleTagInt (.forUnsigned value.toNat)) decoder
      ([tag] ++ (Width.forUnsigned value.toNat).unsigned value.toNat)
      (.tagCycle name (.int value)) decoder :=
  (yields_tagName hTag).bind (yields_cycleNumber decoder value).bind_pure

theorem yields_cycleTagText {decoder : Decoder} {tag : UInt8} {text : UInt16}
    {name value : String} (hTag : decoder.tags[tag]? = some name)
    (hText : decoder.texts[text]? = some value) :
    Yields cycleTagText decoder ([tag] ++ Wire.word16 text) (.tagCycle name (.text value))
      decoder :=
  (yields_tagName hTag).bind (yields_textValue hText).bind_pure

theorem yields_cycleTagSet {decoder : Decoder} {tag : UInt8} {name : String}
    {values : List UInt64} (hTag : decoder.tags[tag]? = some name)
    (hValues : values.length ≤ 255) :
    Yields (cycleTagSet (setWidth values)) decoder
      ([tag] ++ ([countByte values.length] ++ setBytes (setWidth values) values))
      (.tagCycle name (.set values)) decoder := by
  refine (yields_tagName hTag).bind ?_
  refine (yields_byte decoder _).bind ?_
  rw [toNat_countByte hValues]
  exact (yields_elements rfl).bind_pure

theorem yields_describeTag {decoder : Decoder} {tag : UInt8} {name description : String}
    (hTag : decoder.tags[tag]? = some name) (hDescription : Command.ShortText description) :
    Yields describeTag decoder ([tag] ++ shortBytes (textBytes description))
      (.describeTag name description) decoder :=
  (yields_tagName hTag).bind (yields_shortText hDescription).bind_pure

/-! ### Cycles and comments -/

theorem yields_clockedCycle (decoder : Decoder) (clock : ClockId) (number : UInt64)
    (phase : ClockPhase) :
    Yields (clockedCycle (.forUnsigned number.toNat)) decoder
      (Wire.word16 clock ++ ([phase.toByte]
        ++ (Width.forUnsigned number.toNat).unsigned number.toNat))
      (.clockedCycle ⟨clock, number, phase⟩) decoder := by
  refine (yields_word16 decoder clock).bind (Yields.get fun offset rest => ?_)
  refine (yields_byte decoder phase.toByte).bind ?_
  rw [ClockPhase.ofByte?_toByte]
  exact (yields_cycleNumber decoder number).bind_pure

theorem yields_comment {decoder : Decoder} {text : String} (magic : UInt32)
    (hText : text.utf8ByteSize < UInt32.size) :
    Yields comment decoder (Wire.word32 magic ++ longBytes (textBytes text))
      (.comment magic text) decoder := by
  have hFits : (textBytes text).length < wordSize 4 := by
    rw [length_textBytes]
    exact hText
  refine (yields_word32 decoder magic).bind ((yields_natural hFits).bind ?_)
  exact (yields_text (length_textBytes text).symm).bind_pure

theorem yields_commentBytes {decoder : Decoder} {data : List UInt8} (magic : UInt32)
    (hData : data.length < UInt32.size) :
    Yields commentBytes decoder (Wire.word32 magic ++ longBytes data) (.commentBytes magic data)
      decoder := by
  have hFits : data.length < wordSize 4 := hData
  refine (yields_word32 decoder magic).bind ((yields_natural hFits).bind ?_)
  exact (yields_bytes decoder data).bind_pure

/-! ### Bindings -/

/-- A decoder that has read another tag name. -/
def afterTag (decoder : Decoder) (id : UInt8) (name : String) : Decoder :=
  { decoder with tags := decoder.tags.insert id name }

/-- A decoder that has read another text value. -/
def afterText (decoder : Decoder) (id : UInt16) (value : String) : Decoder :=
  { decoder with texts := decoder.texts.insert id value }

theorem yields_defineTag {decoder : Decoder} {name : String} (id : UInt8)
    (hName : Command.ShortText name) :
    Yields defineTag decoder ([id] ++ shortBytes (textBytes name)) (.defineTag id name)
      (afterTag decoder id name) := by
  refine (yields_byte decoder id).bind ?_
  rw [← List.append_nil (shortBytes _)]
  refine (yields_shortText hName).bind ?_
  intro offset rest
  rfl

theorem yields_defineText {decoder : Decoder} {value : String} (id : UInt16)
    (hValue : Command.ShortText value) :
    Yields defineText decoder (Wire.word16 id ++ shortBytes (textBytes value))
      (.defineText id value) (afterText decoder id value) := by
  refine (yields_word16 decoder id).bind ?_
  rw [← List.append_nil (shortBytes _)]
  refine (yields_shortText hValue).bind ?_
  intro offset rest
  rfl

/-! ### Whole commands -/

/-- The header of a command leads to its payload. -/
theorem yields_command (code : Code) (width : Width) {before after : Decoder}
    {bytes : List UInt8} {command : Command}
    (hSeen : before.versionSeen = true ∨ code = .version)
    (hPayload : Yields (payload code width) before bytes command after) :
    Yields Reading.command before (codeHeader code width :: bytes) command after := by
  obtain ⟨hCode, hWidth⟩ := unpack_codeHeader code width
  have hAllowed : (!before.versionSeen && decide (code ≠ .version)) = false := by
    rcases hSeen with hVersion | hOpening
    · rw [hVersion]
      rfl
    · subst hOpening
      exact Bool.and_false _
  refine Yields.get fun offset rest => ?_
  change Yields _ before ([codeHeader code width] ++ bytes) command after
  refine (yields_byte before (codeHeader code width)).bind ?_
  dsimp only
  rw [hCode, hWidth]
  refine Yields.get fun offset rest => ?_
  change Yields (if (!before.versionSeen && decide (code ≠ .version)) = true then _ else _) _ _ _ _
  rw [hAllowed, if_neg Bool.false_ne_true]
  exact hPayload

/-- What a layout takes for granted about its reader: the names that the
identifiers in it stand for. -/
structure Understands (decoder : Decoder) (tag : UInt8) (text : UInt16) (command : Command) :
    Prop where
  versionSeen : decoder.versionSeen = true
  tagName : ∀ name, command.tagName? = some name → decoder.tags[tag]? = some name
  textValue : ∀ value, command.textValue? = some value → decoder.texts[text]? = some value

/-- A decoder that has followed the layout of a command. -/
def afterLayout (decoder : Decoder) (last : LastIds) : Decoder :=
  { decoder with last }

/-- A command is read back from its layout. -/
theorem yields_body {decoder : Decoder} {tag : UInt8} {text : UInt16} {command : Command}
    (hUnderstands : Understands decoder tag text command) (hFits : command.FitsWire)
    (hPlain : command.isDefinition = false) :
    Yields Reading.command decoder (body decoder.last tag text command).1 command
      (afterLayout decoder (body decoder.last tag text command).2) := by
  obtain ⟨hSeen, hTag, hText⟩ := hUnderstands
  have hHeader (code : Code) (width : Width) {bytes : List UInt8} {after : Decoder}
      (hPayload : Yields (payload code width) decoder bytes command after) :
      Yields Reading.command decoder (codeHeader code width :: bytes) command after :=
    yields_command code width (.inl hSeen) hPayload
  cases command with
  | version major minor =>
      change major = formatMajor at hFits
      subst hFits
      have hSame : { decoder with versionSeen := true } = decoder := by
        rw [← hSeen]
      have hVersion := yields_version decoder minor
      rw [hSame] at hVersion
      exact hHeader .version .one hVersion
  | newNode id name parent instanceNumber =>
      simp only [body, withNode, List.append_assoc, List.cons_append, List.nil_append]
      exact hHeader .newNode _ (yields_newNode parent instanceNumber hFits)
  | newEdge id source destination bandwidth latency name =>
      simp only [body, withEdge, List.append_assoc]
      exact hHeader .newEdge _
        (yields_newEdge source destination bandwidth latency hFits)
  | newItem id =>
      exact hHeader .newItem _
        ((yields_item (decoder.last.itemDelta_held id)).map Command.newItem)
  | deleteItem id =>
      exact hHeader .deleteItem _
        ((yields_item (decoder.last.itemDelta_held id)).map Command.deleteItem)
  | moveItems edge items positions =>
      simp only [body, move, List.append_assoc, List.cons_append, List.nil_append]
      exact hHeader .moveItems _ (yields_moveItems edge hFits.1 hFits.2)
  | enterNode node item position =>
      simp only [body, Wire.residence, List.append_assoc, List.cons_append, List.nil_append]
      exact hHeader .enterNode _ (yields_residence Command.enterNode node item hFits)
  | exitNode node item position =>
      simp only [body, Wire.residence, List.append_assoc, List.cons_append, List.nil_append]
      exact hHeader .exitNode _ (yields_residence Command.exitNode node item hFits)
  | setLayout node dimensions =>
      simp only [body, withNode, List.cons_append, List.nil_append]
      exact hHeader .setLayout _ (yields_setLayout node hFits)
  | tagItem item name value =>
      have hName := hTag name rfl
      cases value with
      | int value =>
          simp only [body, itemTag, withItem, List.cons_append, List.nil_append]
          exact hHeader .itemTagInt _ (yields_itemTagInt item value hName)
      | text value =>
          simp only [body, itemTag, withItem, List.cons_append, List.nil_append]
          exact hHeader .itemTagText _ (yields_itemTagText item hName (hText value rfl))
      | set values =>
          simp only [body, itemTag, withItem, List.cons_append, List.nil_append]
          exact hHeader .itemTagSet _ (yields_itemTagSet item hName hFits.2)
  | tagNode node name value position =>
      have hName := hTag name rfl
      obtain ⟨_, hValue, hPosition⟩ := hFits
      cases value with
      | int value =>
          simp only [body, nodeTag, withNode, List.append_assoc, List.cons_append,
            List.nil_append]
          exact hHeader .nodeTagInt _ (yields_nodeTagInt node value hName hPosition)
      | text value =>
          simp only [body, nodeTag, withNode, List.append_assoc, List.cons_append,
            List.nil_append]
          exact hHeader .nodeTagText _
            (yields_nodeTagText node hName (hText value rfl) hPosition)
      | set values =>
          simp only [body, nodeTag, withNode, List.append_assoc, List.cons_append,
            List.nil_append]
          exact hHeader .nodeTagSet _ (yields_nodeTagSet node hName hValue hPosition)
  | tagCycle name value =>
      have hName := hTag name rfl
      cases value with
      | int value => exact hHeader .cycleTagInt _ (yields_cycleTagInt value hName)
      | text value =>
          exact hHeader .cycleTagText .one
            (yields_cycleTagText hName (hText value rfl))
      | set values => exact hHeader .cycleTagSet _ (yields_cycleTagSet hName hFits.2)
  | describeTag name description =>
      exact hHeader .describeTag .one
        (yields_describeTag (hTag name rfl) hFits.2)
  | setInputBandwidth node bandwidth =>
      exact hHeader .setInputBandwidth _
        (yields_nodeBandwidth Command.setInputBandwidth node bandwidth)
  | setOutputBandwidth node bandwidth =>
      exact hHeader .setOutputBandwidth _
        (yields_nodeBandwidth Command.setOutputBandwidth node bandwidth)
  | newClock id frequency skew divisions name =>
      simp only [body, List.append_assoc]
      exact hHeader .newClock .one
        (yields_newClock id frequency skew divisions hFits)
  | setClock node clock => exact hHeader .setClock _ (yields_setClock node clock)
  | cycle number =>
      exact hHeader .cycle _ ((yields_cycleNumber decoder number).map Command.cycle)
  | clockedCycle cycle =>
      obtain ⟨clock, number, phase⟩ := cycle
      simp only [body, List.append_assoc]
      exact hHeader .clockedCycle _ (yields_clockedCycle decoder clock number phase)
  | comment magic text =>
      exact hHeader .comment .one (yields_comment magic hFits)
  | commentBytes magic data =>
      exact hHeader .commentBytes .one (yields_commentBytes magic hFits)
  | startActivity number =>
      exact hHeader .startActivity _
        ((yields_cycleNumber decoder number).map Command.startActivity)
  | defineTag id name => cases hPlain
  | defineText id value => cases hPlain

theorem yields_tagDefinition {decoder : Decoder} {name : String} (id : UInt8)
    (hSeen : decoder.versionSeen = true) (hName : Command.ShortText name) :
    Yields Reading.command decoder (tagDefinition id name) (.defineTag id name)
      (afterTag decoder id name) :=
  yields_command .defineTag .one (.inl hSeen) (yields_defineTag id hName)

theorem yields_textDefinition {decoder : Decoder} {value : String} (id : UInt16)
    (hSeen : decoder.versionSeen = true) (hValue : Command.ShortText value) :
    Yields Reading.command decoder (textDefinition id value) (.defineText id value)
      (afterText decoder id value) :=
  yields_command .defineText .one (.inl hSeen) (yields_defineText id hValue)

end Reading
end Wire
end CycleTrace
