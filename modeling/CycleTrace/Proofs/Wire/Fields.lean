/-
Fields read back from their bytes.

`Reading.Yields` says that a reading takes exactly the given bytes, wherever
they stand and whatever follows them, and gives a value. The bytes of two
readings in sequence stand one after the other, so the layout of a command can
be read off its fields. Each kind of field has its own statement here: words,
numbers in a width, texts, bound names, differences and lists.
-/

import CycleTrace.Proofs.Wire.Numbers
import CycleTrace.Wire.Decoder

namespace CycleTrace
namespace Wire

/-- A decoder with the same knowledge at another place of a stream. -/
def Decoder.placed (decoder : Decoder) (offset : Nat) (rest : List UInt8) : Decoder :=
  { decoder with rest, offset }

namespace Reading

/-- A reading that takes exactly the given bytes and gives a value, and what the
decoder knows before and after it. -/
def Yields (read : Reading α) (before : Decoder) (bytes : List UInt8) (value : α)
    (after : Decoder) : Prop :=
  ∀ offset rest, read (before.placed offset (bytes ++ rest))
    = .ok value (after.placed (offset + bytes.length) rest)

/-! ### Sequences of readings -/

theorem yields_pure (value : α) (decoder : Decoder) :
    Yields (pure value) decoder [] value decoder := by
  intro offset rest
  rfl

theorem Yields.bind {read : Reading α} {next : α → Reading β} {before middle after : Decoder}
    {first second : List UInt8} {value : α} {result : β}
    (hRead : Yields read before first value middle)
    (hNext : Yields (next value) middle second result after) :
    Yields (read >>= next) before (first ++ second) result after := by
  intro offset rest
  have hFirst := hRead offset (second ++ rest)
  have hSecond := hNext (offset + first.length) rest
  rw [List.append_assoc]
  change EStateM.bind read next _ = _
  unfold EStateM.bind
  rw [hFirst, List.length_append, ← Nat.add_assoc]
  exact hSecond

/-- The last reading of a sequence, whose value is only rearranged. -/
theorem Yields.bind_pure {read : Reading α} {next : α → β} {before after : Decoder}
    {bytes : List UInt8} {value : α} (hRead : Yields read before bytes value after) :
    Yields (read >>= fun value => Pure.pure (next value)) before bytes (next value) after := by
  rw [← List.append_nil bytes]
  exact hRead.bind (yields_pure (next value) after)

theorem Yields.map {read : Reading α} {before after : Decoder} {bytes : List UInt8} {value : α}
    (change : α → β) (hRead : Yields read before bytes value after) :
    Yields (change <$> read) before bytes (change value) after := by
  intro offset rest
  change EStateM.map change read _ = _
  unfold EStateM.map
  rw [hRead offset rest]

/-- A look at the decoder takes no bytes. -/
theorem Yields.get {next : Decoder → Reading α} {before after : Decoder} {bytes : List UInt8}
    {value : α}
    (hNext : ∀ offset rest,
      Yields (next (before.placed offset (bytes ++ rest))) before bytes value after) :
    Yields (MonadState.get >>= next) before bytes value after := by
  intro offset rest
  exact hNext offset rest offset rest

/-! ### Words -/

theorem yields_bytes (decoder : Decoder) (bytes : List UInt8) :
    Yields (Reading.bytes bytes.length) decoder bytes bytes decoder := by
  intro offset rest
  have hTaken : (bytes ++ rest).take bytes.length = bytes := List.take_left
  have hDropped : (bytes ++ rest).drop bytes.length = rest := List.drop_left
  simp only [Reading.bytes, Decoder.placed, hTaken, hDropped, Nat.lt_irrefl, if_false]

theorem yields_bytes_of_length {decoder : Decoder} {bytes : List UInt8} {count : Nat}
    (hLength : bytes.length = count) :
    Yields (Reading.bytes count) decoder bytes bytes decoder := by
  subst hLength
  exact yields_bytes decoder bytes

theorem yields_byte (decoder : Decoder) (value : UInt8) :
    Yields byte decoder [value] value decoder :=
  (yields_bytes decoder [value]).bind_pure

theorem yields_natural {decoder : Decoder} {count value : Nat} (hFits : value < wordSize count) :
    Yields (natural count) decoder (littleEndian count value) value decoder := by
  have hNatural : Yields (natural count) decoder (littleEndian count value)
      (ofLittleEndian (littleEndian count value)) decoder :=
    (yields_bytes_of_length (length_littleEndian count value)).bind_pure
  rwa [ofLittleEndian_littleEndian_of_lt hFits] at hNatural

theorem yields_word16 (decoder : Decoder) (value : UInt16) :
    Yields word16 decoder (Wire.word16 value) value decoder := by
  have hNatural : Yields word16 decoder (Wire.word16 value) (UInt16.ofNat value.toNat) decoder :=
    (yields_natural value.toNat_lt).bind_pure
  rwa [UInt16.ofNat_toNat] at hNatural

theorem yields_word32 (decoder : Decoder) (value : UInt32) :
    Yields word32 decoder (Wire.word32 value) value decoder := by
  have hNatural : Yields word32 decoder (Wire.word32 value) (UInt32.ofNat value.toNat) decoder :=
    (yields_natural value.toNat_lt).bind_pure
  rwa [UInt32.ofNat_toNat] at hNatural

/-! ### Numbers in a width -/

/-- The two words of a long number stand next to each other. -/
theorem yields_number {decoder : Decoder} {width : Width} {bytes : List UInt8}
    (hLength : bytes.length = width.bytes) :
    Yields (number width) decoder bytes bytes decoder := by
  cases width with
  | one => exact yields_bytes_of_length hLength
  | two => exact yields_bytes_of_length hLength
  | four => exact yields_bytes_of_length hLength
  | eight =>
      change bytes.length = 8 at hLength
      have hLow : (bytes.take 4).length = 4 := by
        rw [List.length_take]
        omega
      have hHigh : (bytes.drop 4).length = 4 := by
        rw [List.length_drop]
        omega
      have hBoth : Yields (number .eight) decoder (bytes.take 4 ++ bytes.drop 4)
          (bytes.take 4 ++ bytes.drop 4) decoder :=
        (yields_bytes_of_length hLow).bind (yields_bytes_of_length hHigh).bind_pure
      rwa [List.take_append_drop] at hBoth

theorem yields_unsigned {decoder : Decoder} {width : Width} {value : Nat}
    (hHolds : width.Holds value) :
    Yields (unsigned width) decoder (width.unsigned value) value decoder := by
  have hNumber : Yields (unsigned width) decoder (width.unsigned value)
      (ofLittleEndian (width.unsigned value)) decoder :=
    (yields_number (width.length_unsigned value)).bind_pure
  rwa [Width.ofLittleEndian_unsigned hHolds] at hNumber

theorem yields_signed {decoder : Decoder} {width : Width} {value : Int}
    (hHolds : width.HoldsSigned value) :
    Yields (signed width) decoder (width.signed value) value decoder := by
  have hNumber : Yields (signed width) decoder (width.signed value)
      (ofSignedWord (width.signed value)) decoder :=
    (yields_number (width.length_signed value)).bind_pure
  rwa [Width.ofSignedWord_signed hHolds] at hNumber

theorem yields_word64 (decoder : Decoder) (value : UInt64) :
    Yields word64 decoder (Wire.word64 value) value decoder := by
  have hHolds : Width.eight.Holds value.toNat := value.toNat_lt
  have hNumber : Yields word64 decoder (Wire.word64 value) (UInt64.ofNat value.toNat) decoder :=
    (yields_unsigned hHolds).bind_pure
  rwa [UInt64.ofNat_toNat] at hNumber

theorem yields_cycleNumber (decoder : Decoder) (value : UInt64) :
    Yields (cycleNumber (.forUnsigned value.toNat)) decoder
      ((Width.forUnsigned value.toNat).unsigned value.toNat) value decoder := by
  have hHolds := Width.forUnsigned_holds value.toNat_lt
  have hNumber : Yields (cycleNumber (.forUnsigned value.toNat)) decoder
      ((Width.forUnsigned value.toNat).unsigned value.toNat) (UInt64.ofNat value.toNat) decoder :=
    (yields_unsigned hHolds).bind_pure
  rwa [UInt64.ofNat_toNat] at hNumber

/-! ### Lists -/

/-- Readings made one after the other, each with what the earlier ones taught. -/
inductive YieldsEach (read : Reading α) : Decoder → List UInt8 → List α → Decoder → Prop
  | nil (decoder : Decoder) : YieldsEach read decoder [] [] decoder
  | cons {before middle after : Decoder} {first rest : List UInt8} {value : α} {values : List α}
      (hRead : Yields read before first value middle)
      (hRest : YieldsEach read middle rest values after) :
      YieldsEach read before (first ++ rest) (value :: values) after

theorem YieldsEach.manyAfter {read : Reading α} {before after : Decoder} {bytes : List UInt8}
    {values : List α} (hEach : YieldsEach read before bytes values after) (earlier : List α) :
    Yields (Reading.manyAfter read earlier values.length) before bytes
      (earlier.reverse ++ values) after := by
  induction hEach generalizing earlier with
  | nil decoder =>
      rw [List.append_nil]
      exact yields_pure earlier.reverse decoder
  | @cons before middle after first rest value values hRead hRest ih =>
      have hLater := ih (value :: earlier)
      rw [List.reverse_cons, List.append_assoc] at hLater
      exact hRead.bind hLater

theorem YieldsEach.many {read : Reading α} {before after : Decoder} {bytes : List UInt8}
    {values : List α} {count : Nat} (hEach : YieldsEach read before bytes values after)
    (hCount : values.length = count) :
    Yields (Reading.many count read) before bytes values after := by
  subst hCount
  exact hEach.manyAfter []

/-- Elements that teach the decoder nothing. -/
theorem yieldsEach_of_forall (read : Reading α) (layOut : β → List UInt8) (content : β → α)
    {decoder : Decoder} {elements : List β}
    (hRead : ∀ element ∈ elements,
      Yields read decoder (layOut element) (content element) decoder) :
    YieldsEach read decoder (elements.flatMap layOut) (elements.map content) decoder := by
  induction elements with
  | nil => exact .nil decoder
  | cons element rest ih =>
      have hRest := ih fun other hOther => hRead other (List.mem_cons_of_mem _ hOther)
      exact .cons (hRead element List.mem_cons_self) hRest

/-- Numbers of a word size, each laid out in one width that holds all of them. -/
theorem yields_manyUnsigned {decoder : Decoder} {width : Width} {values : List α} {count : Nat}
    (toNat : α → Nat) (ofNat : Nat → α) (hBack : ∀ value, ofNat (toNat value) = value)
    (hHolds : ∀ value ∈ values, width.Holds (toNat value)) (hCount : values.length = count) :
    Yields (many count (unsigned width) >>= fun numbers => pure (numbers.map ofNat)) decoder
      (values.flatMap fun value => width.unsigned (toNat value)) values decoder := by
  have hEach : YieldsEach (unsigned width) decoder
      (values.flatMap fun value => width.unsigned (toNat value)) (values.map toNat) decoder :=
    yieldsEach_of_forall _ _ _ fun value hMember => yields_unsigned (hHolds value hMember)
  have hLength : (values.map toNat).length = count := by rw [List.length_map, hCount]
  have hValues : (values.map toNat).map ofNat = values := by
    simp only [List.map_map, Function.comp_def, hBack, List.map_id']
  have hNumbers : Yields (many count (unsigned width) >>= fun numbers => pure (numbers.map ofNat))
      decoder (values.flatMap fun value => width.unsigned (toNat value))
      ((values.map toNat).map ofNat) decoder := (hEach.many hLength).bind_pure
  rwa [hValues] at hNumbers

theorem yields_positions {decoder : Decoder} {position : List UInt32} {count : Nat}
    (hCount : position.length = count) :
    Yields (positions (positionWidth position) count) decoder
      (positionBytes (positionWidth position) position) position decoder :=
  yields_manyUnsigned UInt32.toNat UInt32.ofNat (fun _ => UInt32.ofNat_toNat)
    (positionWidth_holds position) hCount

theorem yields_elements {decoder : Decoder} {values : List UInt64} {count : Nat}
    (hCount : values.length = count) :
    Yields (elements (setWidth values) count) decoder (setBytes (setWidth values) values) values
      decoder :=
  yields_manyUnsigned UInt64.toNat UInt64.ofNat (fun _ => UInt64.ofNat_toNat)
    (setWidth_holds values) hCount

/-! ### Texts -/

theorem text?_textBytes (text : String) : text? (textBytes text) = some text := by
  have hBytes : ByteArray.mk (textBytes text).toArray = text.toByteArray := rfl
  unfold text? String.fromUTF8?
  rw [hBytes, dif_pos text.isValidUTF8]
  rfl

theorem yields_text {decoder : Decoder} {text : String} {count : Nat}
    (hCount : text.utf8ByteSize = count) :
    Yields (Reading.text count) decoder (textBytes text) text decoder := by
  have hLength : (textBytes text).length = count := by rw [length_textBytes, hCount]
  refine Yields.get fun offset rest => ?_
  rw [← List.append_nil (textBytes text)]
  refine (yields_bytes_of_length hLength).bind ?_
  rw [text?_textBytes]
  exact yields_pure text decoder

theorem yields_shortText {decoder : Decoder} {text : String}
    (hShort : text.utf8ByteSize < 65536) :
    Yields shortText decoder (shortBytes (textBytes text)) text decoder := by
  have hCount : Yields (natural 2) decoder (littleEndian 2 (textBytes text).length)
      (textBytes text).length decoder := by
    refine yields_natural ?_
    rw [length_textBytes]
    exact hShort
  exact hCount.bind (yields_text (length_textBytes text).symm)

/-! ### Bound names -/

theorem yields_tagName {decoder : Decoder} {id : UInt8} {name : String}
    (hBound : decoder.tags[id]? = some name) : Yields tagName decoder [id] name decoder := by
  rw [← List.append_nil [id]]
  refine (yields_byte decoder id).bind (Yields.get fun offset rest => ?_)
  have hTag : (decoder.placed offset ([] ++ rest)).tags[id]? = some name := hBound
  rw [hTag]
  exact yields_pure name decoder

theorem yields_textValue {decoder : Decoder} {id : UInt16} {value : String}
    (hBound : decoder.texts[id]? = some value) :
    Yields textValue decoder (Wire.word16 id) value decoder := by
  rw [← List.append_nil (Wire.word16 id)]
  refine (yields_word16 decoder id).bind (Yields.get fun offset rest => ?_)
  have hText : (decoder.placed offset ([] ++ rest)).texts[id]? = some value := hBound
  rw [hText]
  exact yields_pure value decoder

/-! ### Identifiers as differences -/

/-- A decoder that has read another item. -/
def afterItem (decoder : Decoder) (item : ItemId) : Decoder :=
  { decoder with last := { decoder.last with item } }

/-- A decoder that has read another node. -/
def afterNode (decoder : Decoder) (node : NodeId) : Decoder :=
  { decoder with last := { decoder.last with node } }

/-- A decoder that has read another edge. -/
def afterEdge (decoder : Decoder) (edge : EdgeId) : Decoder :=
  { decoder with last := { decoder.last with edge } }

/-- A change of what is known takes no bytes. -/
theorem yields_modifyGet {change : Decoder → α × Decoder} {before after : Decoder} {value : α}
    (hChange : ∀ offset rest,
      change (before.placed offset rest) = (value, after.placed offset rest)) :
    Yields (modifyGet change) before [] value after := by
  intro offset rest
  change (match change (before.placed offset rest) with
    | (value, decoder) => EStateM.Result.ok value decoder) = _
  rw [hChange]
  rfl

theorem yields_item {decoder : Decoder} {width : Width} {id : ItemId}
    (hHolds : width.HoldsSigned (decoder.last.itemDelta id)) :
    Yields (item width) decoder (width.signed (decoder.last.itemDelta id)) id
      (afterItem decoder id) := by
  rw [← List.append_nil (width.signed _)]
  refine (yields_signed hHolds).bind (yields_modifyGet fun offset rest => ?_)
  simp only [Decoder.placed, afterItem, LastIds.itemAt_itemDelta]

theorem yields_node {decoder : Decoder} {width : Width} {id : NodeId}
    (hHolds : width.HoldsSigned (decoder.last.nodeDelta id)) :
    Yields (node width) decoder (width.signed (decoder.last.nodeDelta id)) id
      (afterNode decoder id) := by
  rw [← List.append_nil (width.signed _)]
  refine (yields_signed hHolds).bind (yields_modifyGet fun offset rest => ?_)
  simp only [Decoder.placed, afterNode, LastIds.nodeAt_nodeDelta]

theorem yields_edge {decoder : Decoder} {width : Width} {id : EdgeId}
    (hHolds : width.HoldsSigned (decoder.last.edgeDelta id)) :
    Yields (edge width) decoder (width.signed (decoder.last.edgeDelta id)) id
      (afterEdge decoder id) := by
  rw [← List.append_nil (width.signed _)]
  refine (yields_signed hHolds).bind (yields_modifyGet fun offset rest => ?_)
  simp only [Decoder.placed, afterEdge, LastIds.edgeAt_edgeDelta]

/-- A list of items in one width leads from the last item to its own last. -/
theorem yieldsEach_items (decoder : Decoder) {width : Width} {items : List ItemId}
    (hHolds : ∀ delta ∈ decoder.last.itemDeltas items, width.HoldsSigned delta) :
    YieldsEach (item width) decoder ((decoder.last.itemDeltas items).flatMap width.signed) items
      (afterItem decoder (items.getLastD decoder.last.item)) := by
  induction items generalizing decoder with
  | nil => exact .nil decoder
  | cons id items ih =>
      rw [LastIds.itemDeltas_cons] at hHolds ⊢
      have hFirst := yields_item (hHolds _ List.mem_cons_self)
      have hRest := ih (afterItem decoder id)
        fun delta hDelta => hHolds delta (List.mem_cons_of_mem _ hDelta)
      rw [List.getLastD_cons]
      exact .cons hFirst hRest

end Reading
end Wire
end CycleTrace
