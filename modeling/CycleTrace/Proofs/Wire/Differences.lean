/-
Identifiers named one after another.

A stream names items, nodes and edges in any order, each by its difference from
the last one of its kind. The difference may stand in any width that is wide
enough for it. Whoever reads along with the same last identifiers gets the same
identifiers back and goes on with the same last ones.

The width that is chosen for a number is the narrowest that holds it, and the
width of a list is the narrowest that holds all of it. For the items of a move
that width is found from all the differences at once, before any of them is laid
out, and it is the narrowest that is wide enough at every step.
-/

import CycleTrace.Proofs.Wire.Fields

namespace CycleTrace
namespace Wire

/-! ### Narrowest widths -/

namespace Width

/-- The widths that will do are those from the chosen one on. -/
def Narrowest (chosen : Width) (willDo : Width → Prop) : Prop :=
  ∀ width, willDo width ↔ chosen.bytes ≤ width.bytes

theorem bytes_one_le (width : Width) : one.bytes ≤ width.bytes := by
  cases width <;> decide

theorem bytes_max_le_iff {left right width : Width} :
    (left.max right).bytes ≤ width.bytes
      ↔ left.bytes ≤ width.bytes ∧ right.bytes ≤ width.bytes := by
  unfold max
  split <;> omega

theorem bytes_widest_le_iff {choose : α → Width} {start width : Width} {values : List α} :
    (widest choose start values).bytes ≤ width.bytes ↔
      start.bytes ≤ width.bytes ∧ ∀ value ∈ values, (choose value).bytes ≤ width.bytes := by
  induction values generalizing start with
  | nil => simp [widest]
  | cons head tail ih =>
      rw [List.forall_mem_cons, ← and_assoc, ← bytes_max_le_iff]
      exact ih

/-- A width holds the numbers whose chosen width is not wider. -/
theorem forUnsigned_narrowest {value : Nat} (hValue : value < 18446744073709551616) :
    (forUnsigned value).Narrowest (·.Holds value) := by
  intro width
  refine ⟨fun hHolds => ?_, (forUnsigned_holds hValue).widen⟩
  unfold forUnsigned
  split
  · exact bytes_one_le width
  · next hByte =>
      split
      · cases width with
        | one => exact absurd hHolds hByte
        | two | four | eight => decide
      · next hWord =>
          split
          · cases width with
            | one => exact absurd hHolds hByte
            | two => exact absurd hHolds hWord
            | four | eight => decide
          · next hLong =>
              cases width with
              | one => exact absurd hHolds hByte
              | two => exact absurd hHolds hWord
              | four => exact absurd hHolds hLong
              | eight => decide

theorem forSigned_narrowest {value : Int} (hLower : -2147483648 ≤ value)
    (hUpper : value < 2147483648) : (forSigned value).Narrowest (·.HoldsSigned value) := by
  intro width
  refine ⟨fun hHolds => ?_, (forSigned_holds hLower hUpper).widen⟩
  have hOne (hHeld : one.HoldsSigned value) : -128 ≤ value ∧ value < 128 := by
    have hRange : -(256 : Int) ≤ 2 * value ∧ 2 * value < 256 := hHeld
    omega
  have hTwo (hHeld : two.HoldsSigned value) : -32768 ≤ value ∧ value < 32768 := by
    have hRange : -(65536 : Int) ≤ 2 * value ∧ 2 * value < 65536 := hHeld
    omega
  unfold forSigned
  split
  · exact bytes_one_le width
  · next hByte =>
      split
      · cases width with
        | one => exact absurd (hOne hHolds) hByte
        | two | four | eight => decide
      · next hWord =>
          cases width with
          | one => exact absurd (hOne hHolds) hByte
          | two => exact absurd (hTwo hHolds) hWord
          | four | eight => decide

theorem bytes_forSigned_le_four (value : Int) : (forSigned value).bytes ≤ four.bytes := by
  unfold forSigned
  repeat' split
  all_goals decide

theorem covering_narrowest {values : List Nat}
    (hValues : ∀ value ∈ values, value < 18446744073709551616) :
    (covering values).Narrowest fun width => ∀ value ∈ values, width.Holds value := by
  intro width
  have hEach : (∀ value ∈ values, width.Holds value) ↔
      ∀ value ∈ values, (forUnsigned value).bytes ≤ width.bytes :=
    forall₂_congr fun value hValue => forUnsigned_narrowest (hValues value hValue) width
  exact hEach.trans (bytes_widest_le_iff.trans (and_iff_right (bytes_one_le width))).symm

end Width

/-- A width is wide enough for a list of differences if it is for each of them. -/
theorem bytes_deltaWidth_le_iff {deltas : List Int} {width : Width} :
    (deltaWidth deltas).bytes ≤ width.bytes ↔
      ∀ delta ∈ deltas, (Width.forSigned delta).bytes ≤ width.bytes :=
  Width.bytes_widest_le_iff.trans (and_iff_right (Width.bytes_one_le width))

/-! ### Naming -/

/-- What an identifier names. -/
inductive Named where
  | item
  | node
  | edge
deriving DecidableEq, Repr

/-- An item, a node or an edge, named by its identifier. -/
inductive Reference where
  | item (id : ItemId)
  | node (id : NodeId)
  | edge (id : EdgeId)
deriving DecidableEq, Repr

/-- What a reference names. -/
def Reference.named : Reference → Named
  | .item _ => .item
  | .node _ => .node
  | .edge _ => .edge

namespace LastIds

/-- The difference that leads from the last identifier of its kind to a reference. -/
def delta (last : LastIds) : Reference → Int
  | .item id => last.itemDelta id
  | .node id => last.nodeDelta id
  | .edge id => last.edgeDelta id

/-- The last identifiers after a reference. -/
def naming (last : LastIds) : Reference → LastIds
  | .item item => { last with item }
  | .node node => { last with node }
  | .edge edge => { last with edge }

/-- The last identifiers after references in order. -/
def namingAll (last : LastIds) (references : List Reference) : LastIds :=
  references.foldl naming last

/-- References laid out one after another, each as its difference in a width of
its own. -/
def layOut (last : LastIds) : List (Reference × Width) → List UInt8
  | [] => []
  | (reference, width) :: more =>
      width.signed (last.delta reference) ++ (last.naming reference).layOut more

/-- Each difference has at least the width that would be chosen for it. -/
def WideEnough (last : LastIds) : List (Reference × Width) → Prop
  | [] => True
  | (reference, width) :: more =>
      (Width.forSigned (last.delta reference)).bytes ≤ width.bytes ∧
        (last.naming reference).WideEnough more

instance decidableWideEnough (last : LastIds) :
    (named : List (Reference × Width)) → Decidable (last.WideEnough named)
  | [] => inferInstanceAs (Decidable True)
  | (reference, width) :: more =>
      have := decidableWideEnough (last.naming reference) more
      inferInstanceAs (Decidable ((Width.forSigned (last.delta reference)).bytes ≤ width.bytes ∧ _))

/-- References, each with the width chosen for its difference. -/
def inChosenWidths (last : LastIds) : List Reference → List (Reference × Width)
  | [] => []
  | reference :: more =>
      (reference, .forSigned (last.delta reference))
        :: (last.naming reference).inChosenWidths more

end LastIds

/-- Items that are all named in the same width. -/
def itemsIn (width : Width) (items : List ItemId) : List (Reference × Width) :=
  items.map fun item => (.item item, width)

namespace Reading

/-- An identifier as a difference. -/
def reference (named : Named) (width : Width) : Reading Reference :=
  match named with
  | .item => .item <$> item width
  | .node => .node <$> node width
  | .edge => .edge <$> edge width

/-- Identifiers as differences, one after another. -/
def references : List (Named × Width) → Reading (List Reference)
  | [] => return []
  | (named, width) :: more => do
      let first ← reference named width
      let rest ← references more
      return first :: rest

end Reading

/-- What a reader has to know of references in widths. -/
def shapes (named : List (Reference × Width)) : List (Named × Width) :=
  named.map fun (reference, width) => (reference.named, width)

namespace LastIds

variable {last : LastIds}

/-! ### One reference -/

theorem delta_bounds (last : LastIds) (reference : Reference) :
    -2147483648 ≤ last.delta reference ∧ last.delta reference < 2147483648 := by
  cases reference with
  | item id => exact itemStep_bounds last.item id
  | node id =>
      have hLast := last.node.toNat_lt
      have hNext := id.toNat_lt
      unfold delta nodeDelta
      dsimp only
      omega
  | edge id =>
      have hLast := last.edge.toNat_lt
      have hNext := id.toNat_lt
      unfold delta edgeDelta
      dsimp only
      omega

theorem forSigned_delta_narrowest (last : LastIds) (reference : Reference) :
    (Width.forSigned (last.delta reference)).Narrowest (·.HoldsSigned (last.delta reference)) :=
  Width.forSigned_narrowest (last.delta_bounds reference).1 (last.delta_bounds reference).2

theorem yields_reference {decoder : Decoder} {reference : Reference} {width : Width}
    (hWide : (Width.forSigned (decoder.last.delta reference)).bytes ≤ width.bytes) :
    Reading.Yields (.reference reference.named width) decoder
      (width.signed (decoder.last.delta reference)) reference
      { decoder with last := decoder.last.naming reference } := by
  have hHolds := (forSigned_delta_narrowest decoder.last reference width).mpr hWide
  cases reference with
  | item id => exact (Reading.yields_item hHolds).map _
  | node id => exact (Reading.yields_node hHolds).map _
  | edge id => exact (Reading.yields_edge hHolds).map _

/-! ### References in order -/

theorem yields_references {decoder : Decoder} {named : List (Reference × Width)}
    (hWide : decoder.last.WideEnough named) :
    Reading.Yields (.references (shapes named)) decoder (decoder.last.layOut named)
      (named.map (·.1)) { decoder with last := decoder.last.namingAll (named.map (·.1)) } := by
  induction named generalizing decoder with
  | nil => exact Reading.yields_pure [] decoder
  | cons first more ih =>
      obtain ⟨reference, width⟩ := first
      have hFirst := yields_reference hWide.1
      have hMore := @ih { decoder with last := decoder.last.naming reference } hWide.2
      exact hFirst.bind hMore.bind_pure

theorem wideEnough_inChosenWidths (last : LastIds) (references : List Reference) :
    last.WideEnough (last.inChosenWidths references) := by
  induction references generalizing last with
  | nil => exact trivial
  | cons reference more ih => exact ⟨Nat.le_refl _, ih (last.naming reference)⟩

/-! ### Items in one width -/

/-- A width is wide enough at every step exactly if it is for all the differences
that are known beforehand. -/
theorem wideEnough_itemsIn_iff {width : Width} {items : List ItemId} :
    last.WideEnough (itemsIn width items) ↔
      (deltaWidth (last.itemDeltas items)).bytes ≤ width.bytes := by
  rw [bytes_deltaWidth_le_iff]
  induction items generalizing last with
  | nil => simp [itemsIn, WideEnough, itemDeltas]
  | cons item items ih =>
      rw [itemDeltas_cons, List.forall_mem_cons]
      exact and_congr_right fun _ => ih

theorem layOut_itemsIn (last : LastIds) (width : Width) (items : List ItemId) :
    last.layOut (itemsIn width items) = (last.itemDeltas items).flatMap width.signed := by
  induction items generalizing last with
  | nil => rfl
  | cons item items ih =>
      rw [itemDeltas_cons, List.flatMap_cons, ← ih]
      rfl

theorem namingAll_items (last : LastIds) (items : List ItemId) :
    last.namingAll (items.map .item) = { last with item := items.getLastD last.item } := by
  induction items generalizing last with
  | nil => rfl
  | cons item items ih =>
      rw [List.getLastD_cons]
      exact ih { last with item }

/-- A move names its edge and then its items, all of these in the width that was
found from their differences. -/
theorem move_eq (last : LastIds) (edge : EdgeId) (items : List ItemId)
    (positions : List UInt32) :
    let width := deltaWidth (last.itemDeltas items)
    let edgeWidth := Width.forSigned (last.delta (.edge edge))
    let coordinateWidth := positionWidth positions
    move last edge items positions =
      ([codeHeader .moveItems width, moveByte edgeWidth (!positions.isEmpty) coordinateWidth]
          ++ last.layOut [(.edge edge, edgeWidth)] ++ littleEndian 2 items.length
          ++ (last.naming (.edge edge)).layOut (itemsIn width items)
          ++ positionBytes coordinateWidth positions,
        last.namingAll (.edge edge :: items.map .item)) := by
  intro width edgeWidth coordinateWidth
  have hLast : last.namingAll (.edge edge :: items.map .item)
      = { last with edge, item := items.getLastD last.item } :=
    namingAll_items (last.naming (.edge edge)) items
  rw [layOut_itemsIn, hLast]
  unfold layOut
  rw [layOut, List.append_nil]
  rfl

end LastIds

/-! ### Numbers without sign -/

section Unsigned

variable {decoder : Decoder} {width : Width}

theorem forUnsigned_narrowest_word (value : UInt64) :
    (Width.forUnsigned value.toNat).Narrowest (·.Holds value.toNat) :=
  Width.forUnsigned_narrowest value.toNat_lt

theorem covering_narrowest_words (values : List UInt64) :
    (Width.covering (values.map (·.toNat))).Narrowest fun width =>
      ∀ value ∈ values, width.Holds value.toNat := by
  intro width
  have hSmall : ∀ number ∈ values.map (·.toNat), number < 18446744073709551616 :=
    List.forall_mem_map.mpr fun value _ => value.toNat_lt
  exact List.forall_mem_map.symm.trans (Width.covering_narrowest hSmall width)

theorem yields_unsigned_of_wide {value : UInt64}
    (hWide : (Width.forUnsigned value.toNat).bytes ≤ width.bytes) :
    Reading.Yields (.unsigned width) decoder (width.unsigned value.toNat) value.toNat decoder :=
  Reading.yields_unsigned ((forUnsigned_narrowest_word value width).mpr hWide)

theorem yields_manyUnsigned_of_wide {values : List UInt64}
    (hWide : (Width.covering (values.map (·.toNat))).bytes ≤ width.bytes) :
    Reading.Yields (.many values.length (.unsigned width)) decoder
      (values.flatMap fun value => width.unsigned value.toNat) (values.map (·.toNat)) decoder := by
  have hHolds := (covering_narrowest_words values width).mpr hWide
  have hEach : Reading.YieldsEach (.unsigned width) decoder
      (values.flatMap fun value => width.unsigned value.toNat) (values.map (·.toNat)) decoder :=
    Reading.yieldsEach_of_forall _ _ _ fun value hValue =>
      Reading.yields_unsigned (hHolds value hValue)
  exact hEach.many (List.length_map _)

end Unsigned

/-- References are read back as they were named, and both sides go on with the
same last identifiers, in whatever widths they were laid out, if only each is wide
enough: the width that is chosen for each difference, or one width for all the
items of a move. The widths that are chosen, for one number or for a list, are the
narrowest that hold it, and what they or wider ones hold is read back as well. -/
theorem references_read_back :
    (∀ (last : LastIds) (decoder : Decoder) (named : List (Reference × Width)),
      decoder.last = last → last.WideEnough named →
        Reading.Yields (.references (shapes named)) decoder (last.layOut named)
          (named.map (·.1)) { decoder with last := last.namingAll (named.map (·.1)) }) ∧
    (∀ (last : LastIds) (references : List Reference),
      last.WideEnough (last.inChosenWidths references)) ∧
    (∀ (last : LastIds) (edge : EdgeId) (items : List ItemId) (positions : List UInt32),
      let width := deltaWidth (last.itemDeltas items)
      let edgeWidth := Width.forSigned (last.delta (.edge edge))
      let coordinateWidth := positionWidth positions
      let afterEdge := last.naming (.edge edge)
      width.Narrowest (fun width => afterEdge.WideEnough (itemsIn width items)) ∧
      move last edge items positions =
        ([codeHeader .moveItems width, moveByte edgeWidth (!positions.isEmpty) coordinateWidth]
            ++ last.layOut [(.edge edge, edgeWidth)] ++ littleEndian 2 items.length
            ++ afterEdge.layOut (itemsIn width items)
            ++ positionBytes coordinateWidth positions,
          last.namingAll (.edge edge :: items.map .item))) ∧
    (∀ value : Int32, (Width.forSigned value.toInt).Narrowest (·.HoldsSigned value.toInt) ∧
      Width.four.HoldsSigned value.toInt) ∧
    (∀ value : UInt64, (Width.forUnsigned value.toNat).Narrowest (·.Holds value.toNat)) ∧
    (∀ values : List UInt64, (Width.covering (values.map (·.toNat))).Narrowest fun width =>
      ∀ value ∈ values, width.Holds value.toNat) ∧
    (∀ (decoder : Decoder) (value : UInt64) (width : Width),
      (Width.forUnsigned value.toNat).bytes ≤ width.bytes →
        Reading.Yields (.unsigned width) decoder (width.unsigned value.toNat) value.toNat
          decoder) ∧
    ∀ (decoder : Decoder) (values : List UInt64) (width : Width),
      (Width.covering (values.map (·.toNat))).bytes ≤ width.bytes →
        Reading.Yields (.many values.length (.unsigned width)) decoder
          (values.flatMap fun value => width.unsigned value.toNat) (values.map (·.toNat))
          decoder := by
  refine ⟨?_, LastIds.wideEnough_inChosenWidths, fun last edge items positions => ⟨?_, ?_⟩,
    fun value => ⟨?_, ?_⟩, forUnsigned_narrowest_word, covering_narrowest_words,
    fun _ _ _ => yields_unsigned_of_wide, fun _ _ _ => yields_manyUnsigned_of_wide⟩
  · rintro _ decoder named rfl hWide
    exact LastIds.yields_references hWide
  · -- the edge comes first, and the differences of the items do not depend on it
    intro width
    exact (last.naming (.edge edge)).wideEnough_itemsIn_iff
  · exact last.move_eq edge items positions
  · exact Width.forSigned_narrowest value.le_toInt value.toInt_lt
  · exact (Width.forSigned_holds value.le_toInt value.toInt_lt).widen
      (Width.bytes_forSigned_le_four value.toInt)

/-- Items that wrap in both directions, a node and an edge that step back as far
as they can, and widths that are wider than necessary. -/
theorem references_read_back_wrapping :
    let last : LastIds := ⟨4294967290, 65535, 300⟩
    let named : List (Reference × Width) := [(.item 3, .one), (.node 0, .four), (.edge 0, .two),
      (.item 2147483653, .four), (.item 5, .eight)]
    let decoder : Decoder := { rest := [], last }
    last.layOut named = [9, 1, 0, 255, 255, 212, 254, 2, 0, 0, 128,
      0, 0, 0, 128, 255, 255, 255, 255] ∧
    Reading.Yields (.references (shapes named)) decoder (last.layOut named)
      [.item 3, .node 0, .edge 0, .item 2147483653, .item 5] { decoder with last := ⟨5, 0, 0⟩ } ∧
    Reading.Yields (.unsigned .four) decoder [0, 1, 0, 0] 256 decoder ∧
    Reading.Yields (.many 2 (.unsigned .two)) decoder [255, 0, 44, 1] [255, 300] decoder := by
  intro last named decoder
  obtain ⟨hRead, _, _, _, _, _, hNumber, hNumbers⟩ := references_read_back
  refine ⟨by decide, ?_, ?_, ?_⟩
  · exact hRead last decoder named rfl (by decide)
  · exact hNumber decoder 256 .four (by decide)
  · exact hNumbers decoder [255, 300] .two (by decide)

end Wire
end CycleTrace
