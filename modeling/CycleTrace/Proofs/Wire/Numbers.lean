/-
Numbers read back from their bytes.

A number survives a word that is wide enough for it, with or without sign, and
the widths that the encoder chooses are wide enough: for one number, for all
the coordinates of a position, and for all the differences of a list of items.
A difference leads from the last identifier to the identifier it was taken
from, for items modulo `2 ^ 32`.

This file reads no stream; see the module on fields.
-/

import CycleTrace.Wire.Body

namespace CycleTrace
namespace Wire

/-! ### Words -/

theorem wordSize_pos (count : Nat) : 0 < wordSize count := by
  induction count with
  | zero => exact Nat.one_pos
  | succ count ih =>
      simp only [wordSize]
      omega

theorem ofLittleEndian_littleEndian (count value : Nat) :
    ofLittleEndian (littleEndian count value) = value % wordSize count := by
  induction count generalizing value with
  | zero => simp only [littleEndian, ofLittleEndian, wordSize, Nat.mod_one]
  | succ count ih =>
      have hLow : (UInt8.ofNat value).toNat = value % 256 := UInt8.toNat_ofNat'
      simp only [littleEndian, ofLittleEndian, wordSize, ih, hLow]
      rw [Nat.mod_mul]

theorem ofLittleEndian_littleEndian_of_lt {count value : Nat} (hFits : value < wordSize count) :
    ofLittleEndian (littleEndian count value) = value := by
  rw [ofLittleEndian_littleEndian, Nat.mod_eq_of_lt hFits]

theorem ofLittleEndian_lt (bytes : List UInt8) : ofLittleEndian bytes < wordSize bytes.length := by
  induction bytes with
  | nil => exact Nat.one_pos
  | cons byte rest ih =>
      have hByte := byte.toNat_lt
      simp only [ofLittleEndian, List.length_cons, wordSize]
      omega

theorem length_signedWord (count : Nat) (value : Int) :
    (signedWord count value).length = count :=
  length_littleEndian count _

/-- A signed word holds the numbers at most half its size away from zero. -/
theorem ofSignedWord_signedWord {count : Nat} {value : Int}
    (hLower : -(wordSize count : Int) ≤ 2 * value) (hUpper : 2 * value < wordSize count) :
    ofSignedWord (signedWord count value) = value := by
  have hPositive : (0 : Int) < wordSize count := Int.natCast_pos.mpr (wordSize_pos count)
  have hNonneg : 0 ≤ value % wordSize count := Int.emod_nonneg _ (by omega)
  have hBelow : value % wordSize count < wordSize count := Int.emod_lt_of_pos _ hPositive
  have hFits : (value % wordSize count).toNat < wordSize count := by omega
  unfold ofSignedWord
  rw [length_signedWord, signedWord, ofLittleEndian_littleEndian_of_lt hFits,
    Int.toNat_of_nonneg hNonneg, Int.emod_bmod]
  exact Int.bmod_eq_of_le_mul_two (by omega) (by omega)

/-! ### Widths -/

namespace Width

/-- A number without sign that a width can hold. -/
def Holds (width : Width) (value : Nat) : Prop :=
  value < wordSize width.bytes

/-- A number of either sign that a width can hold. -/
def HoldsSigned (width : Width) (value : Int) : Prop :=
  -(wordSize width.bytes : Int) ≤ 2 * value ∧ 2 * value < wordSize width.bytes

theorem length_unsigned (width : Width) (value : Nat) :
    (width.unsigned value).length = width.bytes :=
  length_littleEndian _ _

theorem length_signed (width : Width) (value : Int) :
    (width.signed value).length = width.bytes :=
  length_signedWord _ _

theorem ofLittleEndian_unsigned {width : Width} {value : Nat} (hHolds : width.Holds value) :
    ofLittleEndian (width.unsigned value) = value :=
  ofLittleEndian_littleEndian_of_lt hHolds

theorem ofSignedWord_signed {width : Width} {value : Int} (hHolds : width.HoldsSigned value) :
    ofSignedWord (width.signed value) = value :=
  ofSignedWord_signedWord hHolds.1 hHolds.2

theorem wordSize_le_of_bytes_le {narrow wide : Width} (hWider : narrow.bytes ≤ wide.bytes) :
    wordSize narrow.bytes ≤ wordSize wide.bytes := by
  cases narrow <;> cases wide <;> simp only [bytes] at hWider ⊢ <;> first | decide | omega

theorem Holds.widen {narrow wide : Width} {value : Nat} (hHolds : narrow.Holds value)
    (hWider : narrow.bytes ≤ wide.bytes) : wide.Holds value :=
  Nat.lt_of_lt_of_le hHolds (wordSize_le_of_bytes_le hWider)

theorem HoldsSigned.widen {narrow wide : Width} {value : Int} (hHolds : narrow.HoldsSigned value)
    (hWider : narrow.bytes ≤ wide.bytes) : wide.HoldsSigned value := by
  have hSize := wordSize_le_of_bytes_le hWider
  obtain ⟨hLower, hUpper⟩ := hHolds
  exact ⟨by omega, by omega⟩

theorem bytes_le_max_left (left right : Width) : left.bytes ≤ (left.max right).bytes := by
  unfold max
  split
  · omega
  · exact Nat.le_refl _

theorem bytes_le_max_right (left right : Width) : right.bytes ≤ (left.max right).bytes := by
  unfold max
  split
  · exact Nat.le_refl _
  · omega

theorem forUnsigned_holds {value : Nat} (hValue : value < 18446744073709551616) :
    (forUnsigned value).Holds value := by
  unfold forUnsigned
  split
  · change value < 256
    assumption
  · split
    · change value < 65536
      assumption
    · split
      · change value < 4294967296
        assumption
      · exact hValue

theorem forSigned_holds {value : Int} (hLower : -2147483648 ≤ value)
    (hUpper : value < 2147483648) : (forSigned value).HoldsSigned value := by
  unfold forSigned
  split
  · change -(256 : Int) ≤ 2 * value ∧ 2 * value < 256
    omega
  · split
    · change -(65536 : Int) ≤ 2 * value ∧ 2 * value < 65536
      omega
    · change -(4294967296 : Int) ≤ 2 * value ∧ 2 * value < 4294967296
      omega

/-- The widest of the widths chosen for the elements of a list. -/
def widest (choose : α → Width) (start : Width) (values : List α) : Width :=
  values.foldl (fun width value => width.max (choose value)) start

theorem bytes_le_widest (choose : α → Width) (start : Width) (values : List α) :
    start.bytes ≤ (widest choose start values).bytes := by
  induction values generalizing start with
  | nil => exact Nat.le_refl _
  | cons head tail ih =>
      exact Nat.le_trans (bytes_le_max_left start (choose head)) (ih (start.max (choose head)))

theorem bytes_choose_le_widest (choose : α → Width) (start : Width) (values : List α)
    (value : α) (hValue : value ∈ values) :
    (choose value).bytes ≤ (widest choose start values).bytes := by
  induction values generalizing start with
  | nil => cases hValue
  | cons head tail ih =>
      rcases List.mem_cons.mp hValue with hHead | hTail
      · subst hHead
        exact Nat.le_trans (bytes_le_max_right start (choose value))
          (bytes_le_widest choose (start.max (choose value)) tail)
      · exact ih (start.max (choose head)) hTail

theorem covering_holds {values : List Nat} (value : Nat) (hMember : value ∈ values)
    (hValue : value < 18446744073709551616) : (covering values).Holds value :=
  (forUnsigned_holds hValue).widen (bytes_choose_le_widest forUnsigned one values value hMember)

end Width

theorem positionWidth_holds (position : List UInt32) (coordinate : UInt32)
    (hMember : coordinate ∈ position) : (positionWidth position).Holds coordinate.toNat := by
  have hBound : coordinate.toNat < 4294967296 := coordinate.toNat_lt
  exact Width.covering_holds coordinate.toNat (List.mem_map_of_mem hMember) (by omega)

theorem setWidth_holds (values : List UInt64) (value : UInt64) (hMember : value ∈ values) :
    (setWidth values).Holds value.toNat :=
  Width.covering_holds value.toNat (List.mem_map_of_mem hMember) value.toNat_lt

theorem deltaWidth_holds {deltas : List Int} (delta : Int) (hMember : delta ∈ deltas)
    (hLower : -2147483648 ≤ delta) (hUpper : delta < 2147483648) :
    (deltaWidth deltas).HoldsSigned delta :=
  (Width.forSigned_holds hLower hUpper).widen
    (Width.bytes_choose_le_widest Width.forSigned .one deltas delta hMember)

/-! ### Differences -/

theorem itemStep_bounds (previous next : ItemId) :
    -2147483648 ≤ itemStep previous next ∧ itemStep previous next < 2147483648 := by
  unfold itemStep
  have hSize : UInt32.size = 4294967296 := rfl
  have hLower := Int.le_bmod (x := (next.toNat : Int) - previous.toNat) (m := UInt32.size)
    (by decide)
  have hUpper := Int.bmod_lt (x := (next.toNat : Int) - previous.toNat) (m := UInt32.size)
    (by decide)
  rw [hSize] at hLower hUpper ⊢
  omega

/-- A difference of items is exact modulo the number of items. -/
theorem ofInt_add_itemStep (previous next : ItemId) :
    UInt32.ofInt (previous.toNat + itemStep previous next) = next := by
  apply UInt32.toNat_inj.mp
  have hBelow : next.toNat < 4294967296 := next.toNat_lt
  obtain ⟨quotient, hQuotient⟩ :=
    Int.dvd_bmod_sub_self (x := (next.toNat : Int) - previous.toNat) (m := UInt32.size)
  have hSize : (UInt32.size : Int) = 4294967296 := rfl
  have hValue : (previous.toNat : Int) + itemStep previous next
      = next.toNat + 4294967296 * quotient := by
    unfold itemStep
    rw [hSize] at hQuotient
    omega
  rw [hValue, UInt32.ofInt, UInt32.toNat_ofNat']
  omega

/-- Differences of nodes and edges are exact as they are. -/
theorem ofInt_add_sub (previous next : UInt16) :
    UInt16.ofInt (previous.toNat + ((next.toNat : Int) - previous.toNat)) = next := by
  have hBelow : next.toNat < 65536 := next.toNat_lt
  have hValue : (previous.toNat : Int) + (next.toNat - previous.toNat) = next.toNat := by omega
  apply UInt16.toNat_inj.mp
  rw [hValue, UInt16.ofInt, UInt16.toNat_ofNat']
  omega

theorem forSigned_sub_holds (previous next : UInt16) :
    (Width.forSigned ((next.toNat : Int) - previous.toNat)).HoldsSigned
      (next.toNat - previous.toNat) := by
  have hPrevious : previous.toNat < 65536 := previous.toNat_lt
  have hNext : next.toNat < 65536 := next.toNat_lt
  apply Width.forSigned_holds
  · omega
  · omega

namespace LastIds

theorem itemAt_itemDelta (last : LastIds) (id : ItemId) : last.itemAt (last.itemDelta id) = id :=
  ofInt_add_itemStep last.item id

theorem nodeAt_nodeDelta (last : LastIds) (id : NodeId) : last.nodeAt (last.nodeDelta id) = id :=
  ofInt_add_sub last.node id

theorem edgeAt_edgeDelta (last : LastIds) (id : EdgeId) : last.edgeAt (last.edgeDelta id) = id :=
  ofInt_add_sub last.edge id

theorem itemDelta_held (last : LastIds) (id : ItemId) :
    (Width.forSigned (last.itemDelta id)).HoldsSigned (last.itemDelta id) :=
  Width.forSigned_holds (itemStep_bounds last.item id).1 (itemStep_bounds last.item id).2

theorem nodeDelta_held (last : LastIds) (id : NodeId) :
    (Width.forSigned (last.nodeDelta id)).HoldsSigned (last.nodeDelta id) :=
  forSigned_sub_holds last.node id

theorem edgeDelta_held (last : LastIds) (id : EdgeId) :
    (Width.forSigned (last.edgeDelta id)).HoldsSigned (last.edgeDelta id) :=
  forSigned_sub_holds last.edge id

theorem itemDeltas_cons (last : LastIds) (item : ItemId) (items : List ItemId) :
    last.itemDeltas (item :: items)
      = last.itemDelta item :: ({ last with item } : LastIds).itemDeltas items :=
  rfl

/-- One width is enough for every difference along a list of items. -/
theorem itemDeltas_held (last : LastIds) (items : List ItemId) (delta : Int)
    (hMember : delta ∈ last.itemDeltas items) :
    (deltaWidth (last.itemDeltas items)).HoldsSigned delta := by
  unfold itemDeltas at hMember ⊢
  obtain ⟨previous, next, hStep⟩ : ∃ previous next, itemStep previous next = delta := by
    obtain ⟨index, hIndex, hDelta⟩ := List.getElem_of_mem hMember
    rw [List.getElem_zipWith] at hDelta
    exact ⟨_, _, hDelta⟩
  have hBounds := itemStep_bounds previous next
  rw [hStep] at hBounds
  exact deltaWidth_holds delta hMember hBounds.1 hBounds.2

end LastIds
end Wire
end CycleTrace
