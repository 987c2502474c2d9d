/-
Positions and slots.

The slot of a position is a number written with the sizes of the dimensions as
its bases. No step on the way to it overflows a word, because the layout has
fewer than `2 ^ 64` slots, so the position can be read back and different
positions have different slots.
-/

import CycleTrace.Structure.Layout
import Mathlib.Data.List.Forall2

namespace CycleTrace
namespace Structure

namespace Layout

/-- A position has one coordinate for each dimension, and it is below the size. -/
def Contains (layout : Layout) (position : List UInt32) : Prop :=
  List.Forall₂ (· < ·) position layout.dimensions

instance (layout : Layout) (position : List UInt32) : Decidable (layout.Contains position) :=
  inferInstanceAs (Decidable (List.Forall₂ _ _ _))

/-- Layouts whose slots have 64-bit numbers. -/
def Roomy (layout : Layout) : Prop :=
  slotCount layout.dimensions < UInt64.size

theorem slotCount_cons (size : UInt32) (dimensions : List UInt32) :
    slotCount (size :: dimensions) = size.toNat * slotCount dimensions := by
  have hScaled (start : Nat) (sizes : List UInt32) :
      sizes.foldl (fun count size => count * size.toNat) start
        = start * slotCount sizes := by
    induction sizes generalizing start with
    | nil => exact (Nat.mul_one start).symm
    | cons first rest ih =>
        unfold slotCount
        rw [List.foldl_cons, List.foldl_cons, ih, ih, Nat.one_mul, Nat.mul_assoc]
  unfold slotCount
  rw [List.foldl_cons, hScaled, Nat.one_mul]
  rfl

theorem slotCount_pos {position dimensions : List UInt32}
    (hBelow : List.Forall₂ (· < ·) position dimensions) : 0 < slotCount dimensions := by
  induction hBelow with
  | nil => exact Nat.one_pos
  | @cons coordinate size position dimensions hFirst _ ih =>
      have hSize : coordinate.toNat < size.toNat := hFirst
      rw [slotCount_cons]
      exact Nat.mul_pos (Nat.zero_lt_of_lt hSize) ih

theorem ofDimensions_eq_ok {node : NodeId} {dimensions : List UInt32} {layout : Layout}
    (hLayout : ofDimensions node dimensions = .ok layout) :
    layout = { dimensions, capacity := UInt64.ofNat (slotCount dimensions) } ∧
    dimensions.length ≤ Limits.dimensions ∧ dimensions ≠ [] ∧ 0 ∉ dimensions ∧
    slotCount dimensions < UInt64.size := by
  unfold ofDimensions at hLayout
  split at hLayout
  · cases hLayout
  · next hFew =>
      split at hLayout
      · cases hLayout
      · next hSizes =>
          rw [Bool.or_eq_true, not_or, List.isEmpty_iff, List.contains_iff_mem] at hSizes
          split at hLayout
          · cases hLayout
          · next hFits =>
              cases hLayout
              exact ⟨rfl, Nat.le_of_not_gt hFew, hSizes.1, hSizes.2, Nat.lt_of_not_le hFits⟩

theorem roomy_ofDimensions {node : NodeId} {dimensions : List UInt32} {layout : Layout}
    (hLayout : ofDimensions node dimensions = .ok layout) : layout.Roomy := by
  obtain ⟨rfl, _, _, _, hFits⟩ := ofDimensions_eq_ok hLayout
  exact hFits

theorem checkCoordinates_ok {node : NodeId} {dimension : Nat} {position dimensions : List UInt32}
    (hLength : position.length = dimensions.length)
    (hChecked : checkCoordinates node dimension position dimensions = .ok ()) :
    List.Forall₂ (· < ·) position dimensions := by
  induction position generalizing dimension dimensions with
  | nil =>
      cases dimensions with
      | nil => exact .nil
      | cons size dimensions => cases hLength
  | cons coordinate position ih =>
      cases dimensions with
      | nil => cases hLength
      | cons size dimensions =>
          unfold checkCoordinates at hChecked
          split at hChecked
          · cases hChecked
          · next hBelow =>
              exact .cons (UInt32.not_le.mp hBelow) (ih (Nat.succ.inj hLength) hChecked)

theorem contains_of_checkPosition {layout : Layout} {node : NodeId} {position : List UInt32}
    (hChecked : layout.checkPosition node position = .ok ()) : layout.Contains position := by
  unfold checkPosition at hChecked
  split at hChecked
  · cases hChecked
  · next hLength => exact checkCoordinates_ok (not_not.mp hLength) hChecked

/-! ### Reading a slot back -/

/-- The next coordinate, without overflow. -/
theorem toNat_advance {slot : UInt64} {coordinate size : UInt32} (hBelow : coordinate < size)
    (hRoom : (slot.toNat + 1) * size.toNat ≤ UInt64.size) :
    (slot * size.toUInt64 + coordinate.toUInt64).toNat
      = slot.toNat * size.toNat + coordinate.toNat := by
  have hCoordinate : coordinate.toNat < size.toNat := hBelow
  have hFits : slot.toNat * size.toNat + coordinate.toNat < 2 ^ 64 := by
    rw [Nat.add_one_mul] at hRoom
    change _ ≤ 2 ^ 64 at hRoom
    omega
  rw [UInt64.toNat_add, UInt64.toNat_mul, UInt32.toNat_toUInt64, UInt32.toNat_toUInt64,
    Nat.mod_add_mod, Nat.mod_eq_of_lt hFits]

theorem advance_div {slot : UInt64} {coordinate size : UInt32} (hBelow : coordinate < size)
    (hRoom : (slot.toNat + 1) * size.toNat ≤ UInt64.size) :
    (slot * size.toUInt64 + coordinate.toUInt64) / size.toUInt64 = slot := by
  have hCoordinate : coordinate.toNat < size.toNat := hBelow
  apply UInt64.toNat_inj.mp
  rw [UInt64.toNat_div, toNat_advance hBelow hRoom, UInt32.toNat_toUInt64, Nat.mul_comm,
    Nat.mul_add_div (Nat.zero_lt_of_lt hCoordinate), Nat.div_eq_of_lt hCoordinate, Nat.add_zero]

theorem advance_mod {slot : UInt64} {coordinate size : UInt32} (hBelow : coordinate < size)
    (hRoom : (slot.toNat + 1) * size.toNat ≤ UInt64.size) :
    ((slot * size.toUInt64 + coordinate.toUInt64) % size.toUInt64).toUInt32 = coordinate := by
  have hCoordinate : coordinate.toNat < size.toNat := hBelow
  apply UInt32.toNat_inj.mp
  rw [UInt64.toNat_toUInt32, UInt64.toNat_mod, toNat_advance hBelow hRoom,
    UInt32.toNat_toUInt64, Nat.mul_comm, Nat.mul_add_mod, Nat.mod_eq_of_lt hCoordinate]
  exact Nat.mod_eq_of_lt coordinate.toNat_lt

/-- Room for all coordinates is room for the next one, and leaves room for those
after it. -/
theorem room_advance {slot : UInt64} {coordinate size : UInt32} {position dimensions : List UInt32}
    (hFirst : coordinate < size) (hRest : List.Forall₂ (· < ·) position dimensions)
    (hRoom : (slot.toNat + 1) * slotCount (size :: dimensions) ≤ UInt64.size) :
    (slot.toNat + 1) * size.toNat ≤ UInt64.size ∧
      ((slot * size.toUInt64 + coordinate.toUInt64).toNat + 1) * slotCount dimensions
        ≤ UInt64.size := by
  have hCoordinate : coordinate.toNat < size.toNat := hFirst
  rw [slotCount_cons, ← Nat.mul_assoc] at hRoom
  have hNow : (slot.toNat + 1) * size.toNat ≤ UInt64.size :=
    Nat.le_trans (Nat.le_mul_of_pos_right _ (slotCount_pos hRest)) hRoom
  refine ⟨hNow, Nat.le_trans (Nat.mul_le_mul_right _ ?_) hRoom⟩
  rw [toNat_advance hFirst hNow, Nat.add_one_mul]
  omega

theorem splitSlot_flatten {slot : UInt64} {position dimensions : List UInt32}
    (hBelow : List.Forall₂ (· < ·) position dimensions)
    (hRoom : (slot.toNat + 1) * slotCount dimensions ≤ UInt64.size) :
    splitSlot ((position.zip dimensions).foldl
      (fun slot pair => slot * pair.2.toUInt64 + pair.1.toUInt64) slot) dimensions
      = (slot, position) := by
  -- `slot` is what the earlier coordinates came to; `hRoom` leaves room for the later ones
  induction hBelow generalizing slot with
  | nil => rfl
  | @cons coordinate size position dimensions hFirst hRest ih =>
      obtain ⟨hNow, hLater⟩ := room_advance hFirst hRest hRoom
      rw [List.zip_cons_cons, List.foldl_cons, splitSlot, ih hLater]
      dsimp only
      rw [advance_div hFirst hNow, advance_mod hFirst hNow]

/-- What is read from a slot has a coordinate for each dimension. -/
theorem length_unflatten (layout : Layout) (slot : UInt64) :
    (layout.unflatten slot).length = layout.dimensions.length := by
  have hSplit (dimensions : List UInt32) :
      (splitSlot slot dimensions).2.length = dimensions.length := by
    induction dimensions with
    | nil => rfl
    | cons size dimensions ih => exact congrArg (· + 1) ih
  exact hSplit layout.dimensions

/-- A position is read back from its slot. -/
theorem unflatten_flatten {layout : Layout} (hRoomy : layout.Roomy) {position : List UInt32}
    (hContains : layout.Contains position) :
    layout.unflatten (layout.flatten position) = position := by
  have hRoom : ((0 : UInt64).toNat + 1) * slotCount layout.dimensions ≤ UInt64.size := by
    rw [UInt64.toNat_zero, Nat.zero_add, Nat.one_mul]
    exact Nat.le_of_lt hRoomy
  unfold unflatten flatten
  rw [splitSlot_flatten hContains hRoom]

theorem flatten_inj {layout : Layout} (hRoomy : layout.Roomy) {position other : List UInt32}
    (hContains : layout.Contains position) (hOther : layout.Contains other) :
    layout.flatten position = layout.flatten other ↔ position = other := by
  constructor
  · intro hSame
    rw [← unflatten_flatten hRoomy hContains, hSame, unflatten_flatten hRoomy hOther]
  · intro hSame
    rw [hSame]

/-! ### Slots below the capacity -/

theorem splitSlot_cons (slot : UInt64) (size : UInt32) (dimensions : List UInt32) :
    splitSlot slot (size :: dimensions)
      = ((splitSlot slot dimensions).1 / size.toUInt64,
          ((splitSlot slot dimensions).1 % size.toUInt64).toUInt32
            :: (splitSlot slot dimensions).2) :=
  rfl

/-- The last coordinate fits its 32 bits, as it is below a size. -/
theorem toNat_lastCoordinate (slot : UInt64) {size : UInt32} (hSize : size ≠ 0) :
    (slot % size.toUInt64).toUInt32.toNat = slot.toNat % size.toNat ∧
      slot.toNat % size.toNat < size.toNat := by
  have hPositive : 0 < size.toNat :=
    Nat.pos_of_ne_zero fun hZero => hSize (UInt32.toNat_inj.mp hZero)
  have hBelow := Nat.mod_lt slot.toNat hPositive
  refine ⟨?_, hBelow⟩
  rw [UInt64.toNat_toUInt32, UInt64.toNat_mod, UInt32.toNat_toUInt64]
  exact Nat.mod_eq_of_lt (Nat.lt_trans hBelow size.toNat_lt)

theorem advance_splitSlot (slot : UInt64) {size : UInt32} (hSize : size ≠ 0) :
    slot / size.toUInt64 * size.toUInt64 + (slot % size.toUInt64).toUInt32.toUInt64 = slot := by
  obtain ⟨hCoordinate, _⟩ := toNat_lastCoordinate slot hSize
  apply UInt64.toNat_inj.mp
  rw [UInt64.toNat_add, UInt64.toNat_mul, UInt64.toNat_div, UInt32.toNat_toUInt64,
    UInt32.toNat_toUInt64, hCoordinate, Nat.mod_add_mod, Nat.div_add_mod']
  exact Nat.mod_eq_of_lt slot.toNat_lt

theorem foldl_splitSlot (slot : UInt64) {dimensions : List UInt32}
    (hNonzero : ∀ size ∈ dimensions, size ≠ 0) :
    ((splitSlot slot dimensions).2.zip dimensions).foldl
      (fun slot pair => slot * pair.2.toUInt64 + pair.1.toUInt64) (splitSlot slot dimensions).1
      = slot := by
  induction dimensions with
  | nil => rfl
  | cons size dimensions ih =>
      rw [List.forall_mem_cons] at hNonzero
      rw [splitSlot_cons, List.zip_cons_cons, List.foldl_cons, advance_splitSlot _ hNonzero.1]
      exact ih hNonzero.2

theorem toNat_splitSlot (slot : UInt64) (dimensions : List UInt32) :
    (splitSlot slot dimensions).1.toNat = slot.toNat / slotCount dimensions := by
  induction dimensions with
  | nil => exact (Nat.div_one _).symm
  | cons size dimensions ih =>
      rw [splitSlot_cons, UInt64.toNat_div, ih, UInt32.toNat_toUInt64, slotCount_cons,
        Nat.div_div_eq_div_mul, Nat.mul_comm]

/-- A slot below the capacity is the slot of the position read back from it. -/
theorem flatten_unflatten {layout : Layout} (hNonzero : ∀ size ∈ layout.dimensions, size ≠ 0)
    {slot : UInt64} (hBelow : slot.toNat < slotCount layout.dimensions) :
    layout.flatten (layout.unflatten slot) = slot := by
  have hStart : (splitSlot slot layout.dimensions).1 = 0 := by
    apply UInt64.toNat_inj.mp
    rw [toNat_splitSlot, Nat.div_eq_of_lt hBelow]
    rfl
  have hFold := foldl_splitSlot slot hNonzero
  rw [hStart] at hFold
  exact hFold

theorem contains_unflatten {layout : Layout} (hNonzero : ∀ size ∈ layout.dimensions, size ≠ 0)
    (slot : UInt64) : layout.Contains (layout.unflatten slot) := by
  have hSplit {dimensions : List UInt32} (hSizes : ∀ size ∈ dimensions, size ≠ 0) :
      List.Forall₂ (· < ·) (splitSlot slot dimensions).2 dimensions := by
    induction dimensions with
    | nil => exact .nil
    | cons size dimensions ih =>
        rw [List.forall_mem_cons] at hSizes
        obtain ⟨hCoordinate, hLast⟩ :=
          toNat_lastCoordinate (splitSlot slot dimensions).1 hSizes.1
        rw [splitSlot_cons]
        refine .cons ?_ (ih hSizes.2)
        rw [UInt32.lt_iff_toNat_lt, hCoordinate]
        exact hLast
  exact hSplit hNonzero

end Layout
end Structure
end CycleTrace
