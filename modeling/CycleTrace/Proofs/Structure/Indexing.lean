/-
The order of slots.

`rank` numbers the positions of a layout without words. It counts them in
lexicographic order, the first coordinate first, and reaches each number below
the product of the sizes once. The words that stand for slots never part from
it, not even on the way: where the layout has fewer than `2 ^ 64` slots, no
product and no sum of them overflows.
-/

import CycleTrace.Proofs.Structure.Growth

namespace CycleTrace
namespace Structure

namespace Layout

/-! ### Positions without words -/

/-- The number of a position, where the coordinates before it came to `slot`. -/
def rank (slot : Nat) : (position dimensions : List UInt32) → Nat
  | coordinate :: position, size :: dimensions =>
      rank (slot * size.toNat + coordinate.toNat) position dimensions
  | _, _ => slot

theorem rank_cons (slot : Nat) (coordinate size : UInt32) (position dimensions : List UInt32) :
    rank slot (coordinate :: position) (size :: dimensions)
      = rank (slot * size.toNat + coordinate.toNat) position dimensions :=
  rfl

section Ranks

variable {position other dimensions : List UInt32}

theorem le_rank (hBelow : List.Forall₂ (· < ·) position dimensions) (slot : Nat) :
    slot * slotCount dimensions ≤ rank slot position dimensions := by
  induction hBelow generalizing slot with
  | nil => exact Nat.le_of_eq (Nat.mul_one slot)
  | @cons coordinate size position dimensions hFirst hRest ih =>
      rw [slotCount_cons, ← Nat.mul_assoc, rank_cons]
      calc slot * size.toNat * slotCount dimensions
          ≤ (slot * size.toNat + coordinate.toNat) * slotCount dimensions :=
            Nat.mul_le_mul_right _ (Nat.le_add_right _ _)
        _ ≤ _ := ih _

theorem rank_lt (hBelow : List.Forall₂ (· < ·) position dimensions) (slot : Nat) :
    rank slot position dimensions < (slot + 1) * slotCount dimensions := by
  induction hBelow generalizing slot with
  | nil =>
      change slot < (slot + 1) * 1
      omega
  | @cons coordinate size position dimensions hFirst hRest ih =>
      have hSize : coordinate.toNat < size.toNat := hFirst
      have hNext : slot * size.toNat + coordinate.toNat + 1 ≤ (slot + 1) * size.toNat := by
        rw [Nat.add_one_mul]
        omega
      rw [slotCount_cons, ← Nat.mul_assoc, rank_cons]
      calc rank (slot * size.toNat + coordinate.toNat) position dimensions
          < (slot * size.toNat + coordinate.toNat + 1) * slotCount dimensions := ih _
        _ ≤ (slot + 1) * size.toNat * slotCount dimensions := Nat.mul_le_mul_right _ hNext

/-- Where the coordinates before them differ, those after them do not matter. -/
theorem rank_lt_rank (hBelow : List.Forall₂ (· < ·) position dimensions)
    (hOther : List.Forall₂ (· < ·) other dimensions) {slot later : Nat} (hSlot : slot < later) :
    rank slot position dimensions < rank later other dimensions :=
  calc rank slot position dimensions
      < (slot + 1) * slotCount dimensions := rank_lt hBelow slot
    _ ≤ later * slotCount dimensions := Nat.mul_le_mul_right _ hSlot
    _ ≤ rank later other dimensions := le_rank hOther later

theorem rank_lt_rank_iff (hBelow : List.Forall₂ (· < ·) position dimensions)
    (hOther : List.Forall₂ (· < ·) other dimensions) (slot : Nat) :
    rank slot position dimensions < rank slot other dimensions ↔ position < other := by
  induction hBelow generalizing other slot with
  | nil =>
      cases hOther
      exact iff_of_false (Nat.lt_irrefl slot) (List.lt_irrefl [])
  | @cons coordinate size position dimensions hFirst hRest ih =>
      cases hOther with
      | @cons further _ others _ hFurther hOthers =>
          rw [rank_cons, rank_cons, List.cons_lt_cons_iff]
          rcases Nat.lt_trichotomy coordinate.toNat further.toNat with hLess | hSame | hMore
          · have hRank := rank_lt_rank hRest hOthers
              (Nat.add_lt_add_left hLess (slot * size.toNat))
            exact iff_of_true hRank (.inl hLess)
          · obtain rfl := UInt32.toNat_inj.mp hSame
            rw [ih hOthers]
            simp
          · have hRank := rank_lt_rank hOthers hRest
              (Nat.add_lt_add_left hMore (slot * size.toNat))
            refine iff_of_false (Nat.lt_asymm hRank) ?_
            rintro (hLess | ⟨rfl, _⟩)
            · exact Nat.lt_asymm hMore hLess
            · exact Nat.lt_irrefl _ hMore

end Ranks

/-! ### Positions in words -/

/-- From a slot on, no product and no sum on the way to the slot of a position
passes the largest word. -/
def NoOverflow (slot : UInt64) : (position dimensions : List UInt32) → Prop
  | coordinate :: position, size :: dimensions =>
      slot.toNat * size.toNat < UInt64.size ∧
        slot.toNat * size.toNat + coordinate.toNat < UInt64.size ∧
        NoOverflow (slot * size.toUInt64 + coordinate.toUInt64) position dimensions
  | _, _ => True

theorem noOverflow_of_room {slot : UInt64} {position dimensions : List UInt32}
    (hBelow : List.Forall₂ (· < ·) position dimensions)
    (hRoom : (slot.toNat + 1) * slotCount dimensions ≤ UInt64.size) :
    NoOverflow slot position dimensions := by
  induction hBelow generalizing slot with
  | nil => exact trivial
  | @cons coordinate size position dimensions hFirst hRest ih =>
      have hSize : coordinate.toNat < size.toNat := hFirst
      obtain ⟨hNow, hLater⟩ := room_advance hFirst hRest hRoom
      rw [Nat.add_one_mul] at hNow
      exact ⟨by omega, by omega, ih hLater⟩

theorem toNat_foldl {slot : UInt64} {position dimensions : List UInt32}
    (hBelow : List.Forall₂ (· < ·) position dimensions)
    (hRoom : (slot.toNat + 1) * slotCount dimensions ≤ UInt64.size) :
    ((position.zip dimensions).foldl
        (fun slot pair => slot * pair.2.toUInt64 + pair.1.toUInt64) slot).toNat
      = rank slot.toNat position dimensions := by
  induction hBelow generalizing slot with
  | nil => rfl
  | @cons coordinate size position dimensions hFirst hRest ih =>
      obtain ⟨hNow, hLater⟩ := room_advance hFirst hRest hRoom
      rw [List.zip_cons_cons, List.foldl_cons, ih hLater, rank_cons, toNat_advance hFirst hNow]

section Layouts

variable {layout : Layout} {position other : List UInt32}

/-- A layout has room for its coordinates from the start. -/
theorem Roomy.room (hRoomy : layout.Roomy) :
    ((0 : UInt64).toNat + 1) * slotCount layout.dimensions ≤ UInt64.size := by
  rw [UInt64.toNat_zero, Nat.zero_add, Nat.one_mul]
  exact Nat.le_of_lt hRoomy

theorem toNat_flatten (hRoomy : layout.Roomy) (hContains : layout.Contains position) :
    (layout.flatten position).toNat = rank 0 position layout.dimensions :=
  toNat_foldl hContains hRoomy.room

theorem toNat_flatten_lt (hRoomy : layout.Roomy) (hContains : layout.Contains position) :
    (layout.flatten position).toNat < slotCount layout.dimensions := by
  have hRank := rank_lt hContains 0
  rw [Nat.zero_add, Nat.one_mul] at hRank
  rw [toNat_flatten hRoomy hContains]
  exact hRank

theorem flatten_lt_flatten_iff (hRoomy : layout.Roomy) (hContains : layout.Contains position)
    (hOther : layout.Contains other) :
    layout.flatten position < layout.flatten other ↔ position < other := by
  rw [UInt64.lt_iff_toNat_lt, toNat_flatten hRoomy hContains, toNat_flatten hRoomy hOther,
    rank_lt_rank_iff hContains hOther]

end Layouts

/-! ### Checks -/

theorem checkCoordinates_of_below {position dimensions : List UInt32}
    (hBelow : List.Forall₂ (· < ·) position dimensions) (node : NodeId) (dimension : Nat) :
    checkCoordinates node dimension position dimensions = .ok () := by
  induction hBelow generalizing dimension with
  | nil => rfl
  | cons hFirst hRest ih =>
      rw [checkCoordinates, if_neg (UInt32.not_le.mpr hFirst)]
      exact ih (dimension + 1)

theorem checkPosition_eq_ok_iff {layout : Layout} {node : NodeId} {position : List UInt32} :
    layout.checkPosition node position = .ok () ↔ layout.Contains position := by
  constructor
  · exact contains_of_checkPosition
  · intro hContains
    rw [checkPosition, if_neg (not_not.mpr (List.Forall₂.length_eq hContains))]
    exact checkCoordinates_of_below hContains node 0

theorem Proper.roomy {layout : Layout} (hProper : layout.Proper) : layout.Roomy :=
  hProper.fits

/-- The layouts that sizes are accepted for are the proper ones. -/
theorem ofDimensions_eq_ok_iff {node : NodeId} {dimensions : List UInt32} {layout : Layout} :
    ofDimensions node dimensions = .ok layout
      ↔ layout.dimensions = dimensions ∧ layout.Proper := by
  constructor
  · intro hLayout
    have hProper := proper_ofDimensions hLayout
    obtain ⟨rfl, _⟩ := ofDimensions_eq_ok hLayout
    exact ⟨rfl, hProper⟩
  · rintro ⟨rfl, hProper⟩
    have hFew : ¬ layout.dimensions.length > Limits.dimensions := Nat.not_lt.mpr hProper.few
    have hSome : layout.dimensions.isEmpty = false := List.isEmpty_eq_false_iff.mpr hProper.some
    have hNonzero : layout.dimensions.contains 0 = false := by
      rw [Bool.eq_false_iff, ne_eq, List.contains_iff_mem]
      intro hZero
      exact hProper.nonzero 0 hZero rfl
    unfold ofDimensions
    rw [if_neg hFew, hSome, hNonzero, Bool.or_self, if_neg Bool.false_ne_true,
      if_neg (Nat.not_le.mpr hProper.fits), ← hProper.capacity, UInt64.ofNat_toNat]

/-- The slots of a layout are its positions in lexicographic order. Each position
has a slot below the capacity, found without overflow, from which it is read
back; each slot below the capacity is read as a position, whose slot it is. -/
theorem slots_ordered (node : NodeId) (dimensions : List UInt32) (layout : Layout) :
    (ofDimensions node dimensions = .ok layout
      ↔ layout.dimensions = dimensions ∧ layout.Proper) ∧
    (ofDimensions node dimensions = .ok layout → ∀ holder : NodeId,
      (∀ position, layout.checkPosition holder position = .ok () →
        NoOverflow 0 position dimensions ∧ layout.flatten position < layout.capacity ∧
          layout.unflatten (layout.flatten position) = position) ∧
      (∀ slot, slot < layout.capacity →
        layout.checkPosition holder (layout.unflatten slot) = .ok () ∧
          layout.flatten (layout.unflatten slot) = slot) ∧
      ∀ position other, layout.checkPosition holder position = .ok () →
        layout.checkPosition holder other = .ok () →
        (layout.flatten position < layout.flatten other ↔ position < other)) := by
  refine ⟨ofDimensions_eq_ok_iff, ?_⟩
  intro hLayout holder
  obtain ⟨rfl, hProper⟩ := ofDimensions_eq_ok_iff.mp hLayout
  have hRoomy := hProper.roomy
  refine ⟨?_, ?_, ?_⟩
  · intro position hChecked
    have hContains := contains_of_checkPosition hChecked
    refine ⟨noOverflow_of_room hContains hRoomy.room, ?_, unflatten_flatten hRoomy hContains⟩
    rw [UInt64.lt_iff_toNat_lt, hProper.capacity]
    exact toNat_flatten_lt hRoomy hContains
  · intro slot hSlot
    rw [UInt64.lt_iff_toNat_lt, hProper.capacity] at hSlot
    exact ⟨checkPosition_eq_ok_iff.mpr (contains_unflatten hProper.nonzero slot),
      flatten_unflatten hProper.nonzero hSlot⟩
  · intro position other hChecked hOther
    exact flatten_lt_flatten_iff hRoomy (contains_of_checkPosition hChecked)
      (contains_of_checkPosition hOther)

/-- Seven sizes whose product is the largest word, and the last position. -/
theorem slots_ordered_largest_word :
    let sizes : List UInt32 := [3, 5, 17, 257, 641, 65537, 6700417]
    let last : List UInt32 := [2, 4, 16, 256, 640, 65536, 6700416]
    let layout : Layout := { dimensions := sizes, capacity := 18446744073709551615 }
    ofDimensions 0 sizes = .ok layout ∧ layout.checkPosition 0 last = .ok () ∧
      NoOverflow 0 last sizes ∧ layout.unflatten (layout.flatten last) = last ∧
      layout.checkPosition 0 (layout.unflatten 18446744073709551614) = .ok () ∧
      layout.flatten [2, 4, 16, 256, 640, 65536, 6700415] < layout.flatten last := by
  intro sizes last layout
  have hLayout : ofDimensions 0 sizes = .ok layout := rfl
  have hLast : layout.checkPosition 0 last = .ok () := rfl
  obtain ⟨hPositions, hSlots, hOrder⟩ := (slots_ordered 0 sizes layout).2 hLayout 0
  obtain ⟨hExact, _, hBack⟩ := hPositions last hLast
  exact ⟨hLayout, hLast, hExact, hBack, (hSlots 18446744073709551614 (by decide)).1,
    (hOrder _ last rfl hLast).mpr (by decide)⟩

end Layout
end Structure
end CycleTrace
