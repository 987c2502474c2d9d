/-
What a recency table holds.

In a keyed table the keys in use and the places belong to each other, one key
to a place; in an ordered table the places are moreover linked in the order of
their last uses. A use of a key takes one of three ways, and each of them keeps
the table ordered: the key has a place, or it gets a place nobody had, or it
takes over the place used longest ago. The key is then bound to its place, a
key that had this place before is forgotten, and every other key keeps its
binding.

The count of evictions is a count only: what a table answers does not depend
on it.
-/

import CycleTrace.Proofs.Wire.Links

namespace CycleTrace
namespace Wire
namespace RecencyTable

variable {α : Type} [BEq α] [Hashable α]

/-- A table whose keys and places belong to each other. -/
structure Keyed (table : RecencyTable α) : Prop where
  roomy : 0 < table.capacity
  fits : table.places.size ≤ table.capacity
  held : ∀ (key : α) (place : Nat),
    table.placeOf? key = some place ↔ table.keyAt? place = some key
  sized : table.size = table.places.size

/-- A keyed table whose places are linked in an order. -/
structure Ordered (table : RecencyTable α) (order : List Nat) : Prop where
  keyed : table.Keyed
  linked : table.Linked order
  every : ∀ place, place ∈ order ↔ place < table.places.size

/-- A table that is ordered by the last uses of its keys. -/
def Sound (table : RecencyTable α) : Prop :=
  ∃ order, table.Ordered order

variable {table next : RecencyTable α} {order reordered : List Nat} {key : α} {place : Nat}

theorem keyAt?_eq_some_lt (hKey : table.keyAt? place = some key) : place < table.places.size := by
  obtain ⟨held, hHeld, _⟩ := Option.map_eq_some_iff.mp hKey
  exact (Array.getElem?_eq_some_iff.mp hHeld).1

theorem Keyed.relinks (hKeyed : table.Keyed) (hRelinks : table.Relinks next) : next.Keyed where
  roomy := by
    rw [hRelinks.capacity]
    exact hKeyed.roomy
  fits := by
    rw [hRelinks.size, hRelinks.capacity]
    exact hKeyed.fits
  held := by
    intro key place
    rw [hRelinks.keyAt?, placeOf?, hRelinks.registered]
    exact hKeyed.held key place
  sized := by
    rw [hRelinks.size, size, hRelinks.registered]
    exact hKeyed.sized

theorem ordered_of_empty (hRoomy : 0 < table.capacity) (hRegistered : table.registered = {})
    (hPlaces : table.places = #[]) (hNewest : table.newest = none) (hOldest : table.oldest = none) :
    table.Ordered [] where
  keyed :=
    { roomy := hRoomy
      fits := by simp [hPlaces]
      held := by simp [placeOf?, keyAt?, hRegistered, hPlaces]
      sized := by simp [size, hRegistered, hPlaces] }
  linked := ⟨List.nodup_nil, trivial, hNewest, hOldest⟩
  every := by simp [hPlaces]

theorem ordered_ofCapacity (capacity : Nat) : (ofCapacity capacity : RecencyTable α).Ordered [] :=
  ordered_of_empty (Nat.lt_of_lt_of_le Nat.one_pos (Nat.le_max_right capacity 1)) rfl rfl rfl rfl

theorem sound_ofCapacity (capacity : Nat) : (ofCapacity capacity : RecencyTable α).Sound :=
  ⟨[], ordered_ofCapacity capacity⟩

theorem Ordered.clear (hOrdered : table.Ordered order) : table.clear.Ordered [] :=
  ordered_of_empty hOrdered.keyed.roomy rfl rfl rfl rfl

theorem Sound.clear (hSound : table.Sound) : table.clear.Sound := by
  obtain ⟨order, hOrdered⟩ := hSound
  exact ⟨[], hOrdered.clear⟩

theorem Sound.size_le (hSound : table.Sound) : table.size ≤ table.capacity := by
  obtain ⟨order, hOrdered⟩ := hSound
  rw [hOrdered.keyed.sized]
  exact hOrdered.keyed.fits

theorem Sound.place_lt (hSound : table.Sound) (key : α) (place : Nat)
    (hKey : table.placeOf? key = some place) : place < table.size := by
  obtain ⟨order, hOrdered⟩ := hSound
  rw [hOrdered.keyed.sized]
  exact keyAt?_eq_some_lt ((hOrdered.keyed.held key place).mp hKey)

theorem Ordered.length (hOrdered : table.Ordered order) : order.length = table.places.size := by
  have hSame : order.Perm (List.range table.places.size) := by
    rw [List.perm_ext_iff_of_nodup hOrdered.linked.nodup List.nodup_range]
    intro place
    rw [hOrdered.every, List.mem_range]
  rw [hSame.length_eq, List.length_range]

/-- A place of the order with what is used after it and before it. -/
theorem Ordered.split (hOrdered : table.Ordered order) (hPlace : place < table.places.size) :
    ∃ before after, order = before ++ place :: after :=
  List.append_of_mem ((hOrdered.every place).mpr hPlace)

/-- A full table has a place used longest ago. -/
theorem Ordered.exists_oldest (hOrdered : table.Ordered order)
    (hFull : table.places.size = table.capacity) :
    ∃ before oldest, order = before ++ [oldest] := by
  rcases List.eq_nil_or_concat' order with rfl | hSome
  · have hLength := hOrdered.length
    have hRoomy := hOrdered.keyed.roomy
    rw [List.length_nil] at hLength
    omega
  · exact hSome

/-! ### New keys -/

theorem keyAt?_push (table : RecencyTable α) (key : α) (other : Nat) :
    ({ table with places := table.places.push { key } } : RecencyTable α).keyAt? other
      = if table.places.size = other then some key else table.keyAt? other := by
  unfold keyAt?
  rw [Array.getElem?_push]
  by_cases hPlace : table.places.size = other
  · rw [if_pos hPlace.symm, if_pos hPlace]
    rfl
  · rw [if_neg (Ne.symm hPlace), if_neg hPlace]

theorem keyAt?_rekey (hPlace : place < table.places.size) (key : α) (other : Nat) :
    ({ table with places := table.places.modify place ({ · with key }) } :
        RecencyTable α).keyAt? other
      = if place = other then some key else table.keyAt? other := by
  rw [keyAt?_modify]
  split
  · rename_i hSame
    subst hSame
    rw [Array.getElem?_eq_getElem hPlace]
    rfl
  · rfl

/-- Where one place goes to a new key, in the keys and in the places alike, the
keys and the places still belong to each other. -/
theorem Keyed.rebind (hKeyed : table.Keyed) (hNew : table.placeOf? key = none)
    (hKeyAt : ∀ other, next.keyAt? other = if place = other then some key else table.keyAt? other)
    (hKey : next.placeOf? key = some place)
    (hOther : ∀ other otherPlace, key ≠ other → (next.placeOf? other = some otherPlace ↔
      table.placeOf? other = some otherPlace ∧ place ≠ otherPlace))
    (other : α) (otherPlace : Nat) :
    next.placeOf? other = some otherPlace ↔ next.keyAt? otherPlace = some other := by
  have hHeld := hKeyed.held other otherPlace
  rw [hKeyAt]
  by_cases hSame : key = other
  · subst hSame
    rw [hNew] at hHeld
    rw [hKey]
    by_cases hPlace : place = otherPlace
    · simp [hPlace]
    · simpa [hPlace] using hHeld
  · rw [hOther other otherPlace hSame, hHeld]
    by_cases hPlace : place = otherPlace
    · simp [hSame, hPlace]
    · simp [hPlace]

section Lawful

variable [LawfulBEq α] {evicted : α}

theorem not_mem_registered (hNew : table.placeOf? key = none) : key ∉ table.registered := by
  have hAbsent : table.registered[key]? = none := hNew
  rw [← Std.HashMap.isSome_getElem?_iff_mem, hAbsent]
  exact Bool.false_ne_true

/-- A key that takes a place nobody had. -/
theorem Keyed.add (hKeyed : table.Keyed) (hNew : table.placeOf? key = none)
    (hRoom : table.places.size < table.capacity) :
    Keyed { table with
      places := table.places.push { key }
      registered := table.registered.insert key table.places.size } where
  roomy := hKeyed.roomy
  fits := by
    rw [Array.size_push]
    exact hRoom
  held := by
    refine hKeyed.rebind hNew (keyAt?_push table key) ?_ fun other taken hOther => ?_
    · exact Std.HashMap.getElem?_insert_self
    · rw [placeOf?, Std.HashMap.getElem?_insert, if_neg (by simpa using hOther)]
      refine ⟨fun hTaken => ⟨hTaken, ?_⟩, And.left⟩
      exact Nat.ne_of_gt (keyAt?_eq_some_lt ((hKeyed.held other taken).mp hTaken))
  sized := by
    rw [size, Std.HashMap.size_insert, if_neg (not_mem_registered hNew), Array.size_push]
    exact congrArg (· + 1) hKeyed.sized

/-- A key that takes over the place of another one. -/
theorem Keyed.replace (hKeyed : table.Keyed) (hNew : table.placeOf? key = none)
    (hEvicted : table.keyAt? place = some evicted) (evictions : Nat) :
    Keyed { table with
      places := table.places.modify place ({ · with key })
      registered := (table.registered.erase evicted).insert key place
      evictions } where
  roomy := hKeyed.roomy
  fits := by
    rw [Array.size_modify]
    exact hKeyed.fits
  held := by
    refine hKeyed.rebind hNew (keyAt?_rekey (keyAt?_eq_some_lt hEvicted) key) ?_
      fun other taken hOther => ?_
    · exact Std.HashMap.getElem?_insert_self
    · have hEvictedAt := hKeyed.held evicted taken
      have hOtherAt := hKeyed.held other taken
      rw [placeOf?, Std.HashMap.getElem?_insert, if_neg (by simpa using hOther),
        Std.HashMap.getElem?_erase]
      by_cases hGone : evicted = other
      · subst hGone
        rw [if_pos (beq_self_eq_true evicted), (hKeyed.held evicted place).mpr hEvicted]
        simp
      · rw [if_neg (by simpa using hGone)]
        refine ⟨fun hTaken => ⟨hTaken, ?_⟩, And.left⟩
        rintro rfl
        exact hGone (Option.some.inj (hEvicted.symm.trans (hOtherAt.mp hTaken)))
  sized := by
    have hHeld : table.registered[evicted]? = some place :=
      (hKeyed.held evicted place).mpr hEvicted
    have hMember : evicted ∈ table.registered := by
      rw [← Std.HashMap.isSome_getElem?_iff_mem, hHeld]
      rfl
    have hAbsent : key ∉ table.registered.erase evicted := by
      rw [Std.HashMap.mem_erase]
      exact fun hBoth => not_mem_registered hNew hBoth.2
    have hSome : 0 < table.places.size := Nat.zero_lt_of_lt (keyAt?_eq_some_lt hEvicted)
    have hSized : table.registered.size = table.places.size := hKeyed.sized
    rw [size, Std.HashMap.size_insert, if_neg hAbsent, Std.HashMap.size_erase, if_pos hMember,
      Array.size_modify]
    omega

end Lawful

/-! ### Uses -/

/-- Where the place for a use of a key comes from, and what the use makes of
the order and of the count of evictions. -/
inductive Source (table : RecencyTable α) (order : List Nat) (key : α) :
    Placement → List Nat → Nat → Prop
  | again {place : Nat} {before after : List Nat} (hKey : table.placeOf? key = some place)
      (hOrder : order = before ++ place :: after) :
      Source table order key ⟨place, false⟩ (place :: (before ++ after)) table.evictions
  | unused (hNew : table.placeOf? key = none) (hRoom : table.places.size < table.capacity) :
      Source table order key ⟨table.places.size, true⟩ (table.places.size :: order) table.evictions
  | evicting {place : Nat} {before : List Nat} (hNew : table.placeOf? key = none)
      (hFull : table.places.size = table.capacity) (hOrder : order = before ++ [place]) :
      Source table order key ⟨place, true⟩ (place :: before) (table.evictions + 1)

theorem Source.isNew {placed : Placement} {evictions : Nat}
    (hSource : table.Source order key placed reordered evictions) :
    table.placeOf? key = if placed.isNew then none else some placed.place := by
  cases hSource with
  | again hKey _ => exact hKey
  | unused hNew _ => exact hNew
  | evicting hNew _ _ => exact hNew

/-- What a use of a key answers and makes of an ordered table. -/
structure Uses (table : RecencyTable α) (order : List Nat) (key : α) (placed : Placement)
    (next : RecencyTable α) (reordered : List Nat) : Prop where
  source : table.Source order key placed reordered next.evictions
  ordered : next.Ordered reordered
  capacity : next.capacity = table.capacity
  keyAt? : ∀ place, next.keyAt? place
    = if placed.place = place then some key else table.keyAt? place

theorem overwrite?_of_unlink (hUnlink : table.unlink? place = some next)
    (hPlace : place < next.places.size) (key : α) :
    table.overwrite? place key = some { next with
      places := next.places.modify place ({ · with key })
      registered := next.registered.erase next.places[place].key
      evictions := next.evictions + 1 } := by
  unfold overwrite?
  rw [hUnlink]
  refine (Option.bind_some _ _).trans ?_
  rw [Array.getElem?_eq_getElem hPlace]
  refine (Option.bind_some _ _).trans ?_
  rw [modifyPlace?_of_lt hPlace]
  rfl

/-- Another use of a key brings its place to the front. -/
theorem Ordered.use_again (hOrdered : table.Ordered order)
    (hKey : table.placeOf? key = some place) :
    ∃ next reordered, table.use? key = some (⟨place, false⟩, next) ∧
      table.Uses order key ⟨place, false⟩ next reordered := by
  have hHeld := (hOrdered.keyed.held key place).mp hKey
  have hPlace := keyAt?_eq_some_lt hHeld
  obtain ⟨before, after, rfl⟩ := hOrdered.split hPlace
  obtain ⟨apart, hUnlink, hApart, hApartRelinks⟩ := unlink?_of_linked hOrdered.linked
  have hGone : place ∉ before ++ after :=
    (List.nodup_cons.mp (List.perm_middle.nodup_iff.mp hOrdered.linked.nodup)).1
  obtain ⟨next, hLink, hNext, hNextRelinks⟩ :=
    linkNewest?_of_linked hApart (hApartRelinks.size ▸ hPlace) hGone
  have hRelinks := hApartRelinks.trans hNextRelinks
  refine ⟨next, _, ?_, ?_, ⟨hOrdered.keyed.relinks hRelinks, hNext, ?_⟩, hRelinks.capacity, ?_⟩
  · have hRegistered : table.registered[key]? = some place := hKey
    unfold use?
    rw [hRegistered]
    dsimp only
    rw [hUnlink]
    refine (Option.bind_some _ _).trans ?_
    rw [hLink]
    rfl
  · rw [hRelinks.evictions]
    exact .again hKey rfl
  · intro other
    rw [hRelinks.size, ← hOrdered.every]
    exact List.perm_middle.symm.mem_iff
  · intro other
    rw [hRelinks.keyAt?]
    split
    · rename_i hSame
      exact hSame ▸ hHeld
    · rfl

section Lawful

variable [LawfulBEq α]

/-- A new key gets a place of its own while there is room. -/
theorem Ordered.use_unused (hOrdered : table.Ordered order)
    (hNew : table.placeOf? key = none) (hRoom : table.places.size < table.capacity) :
    ∃ next reordered, table.use? key = some (⟨table.places.size, true⟩, next) ∧
      table.Uses order key ⟨table.places.size, true⟩ next reordered := by
  let added : RecencyTable α := { table with
    places := table.places.push { key }
    registered := table.registered.insert key table.places.size }
  have hKeyed : added.Keyed := hOrdered.keyed.add hNew hRoom
  have hPlace : table.places.size < added.places.size := by
    rw [Array.size_push]
    exact Nat.lt_succ_self _
  have hOutside : table.places.size ∉ order := fun hMember =>
    Nat.lt_irrefl _ ((hOrdered.every _).mp hMember)
  have hLinked : added.Linked order :=
    { hOrdered.linked with
      chain := hOrdered.linked.chain.congr fun other hOther => by
        rw [Array.getElem?_push, if_neg (Nat.ne_of_lt ((hOrdered.every other).mp hOther))] }
  obtain ⟨next, hLink, hNext, hRelinks⟩ := linkNewest?_of_linked hLinked hPlace hOutside
  refine ⟨next, _, ?_, ?_, ⟨hKeyed.relinks hRelinks, hNext, ?_⟩, hRelinks.capacity, ?_⟩
  · have hRegistered : table.registered[key]? = none := hNew
    have hMade : table.makePlace? key = some (table.addPlace key) := by
      unfold makePlace?
      cases table.oldest with
      | none => rfl
      | some oldest => exact if_pos hRoom
    unfold use?
    rw [hRegistered]
    dsimp only
    rw [hMade]
    refine (Option.bind_some _ _).trans ?_
    exact (congrArg (· >>= _) hLink).trans rfl
  · rw [hRelinks.evictions]
    exact .unused hNew hRoom
  · intro other
    rw [hRelinks.size, Array.size_push, List.mem_cons, hOrdered.every, Nat.lt_succ_iff_lt_or_eq,
      or_comm]
  · intro other
    rw [hRelinks.keyAt?]
    exact keyAt?_push table key other

/-- In a full table a new key takes over the place used longest ago. -/
theorem Ordered.use_evicting (hOrdered : table.Ordered order)
    (hNew : table.placeOf? key = none) (hFull : table.places.size = table.capacity) :
    ∃ placed next reordered, table.use? key = some (placed, next) ∧
      table.Uses order key placed next reordered := by
  obtain ⟨before, place, rfl⟩ := hOrdered.exists_oldest hFull
  have hPlace : place < table.places.size := (hOrdered.every place).mp (by simp)
  obtain ⟨apart, hUnlink, hApart, hApartRelinks⟩ := unlink?_of_linked hOrdered.linked
  have hKeyedApart := hOrdered.keyed.relinks hApartRelinks
  have hPlaceApart : place < apart.places.size := hApartRelinks.size ▸ hPlace
  have hNewApart : apart.placeOf? key = none := by
    rw [placeOf?, hApartRelinks.registered]
    exact hNew
  let given : RecencyTable α := { apart with
    places := apart.places.modify place ({ · with key })
    registered := (apart.registered.erase apart.places[place].key).insert key place
    evictions := apart.evictions + 1 }
  have hKeyed : given.Keyed := hKeyedApart.replace hNewApart
    (by rw [keyAt?, Array.getElem?_eq_getElem hPlaceApart]; rfl) (apart.evictions + 1)
  have hOutside : place ∉ before ++ [] :=
    (List.nodup_cons.mp (List.perm_middle.nodup_iff.mp hOrdered.linked.nodup)).1
  rw [List.append_nil] at hApart hOutside
  have hLinked : given.Linked before :=
    { hApart with chain := hApart.chain.modify_other hOutside ({ · with key }) }
  obtain ⟨next, hLink, hNext, hRelinks⟩ :=
    linkNewest?_of_linked hLinked (by rw [Array.size_modify]; exact hPlaceApart) hOutside
  have hKeyAt : ∀ other, next.keyAt? other
      = if place = other then some key else table.keyAt? other := by
    intro other
    rw [hRelinks.keyAt?, ← hApartRelinks.keyAt?]
    exact keyAt?_rekey hPlaceApart key other
  refine ⟨⟨place, true⟩, next, _, ?_, ?_, ⟨hKeyed.relinks hRelinks, hNext, ?_⟩,
    hRelinks.capacity.trans hApartRelinks.capacity, hKeyAt⟩
  · have hRegistered : table.registered[key]? = none := hNew
    have hMade : table.makePlace? key = (table.overwrite? place key).map (place, ·) := by
      unfold makePlace?
      rw [hOrdered.linked.oldest, List.getLast?_concat]
      exact if_neg (Nat.not_lt.mpr (Nat.le_of_eq hFull.symm))
    unfold use?
    rw [hRegistered]
    dsimp only
    rw [hMade, overwrite?_of_unlink hUnlink hPlaceApart]
    exact (congrArg (· >>= _) hLink).trans rfl
  · have hEvictions : next.evictions = table.evictions + 1 :=
      hRelinks.evictions.trans (congrArg (· + 1) hApartRelinks.evictions)
    rw [hEvictions]
    exact .evicting hNew hFull rfl
  · intro other
    rw [hRelinks.size, Array.size_modify, hApartRelinks.size, ← hOrdered.every]
    exact (List.perm_append_singleton place before).symm.mem_iff

/-- A use of a key never runs into a place that does not exist. -/
theorem Ordered.use? (hOrdered : table.Ordered order) (key : α) :
    ∃ placed next reordered, table.use? key = some (placed, next) ∧
      table.Uses order key placed next reordered := by
  cases hKey : table.placeOf? key with
  | some place => exact ⟨_, hOrdered.use_again hKey⟩
  | none =>
      rcases Nat.lt_or_eq_of_le hOrdered.keyed.fits with hRoom | hFull
      · exact ⟨_, hOrdered.use_unused hKey hRoom⟩
      · exact hOrdered.use_evicting hKey hFull

theorem Ordered.use (hOrdered : table.Ordered order) (key : α) :
    ∃ reordered, table.Uses order key (table.use key).1 (table.use key).2 reordered := by
  obtain ⟨placed, next, reordered, hUse, hUses⟩ := hOrdered.use? key
  have hBoth : table.use key = (placed, next) := by
    rw [RecencyTable.use, hUse]
  exact ⟨reordered, by rw [hBoth]; exact hUses⟩

theorem Sound.use (hSound : table.Sound) (key : α) : (table.use key).2.Sound := by
  obtain ⟨order, hOrdered⟩ := hSound
  obtain ⟨reordered, hUses⟩ := hOrdered.use key
  exact ⟨reordered, hUses.ordered⟩

theorem capacity_use (hSound : table.Sound) (key : α) :
    (table.use key).2.capacity = table.capacity := by
  obtain ⟨order, hOrdered⟩ := hSound
  exact (hOrdered.use key).choose_spec.capacity

/-- Using a key binds it to a place and forgets who had this place before. Every
other key keeps its binding. -/
theorem placeOf?_use (hSound : table.Sound) (key other : α) :
    (table.use key).2.placeOf? other
      = if key == other then some (table.use key).1.place
        else (table.placeOf? other).filter (· ≠ (table.use key).1.place) := by
  obtain ⟨order, hOrdered⟩ := hSound
  obtain ⟨reordered, hUses⟩ := hOrdered.use key
  generalize table.use key = placed at hUses ⊢
  have hKey : placed.2.placeOf? key = some placed.1.place := by
    rw [hUses.ordered.keyed.held, hUses.keyAt?, if_pos rfl]
  by_cases hSame : key = other
  · rw [if_pos (by simpa using hSame), ← hSame, hKey]
  · rw [if_neg (by simpa using hSame)]
    refine Option.ext fun place => ?_
    rw [hUses.ordered.keyed.held, hUses.keyAt?, Option.filter_eq_some_iff, hOrdered.keyed.held]
    by_cases hPlace : placed.1.place = place
    · simp [hPlace, hSame]
    · simp [hPlace, Ne.symm hPlace]

/-- A key is new exactly when it had no place. -/
theorem isNew_use (hSound : table.Sound) (key : α) :
    table.placeOf? key
      = if (table.use key).1.isNew then none else some (table.use key).1.place := by
  obtain ⟨order, hOrdered⟩ := hSound
  obtain ⟨reordered, hUses⟩ := hOrdered.use key
  exact hUses.source.isNew

/-- The place given to a key fits the table. -/
theorem place_use_lt (hSound : table.Sound) (key : α) :
    (table.use key).1.place < table.capacity := by
  have hAfter := hSound.use key
  have hLookup : (table.use key).2.placeOf? key = some (table.use key).1.place := by
    rw [placeOf?_use hSound, if_pos (beq_self_eq_true key)]
  have hBelow := hAfter.place_lt key _ hLookup
  have hFits := hAfter.size_le
  rw [capacity_use hSound] at hFits
  omega

end Lawful

theorem isNew_assign (table : RecencyTable α) (key : α) :
    (table.assign key).1.isNew = (table.use key).1.isNew :=
  rfl

/-- A byte keeps the same of an identifier as of its place. -/
theorem toUInt8_id_assign (table : RecencyTable α) (key : α) :
    (table.assign key).1.id.toUInt8 = UInt8.ofNat (table.use key).1.place :=
  UInt32.toUInt8_ofNat' _

/-- Two bytes keep the same of an identifier as of its place. -/
theorem toUInt16_id_assign (table : RecencyTable α) (key : α) :
    (table.assign key).1.id.toUInt16 = UInt16.ofNat (table.use key).1.place :=
  UInt32.toUInt16_ofNat' _

/-! ### Tables without their counts -/

/-- A table whose count of evictions starts again. -/
def uncounted (table : RecencyTable α) : RecencyTable α :=
  { table with evictions := 0 }

theorem modifyPlace?_uncounted (table : RecencyTable α) (place : Nat)
    (change : Place α → Place α) :
    table.uncounted.modifyPlace? place change
      = (table.modifyPlace? place change).map uncounted := by
  unfold modifyPlace?
  by_cases hPlace : place < table.places.size
  · rw [if_pos hPlace]
    exact if_pos hPlace
  · rw [if_neg hPlace]
    exact if_neg hPlace

theorem setOlder?_uncounted (table : RecencyTable α) (place? older : Option Nat) :
    table.uncounted.setOlder? place? older = (table.setOlder? place? older).map uncounted := by
  cases place? with
  | none => rfl
  | some place => exact table.modifyPlace?_uncounted place _

theorem setNewer?_uncounted (table : RecencyTable α) (place? newer : Option Nat) :
    table.uncounted.setNewer? place? newer = (table.setNewer? place? newer).map uncounted := by
  cases place? with
  | none => rfl
  | some place => exact table.modifyPlace?_uncounted place _

theorem unlink?_uncounted (table : RecencyTable α) (place : Nat) :
    table.uncounted.unlink? place = (table.unlink? place).map uncounted := by
  have hPlaces : table.uncounted.places = table.places := rfl
  unfold unlink?
  rw [hPlaces]
  simp only [setOlder?_uncounted, setNewer?_uncounted, modifyPlace?_uncounted, Option.bind_eq_bind,
    Option.map_bind, Option.bind_map, Function.comp_def]

theorem linkNewest?_uncounted (table : RecencyTable α) (place : Nat) :
    table.uncounted.linkNewest? place = (table.linkNewest? place).map uncounted := by
  have hPut (table : RecencyTable α) (next? : Option Nat) :
      table.uncounted.putBefore? place next? = (table.putBefore? place next?).map uncounted := by
    cases next? with
    | none => rfl
    | some next => exact table.modifyPlace?_uncounted next _
  have hNewest : table.uncounted.newest = table.newest := rfl
  unfold linkNewest?
  simp only [hNewest, modifyPlace?_uncounted, hPut, Option.bind_eq_bind, Option.map_bind,
    Option.bind_map, Function.comp_def]
  rfl

/-- A key that takes over a place is counted, from whatever the count was. -/
theorem overwrite?_uncounted (table : RecencyTable α) (place : Nat) (key : α) :
    (table.uncounted.overwrite? place key).map uncounted
      = (table.overwrite? place key).map uncounted := by
  have hPlaces (table : RecencyTable α) : table.uncounted.places = table.places := rfl
  unfold overwrite?
  simp only [unlink?_uncounted, modifyPlace?_uncounted, hPlaces, Option.bind_eq_bind,
    Option.map_bind, Option.bind_map, Function.comp_def]
  rfl

theorem makePlace?_uncounted (table : RecencyTable α) (key : α) :
    (table.uncounted.makePlace? key).map (Prod.map id uncounted)
      = (table.makePlace? key).map (Prod.map id uncounted) := by
  have hOldest : table.uncounted.oldest = table.oldest := rfl
  have hPlaces : table.uncounted.places = table.places := rfl
  have hCapacity : table.uncounted.capacity = table.capacity := rfl
  unfold makePlace?
  rw [hOldest, hPlaces, hCapacity]
  cases table.oldest with
  | none => rfl
  | some oldest =>
      dsimp only
      split
      · rfl
      · have hPairs (table? : Option (RecencyTable α)) :
            (table?.map (oldest, ·)).map (Prod.map id uncounted)
              = (table?.map uncounted).map (oldest, ·) := by
          cases table? <;> rfl
        rw [hPairs, hPairs, overwrite?_uncounted]

theorem use?_uncounted (table : RecencyTable α) (key : α) :
    (table.uncounted.use? key).map (Prod.map id uncounted)
      = (table.use? key).map (Prod.map id uncounted) := by
  have hRegistered : table.uncounted.registered = table.registered := rfl
  unfold use?
  rw [hRegistered]
  cases table.registered[key]? with
  | some place =>
      simp only [unlink?_uncounted, linkNewest?_uncounted, Option.bind_eq_bind, Option.map_bind,
        Option.bind_map, Function.comp_def]
      rfl
  | none =>
      have hMade := table.makePlace?_uncounted key
      dsimp only
      cases hPlace : table.makePlace? key with
      | none =>
          rw [hPlace] at hMade
          rw [Option.map_eq_none_iff.mp hMade]
      | some made =>
          obtain ⟨place, made⟩ := made
          rw [hPlace] at hMade
          obtain ⟨⟨otherPlace, other⟩, hOther, hBoth⟩ := Option.map_eq_some_iff.mp hMade
          obtain ⟨hSamePlace, hTables⟩ := Prod.mk.inj hBoth
          obtain rfl : otherPlace = place := hSamePlace
          let insert (table : RecencyTable α) : RecencyTable α :=
            { table with registered := table.registered.insert key otherPlace }
          have hLinked : ((insert other).linkNewest? otherPlace).map uncounted
              = ((insert made).linkNewest? otherPlace).map uncounted := by
            rw [← linkNewest?_uncounted, ← linkNewest?_uncounted]
            exact congrArg (fun table => (insert table).linkNewest? otherPlace) hTables
          have hAnswers (table? : Option (RecencyTable α)) :
              (table?.bind fun table => some ((⟨otherPlace, true⟩ : Placement), table)).map
                  (Prod.map id uncounted)
                = (table?.map uncounted).map (⟨otherPlace, true⟩, ·) := by
            cases table? <;> rfl
          rw [hOther]
          exact (hAnswers _).trans ((congrArg _ hLinked).trans (hAnswers _).symm)

theorem use_uncounted (table : RecencyTable α) (key : α) :
    (table.uncounted.use key).1 = (table.use key).1 ∧
    (table.uncounted.use key).2.uncounted = (table.use key).2.uncounted := by
  have hSame := table.use?_uncounted key
  unfold use
  cases hUse : table.use? key with
  | none =>
      rw [hUse] at hSame
      rw [Option.map_eq_none_iff.mp hSame]
      exact ⟨rfl, rfl⟩
  | some placed =>
      rw [hUse] at hSame
      obtain ⟨other, hOther, hBoth⟩ := Option.map_eq_some_iff.mp hSame
      rw [hOther]
      exact Prod.ext_iff.mp hBoth

/-- Tables that differ in their counts answer alike and differ in them only. -/
theorem use_eq_of_uncounted {other : RecencyTable α}
    (hSame : table.uncounted = other.uncounted) (key : α) :
    (table.use key).1 = (other.use key).1 ∧
    (table.use key).2.uncounted = (other.use key).2.uncounted := by
  obtain ⟨hAnswer, hTable⟩ := table.use_uncounted key
  obtain ⟨hOtherAnswer, hOther⟩ := other.use_uncounted key
  rw [hSame] at hAnswer hTable
  exact ⟨hAnswer.symm.trans hOtherAnswer, hTable.symm.trans hOther⟩

theorem assign_eq_of_uncounted {other : RecencyTable α}
    (hSame : table.uncounted = other.uncounted) (key : α) :
    (table.assign key).1 = (other.assign key).1 ∧
    (table.assign key).2.uncounted = (other.assign key).2.uncounted := by
  obtain ⟨hPlacement, hTable⟩ := use_eq_of_uncounted hSame key
  exact ⟨congrArg Placement.assignment hPlacement, hTable⟩

end RecencyTable
end Wire
end CycleTrace
