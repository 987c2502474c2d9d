/-
What a recency table owes to the uses of its keys.

The uses of keys, the latest of them in front, tell all that a table of a given
capacity knows after them. It remembers the distinct keys used last, as many as
it has room for. A key that it does not remember is new to it. As long as there
is room such a key gets the number of distinct keys so far, and after that the
identifier held by the remembered key whose last use is the longest ago. A key
holds the identifier that it got when it was new for the last time.
-/

import CycleTrace.Proofs.Wire.RecencyList

namespace CycleTrace
namespace Wire

section Uses

variable {α : Type} [BEq α]

/-- The keys that are remembered after uses, the key used last in front. -/
def remembered (capacity : Nat) (uses : List α) : List α :=
  uses.eraseDups.take capacity

/-- The identifier that a key holds after uses, the latest in front. -/
def heldId (capacity : Nat) : List α → α → Nat
  | [], _ => 0
  | used :: earlier, key =>
      if used == key && !(remembered capacity earlier).contains key then
        if earlier.eraseDups.length < capacity then earlier.eraseDups.length
        else (remembered capacity earlier).getLast?.elim 0 (heldId capacity earlier)
      else heldId capacity earlier key

/-- The identifier for a new key after uses: the number of distinct keys while
there is room, and then the one that the key used longest ago holds. -/
def newId (capacity : Nat) (uses : List α) : Nat :=
  if uses.eraseDups.length < capacity then uses.eraseDups.length
  else (remembered capacity uses).getLast?.elim 0 (heldId capacity uses)

/-- The identifier with which a key has to be defined when it is used after
other uses. A key that is remembered need not be defined. -/
def definedId? (capacity : Nat) (uses : List α) (key : α) : Option Nat :=
  if (remembered capacity uses).contains key then none else some (newId capacity uses)

variable [LawfulBEq α] {capacity : Nat} {uses : List α} {key other : α}

theorem heldId_of_remembered (hKnown : key ∈ remembered capacity uses) (used : α) :
    heldId capacity (used :: uses) key = heldId capacity uses key := by
  rw [heldId, List.contains_iff_mem.mpr hKnown, Bool.not_true, Bool.and_false,
    if_neg Bool.false_ne_true]

theorem heldId_of_new (hNew : key ∉ remembered capacity uses) :
    heldId capacity (key :: uses) key = newId capacity uses := by
  have hContains : (remembered capacity uses).contains key = false := by
    simpa using hNew
  rw [heldId, hContains, beq_self_eq_true, newId]
  rfl

/-! ### Distinct keys -/

theorem eraseDups_filter (keep : α → Bool) (keys : List α) :
    (keys.filter keep).eraseDups = keys.eraseDups.filter keep := by
  -- `eraseDups` goes on with a filtered list, so the tail alone would not do
  induction hLength : keys.length using Nat.strongRecOn generalizing keys with
  | ind length ih =>
      subst hLength
      cases keys with
      | nil => rfl
      | cons key keys =>
          have hRest := ih _ (Nat.lt_succ_of_le (List.length_filter_le (!· == key) keys))
            (keys.filter (!· == key)) rfl
          rw [List.filter_filter] at hRest
          rw [List.eraseDups_cons]
          by_cases hKeep : keep key = true
          · rw [List.filter_cons_of_pos hKeep, List.filter_cons_of_pos hKeep, List.eraseDups_cons,
              List.filter_filter, ← hRest]
            simp only [Bool.and_comm]
          · have hSame : keys.filter (fun other => keep other && !other == key)
                = keys.filter keep := by
              refine List.filter_congr fun other _ => ?_
              by_cases hOther : other = key
              · subst hOther
                simp [hKeep]
              · simp [hOther]
            rw [List.filter_cons_of_neg hKeep, List.filter_cons_of_neg hKeep, ← hRest, hSame]

theorem nodup_eraseDups (keys : List α) : keys.eraseDups.Nodup := by
  induction keys with
  | nil => exact List.nodup_nil
  | cons key keys ih =>
      rw [List.eraseDups_cons, eraseDups_filter]
      refine List.nodup_cons.mpr ⟨fun hAgain => ?_, ih.filter _⟩
      simpa using (List.mem_filter.mp hAgain).2

/-- A key that is used comes to the front of the distinct keys. -/
theorem eraseDups_cons_erase (key : α) (uses : List α) :
    (key :: uses).eraseDups = key :: uses.eraseDups.erase key := by
  rw [List.eraseDups_cons, eraseDups_filter, (nodup_eraseDups uses).erase_eq_filter]
  rfl

omit [LawfulBEq α] in
theorem length_remembered (capacity : Nat) (uses : List α) :
    (remembered capacity uses).length = min capacity uses.eraseDups.length :=
  List.length_take

omit [BEq α] [LawfulBEq α] in
/-- What is put in the place of the first keys of a list are the first keys then. -/
theorem take_replaced {front keys : List α}
    (hLength : front.length = (keys.take capacity).length) :
    (front ++ keys.drop capacity).take capacity = front := by
  rw [List.length_take] at hLength
  by_cases hFull : capacity ≤ keys.length
  · exact List.take_left' (by omega)
  · rw [List.drop_of_length_le (by omega), List.append_nil, List.take_of_length_le (by omega)]

theorem remembered_cons (capacity : Nat) (key : α) (uses : List α) :
    remembered capacity (key :: uses) = (key :: uses.eraseDups.erase key).take capacity := by
  rw [remembered, eraseDups_cons_erase]

omit [LawfulBEq α] in
/-- The distinct keys begin with those that are remembered. -/
theorem remembered_append_drop (capacity : Nat) (uses : List α) :
    remembered capacity uses ++ uses.eraseDups.drop capacity = uses.eraseDups :=
  List.take_append_drop capacity uses.eraseDups

/-- A remembered key that is used again comes to the front of the others. -/
theorem remembered_again {before after : List α}
    (hSplit : remembered capacity uses = before ++ key :: after) :
    remembered capacity (key :: uses) = key :: (before ++ after) := by
  have hKeys := remembered_append_drop capacity uses
  rw [hSplit, List.append_assoc, List.cons_append] at hKeys
  have hApart : key ∉ before := by
    intro hBefore
    have hDistinct := nodup_eraseDups uses
    rw [← hKeys] at hDistinct
    exact (List.nodup_append.mp hDistinct).2.2 key hBefore key List.mem_cons_self rfl
  have hErased := congrArg (List.erase · key) hKeys
  rw [List.erase_append_right _ hApart, List.erase_cons_head, ← List.append_assoc] at hErased
  rw [remembered_cons, ← hErased, ← List.cons_append]
  refine take_replaced ?_
  change _ = (remembered capacity uses).length
  rw [hSplit]
  simp only [List.length_cons, List.length_append]
  omega

/-- A new key comes in front while there is room. -/
theorem remembered_unused (hNew : key ∉ remembered capacity uses)
    (hRoom : (remembered capacity uses).length < capacity) :
    remembered capacity (key :: uses) = key :: remembered capacity uses := by
  rw [length_remembered] at hRoom
  have hShort : uses.eraseDups.length < capacity := by omega
  have hAll : remembered capacity uses = uses.eraseDups :=
    List.take_of_length_le (Nat.le_of_lt hShort)
  rw [hAll] at hNew ⊢
  rw [remembered_cons, List.erase_of_not_mem hNew]
  exact List.take_of_length_le hShort

/-- A new key takes the room of the one used longest ago. -/
theorem remembered_evicting {before : List α} (hNew : key ∉ remembered capacity uses)
    (hFull : (remembered capacity uses).length = capacity)
    (hOldest : remembered capacity uses = before ++ [other]) :
    remembered capacity (key :: uses) = key :: before := by
  have hKeys := remembered_append_drop capacity uses
  have hApart : key ∉ before := by
    rw [hOldest] at hNew
    exact fun hBefore => hNew (List.mem_append_left _ hBefore)
  rw [hOldest, List.append_assoc] at hKeys
  have hErased := congrArg (List.erase · key) hKeys
  rw [List.erase_append_right _ hApart] at hErased
  rw [remembered_cons, ← hErased, ← List.cons_append]
  refine List.take_left' ?_
  rw [← hFull, hOldest, List.length_append]
  rfl

/-! ### New identifiers -/

theorem definedId?_of_remembered (hKnown : key ∈ remembered capacity uses) :
    definedId? capacity uses key = none :=
  if_pos (List.contains_iff_mem.mpr hKnown)

theorem definedId?_of_new (hNew : key ∉ remembered capacity uses) :
    definedId? capacity uses key = some (heldId capacity (key :: uses) key) := by
  rw [heldId_of_new hNew, definedId?, if_neg (by simpa using hNew)]

omit [LawfulBEq α] in
theorem newId_unused (hRoom : (remembered capacity uses).length < capacity) :
    newId capacity uses = (remembered capacity uses).length := by
  rw [length_remembered] at hRoom ⊢
  rw [newId, if_pos (by omega)]
  omega

omit [LawfulBEq α] in
theorem newId_evicting {before : List α} (hFull : (remembered capacity uses).length = capacity)
    (hOldest : remembered capacity uses = before ++ [other]) :
    newId capacity uses = heldId capacity uses other := by
  rw [length_remembered] at hFull
  rw [newId, if_neg (by omega), hOldest, List.getLast?_concat]
  rfl

end Uses

/-! ### Tables -/

variable {α : Type} [BEq α]

/-- A list in the order of last use that knows what it should after some uses. -/
structure RecencyList.Remembers (list : RecencyList α) (uses : List α) : Prop where
  roomy : 0 < list.capacity
  keys : list.entries.map (·.1) = remembered list.capacity uses
  ids : ∀ entry ∈ list.entries, entry.2 = heldId list.capacity uses entry.1
  unused : list.unused = list.entries.length

theorem RecencyList.remembers_ofCapacity (capacity : Nat) :
    (ofCapacity capacity : RecencyList α).Remembers [] where
  roomy := Nat.lt_of_lt_of_le Nat.one_pos (Nat.le_max_right capacity 1)
  keys := List.take_nil.symm
  ids := fun _ hEntry => absurd hEntry List.not_mem_nil
  unused := rfl

variable [LawfulBEq α] {list : RecencyList α} {uses : List α}

namespace RecencyList

omit [LawfulBEq α] in
theorem Remembers.length_eq (hKnows : list.Remembers uses) :
    list.entries.length = (remembered list.capacity uses).length := by
  rw [← hKnows.keys, List.length_map]

omit [LawfulBEq α] in
theorem Remembers.mem (hKnows : list.Remembers uses) {entry : α × Nat}
    (hEntry : entry ∈ list.entries) : entry.1 ∈ remembered list.capacity uses := by
  rw [← hKnows.keys]
  exact List.mem_map_of_mem hEntry

theorem Remembers.not_mem (hKnows : list.Remembers uses) {key : α}
    (hNew : list.numberOf? key = none) : key ∉ remembered list.capacity uses := by
  rw [← hKnows.keys]
  intro hKey
  obtain ⟨entry, hEntry, rfl⟩ := List.mem_map.mp hKey
  simpa using List.lookup_eq_none_iff.mp hNew entry hEntry

/-- A list after the use of a key that stands in front now, before entries that
were in the list already. -/
theorem Remembers.cons (hKnows : list.Remembers uses) {key : α} {rest : List (α × Nat)}
    (hRest : ∀ entry ∈ rest, entry ∈ list.entries)
    (hKeys : key :: rest.map (·.1) = remembered list.capacity (key :: uses)) (evictions : Nat) :
    RecencyList.Remembers {
      capacity := list.capacity
      entries := (key, heldId list.capacity (key :: uses) key) :: rest
      unused := rest.length + 1
      evictions } (key :: uses) where
  roomy := hKnows.roomy
  keys := hKeys
  ids := by
    intro entry hEntry
    rcases List.mem_cons.mp hEntry with rfl | hOld
    · rfl
    · have hListed := hRest entry hOld
      rw [heldId_of_remembered (hKnows.mem hListed)]
      exact hKnows.ids entry hListed
  unused := rfl

theorem Remembers.use_again (hKnows : list.Remembers uses) {key : α} {id : Nat}
    (hKey : list.numberOf? key = some id) :
    (list.use key).1 = ⟨heldId list.capacity (key :: uses) key,
        (definedId? list.capacity uses key).isSome⟩ ∧
      (list.use key).2.Remembers (key :: uses) := by
  obtain ⟨before, after, hSplit, hApart⟩ := split_of_numberOf?_eq_some hKey
  have hEntry : (key, id) ∈ list.entries := by
    rw [hSplit]
    exact List.mem_append_right _ List.mem_cons_self
  have hKnown : key ∈ remembered list.capacity uses := hKnows.mem hEntry
  have hId : id = heldId list.capacity (key :: uses) key :=
    (hKnows.ids _ hEntry).trans (heldId_of_remembered hKnown key).symm
  have hLength : list.unused = (before ++ after).length + 1 := by
    rw [hKnows.unused, hSplit]
    simp only [List.length_append, List.length_cons]
    omega
  have hRest : ∀ entry ∈ before ++ after, entry ∈ list.entries := by
    intro entry hOld
    rw [hSplit]
    exact List.perm_middle.symm.subset (List.mem_cons_of_mem _ hOld)
  have hKeys := hKnows.keys
  rw [hSplit, List.map_append, List.map_cons] at hKeys
  have hFront : key :: (before ++ after).map (·.1) = remembered list.capacity (key :: uses) := by
    rw [remembered_again hKeys.symm, List.map_append]
  rw [RecencyList.use_again hKey hSplit hApart, definedId?_of_remembered hKnown, hId, hLength]
  exact ⟨rfl, hKnows.cons hRest hFront list.evictions⟩

theorem Remembers.use_unused (hKnows : list.Remembers uses) {key : α}
    (hKey : list.numberOf? key = none) (hRoom : list.entries.length < list.capacity) :
    (list.use key).1 = ⟨heldId list.capacity (key :: uses) key,
        (definedId? list.capacity uses key).isSome⟩ ∧
      (list.use key).2.Remembers (key :: uses) := by
  have hNew := hKnows.not_mem hKey
  have hShort := hKnows.length_eq ▸ hRoom
  have hId : list.unused = heldId list.capacity (key :: uses) key := by
    rw [heldId_of_new hNew, newId_unused hShort, hKnows.unused, hKnows.length_eq]
  have hFront : key :: list.entries.map (·.1) = remembered list.capacity (key :: uses) := by
    rw [remembered_unused hNew hShort, hKnows.keys]
  have hNext := hKnows.cons (fun _ hEntry => hEntry) hFront list.evictions
  rw [← hId, ← hKnows.unused] at hNext
  rw [RecencyList.use_unused hKey hRoom, addUnused, definedId?_of_new hNew, ← hId]
  exact ⟨rfl, hNext⟩

theorem Remembers.use_evicting (hKnows : list.Remembers uses) {key : α}
    (hKey : list.numberOf? key = none) (hFull : list.entries.length = list.capacity) :
    (list.use key).1 = ⟨heldId list.capacity (key :: uses) key,
        (definedId? list.capacity uses key).isSome⟩ ∧
      (list.use key).2.Remembers (key :: uses) := by
  have hNew := hKnows.not_mem hKey
  have hSome : list.entries ≠ [] := by
    intro hNone
    have hRoomy := hKnows.roomy
    rw [← hFull, hNone, List.length_nil] at hRoomy
    exact Nat.lt_irrefl 0 hRoomy
  obtain ⟨before, ⟨other, id⟩, hSplit⟩ :=
    (List.eq_nil_or_concat' list.entries).resolve_left hSome
  have hKeys := hKnows.keys
  rw [hSplit, List.map_append] at hKeys
  have hLong := hKnows.length_eq ▸ hFull
  have hRest : ∀ entry ∈ before, entry ∈ list.entries := by
    intro entry hOld
    rw [hSplit]
    exact List.mem_append_left _ hOld
  have hId : id = heldId list.capacity (key :: uses) key := by
    rw [heldId_of_new hNew, newId_evicting hLong hKeys.symm]
    exact hKnows.ids (other, id) (by simp [hSplit])
  have hLength : list.unused = before.length + 1 := by
    rw [hKnows.unused, hSplit, List.length_append]
    rfl
  have hFront := (remembered_evicting hNew hLong hKeys.symm).symm
  rw [RecencyList.use_evicting hKey hFull hSplit, definedId?_of_new hNew, hId, hLength]
  exact ⟨rfl, hKnows.cons hRest hFront (list.evictions + 1)⟩

theorem Remembers.use (hKnows : list.Remembers uses) (key : α) :
    (list.use key).1 = ⟨heldId list.capacity (key :: uses) key,
        (definedId? list.capacity uses key).isSome⟩ ∧
      (list.use key).2.Remembers (key :: uses) := by
  have hFits : list.entries.length ≤ list.capacity := by
    rw [hKnows.length_eq, length_remembered]
    exact Nat.min_le_left _ _
  cases hKey : list.numberOf? key with
  | some id => exact hKnows.use_again hKey
  | none =>
      rcases Nat.lt_or_eq_of_le hFits with hRoom | hFull
      · exact hKnows.use_unused hKey hRoom
      · exact hKnows.use_evicting hKey hFull

end RecencyList

namespace RecencyTable

variable [Hashable α]

/-- A table that knows what it should after some uses, the latest in front. -/
def Knows (table : RecencyTable α) (uses : List α) : Prop :=
  ∃ list, table.Lists list ∧ list.Remembers uses

omit [LawfulBEq α] in
theorem knows_ofCapacity (capacity : Nat) : (ofCapacity capacity : RecencyTable α).Knows [] :=
  ⟨_, lists_ofCapacity capacity, RecencyList.remembers_ofCapacity capacity⟩

/-- A key that is used gets the identifier that the uses say, below the capacity,
and is new when they say so. -/
theorem Knows.use {table : RecencyTable α} (hKnows : table.Knows uses) (key : α) :
    (table.use key).1.place = heldId table.capacity (key :: uses) key ∧
    (table.use key).1.place < table.capacity ∧
    definedId? table.capacity uses key
      = (if (table.use key).1.isNew then some (table.use key).1.place else none) ∧
    (table.use key).2.Knows (key :: uses) := by
  obtain ⟨list, hLists, hRemembers⟩ := hKnows
  obtain ⟨hAssigned, hNext⟩ := hLists.use key
  obtain ⟨hAnswer, hAfter⟩ := hRemembers.use key
  rw [hLists.capacity] at hAnswer
  have hBelow := place_use_lt ⟨_, hLists.ordered⟩ key
  rw [hAssigned, hAnswer] at hBelow ⊢
  refine ⟨rfl, hBelow, ?_, _, hNext, hAfter⟩
  by_cases hKnown : key ∈ remembered table.capacity uses
  · rw [definedId?_of_remembered hKnown]
    rfl
  · rw [definedId?_of_new hKnown]
    rfl

/-- Two keys fill a table. A third key takes over what the one of them that was
used longest ago holds, which is not the one that was defined first. -/
example : definedId? 2 ["north", "south", "north"] "east" = some 1 := by
  decide

/-- Where identifiers below the capacity are told apart by how they are written,
a definition is written down as the uses say. -/
theorem Knows.use_written {β : Type} {table : RecencyTable α} (hKnows : table.Knows uses)
    {write : Nat → β} {number : β → Nat}
    (hNumber : ∀ id, id < table.capacity → number (write id) = id) (key : α) :
    number (write (table.use key).1.place) = heldId table.capacity (key :: uses) key ∧
    (if (table.use key).1.isNew then some (write (table.use key).1.place, key) else none).map
        (fun (id, key) => (number id, key))
      = (definedId? table.capacity uses key).map (·, key) := by
  obtain ⟨hId, hBelow, hDefined, _⟩ := hKnows.use key
  have hWritten := hNumber _ hBelow
  refine ⟨hWritten.trans hId, ?_⟩
  rw [hDefined]
  cases (table.use key).1.isNew with
  | false => rfl
  | true => exact congrArg (fun id => some (id, key)) hWritten

end RecencyTable
end Wire
end CycleTrace
