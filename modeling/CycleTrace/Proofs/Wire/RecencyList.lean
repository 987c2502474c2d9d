/-
A recency table is a list in the order of last use.

The plain picture of a recency table is a list of keys with their numbers, the
key used last in front. A key that is used again moves to the front. A new key
is put in front, with the next number never used while there is room, and
otherwise with the number of the last key of the list, which drops out. What is
handed out for a number is its low 32 bits.

The table with its links serves every request as the list does, in any number
and order, and its order is that of the list. On the way no link leads to a
place that does not exist. The numbers of the keys in use are different, of a
table of any capacity; what is handed out for them is different as long as no
more than 2^32 keys are in use, which a capacity of up to 2^32 sees to.
-/

import CycleTrace.Proofs.Wire.Recency

namespace CycleTrace
namespace Wire

variable {α : Type} [BEq α]

/-- The keys in use with their numbers, most recently used first. -/
structure RecencyList (α : Type) where
  capacity : Nat
  entries : List (α × Nat) := []
  unused : Nat := 0
  evictions : Nat := 0

/-- What can be asked of a bounded table of keys. -/
inductive Request (α : Type) where
  | use (key : α)
  | look (key : α)
  | clear
deriving DecidableEq, Repr

/-- The answer to a request, with the number of keys and the count of evictions
after it. -/
structure Reply where
  assigned? : Option Assignment := none
  found? : Option UInt32 := none
  size : Nat
  evictions : Nat
deriving DecidableEq, Repr

namespace RecencyList

/-- An empty list with room for at least one key. -/
def ofCapacity (capacity : Nat) : RecencyList α :=
  { capacity := max capacity 1 }

/-- The number of a key. -/
def numberOf? (list : RecencyList α) (key : α) : Option Nat :=
  list.entries.lookup key

/-- The key goes to the front with the next number never used. -/
def addUnused (list : RecencyList α) (key : α) : Placement × RecencyList α :=
  (⟨list.unused, true⟩,
    { list with entries := (key, list.unused) :: list.entries, unused := list.unused + 1 })

/-- Uses a key. -/
def use (list : RecencyList α) (key : α) : Placement × RecencyList α :=
  match list.numberOf? key with
  | some number =>
      (⟨number, false⟩, { list with entries := (key, number) :: list.entries.eraseP (·.1 == key) })
  | none =>
      match list.entries.getLast? with
      | some (_, number) =>
          if list.entries.length < list.capacity then list.addUnused key
          else
            (⟨number, true⟩, { list with
              entries := (key, number) :: list.entries.dropLast
              evictions := list.evictions + 1 })
      | none => list.addUnused key

/-- Forgets every key; numbers start again, the count of evictions stays. -/
def clear (list : RecencyList α) : RecencyList α :=
  { capacity := list.capacity, evictions := list.evictions }

def reply (list : RecencyList α) (assigned? : Option Assignment) (found? : Option UInt32) :
    Reply :=
  { assigned?, found?, size := list.entries.length, evictions := list.evictions }

/-- Serves a request. -/
def serve (list : RecencyList α) : Request α → Reply × RecencyList α
  | .use key => ((list.use key).2.reply (list.use key).1.assignment none, (list.use key).2)
  | .look key => (list.reply none ((list.numberOf? key).map UInt32.ofNat), list)
  | .clear => (list.clear.reply none none, list.clear)

/-- Serves requests in order. -/
def serveAll (list : RecencyList α) : List (Request α) → List Reply × RecencyList α
  | [] => ([], list)
  | request :: requests =>
      ((list.serve request).1 :: ((list.serve request).2.serveAll requests).1,
        ((list.serve request).2.serveAll requests).2)

variable {list : RecencyList α} {key other : α} {number : Nat} {before after : List (α × Nat)}

theorem use_unused (hNew : list.numberOf? key = none)
    (hRoom : list.entries.length < list.capacity) : list.use key = list.addUnused key := by
  unfold use
  rw [hNew]
  cases list.entries.getLast? with
  | none => rfl
  | some entry => exact if_pos hRoom

theorem use_evicting (hNew : list.numberOf? key = none)
    (hFull : list.entries.length = list.capacity)
    (hOldest : list.entries = before ++ [(other, number)]) :
    list.use key = (⟨number, true⟩, { list with
      entries := (key, number) :: before
      evictions := list.evictions + 1 }) := by
  unfold use
  rw [hNew, hOldest, List.getLast?_concat, List.dropLast_concat, ← hOldest]
  exact if_neg (Nat.not_lt.mpr (Nat.le_of_eq hFull.symm))

theorem capacity_use (list : RecencyList α) (key : α) :
    (list.use key).2.capacity = list.capacity := by
  unfold use
  split
  · rfl
  · split
    · split <;> rfl
    · rfl

variable [LawfulBEq α]

/-- A key with a number stands in the list once from the front. -/
theorem split_of_numberOf?_eq_some (hKey : list.numberOf? key = some number) :
    ∃ before after, list.entries = before ++ (key, number) :: after ∧
      ∀ entry ∈ before, entry.1 ≠ key := by
  obtain ⟨before, after, hSplit, hApart⟩ := List.lookup_eq_some_iff.mp hKey
  refine ⟨before, after, hSplit, fun entry hEntry hSame => ?_⟩
  simpa [hSame] using hApart entry hEntry

theorem use_again (hKey : list.numberOf? key = some number)
    (hSplit : list.entries = before ++ (key, number) :: after)
    (hApart : ∀ entry ∈ before, entry.1 ≠ key) :
    list.use key
      = (⟨number, false⟩, { list with entries := (key, number) :: (before ++ after) }) := by
  have hErased : list.entries.eraseP (·.1 == key) = before ++ after := by
    rw [hSplit, List.eraseP_append_right _ (by simpa using hApart),
      List.eraseP_cons_of_pos (by simp)]
  unfold use
  rw [hKey, ← hErased]

end RecencyList

namespace RecencyTable

variable [Hashable α]

def reply (table : RecencyTable α) (assigned? : Option Assignment) (found? : Option UInt32) :
    Reply :=
  { assigned?, found?, size := table.size, evictions := table.evictions }

/-- Serves a request. -/
def serve (table : RecencyTable α) : Request α → Reply × RecencyTable α
  | .use key => ((table.assign key).2.reply (table.assign key).1 none, (table.assign key).2)
  | .look key => (table.reply none (table.lookup? key), table)
  | .clear => (table.clear.reply none none, table.clear)

/-- Serves requests in order. -/
def serveAll (table : RecencyTable α) : List (Request α) → List Reply × RecencyTable α
  | [] => ([], table)
  | request :: requests =>
      ((table.serve request).1 :: ((table.serve request).2.serveAll requests).1,
        ((table.serve request).2.serveAll requests).2)

/-! ### Tables as lists -/

/-- A table whose order of last use is that of a list. -/
structure Lists (table : RecencyTable α) (list : RecencyList α) : Prop where
  ordered : table.Ordered (list.entries.map Prod.snd)
  held : ∀ entry ∈ list.entries, table.keyAt? entry.2 = some entry.1
  capacity : list.capacity = table.capacity
  unused : list.unused = table.places.size
  evictions : list.evictions = table.evictions

variable {table : RecencyTable α} {list : RecencyList α}

theorem lists_ofCapacity (capacity : Nat) :
    (ofCapacity capacity : RecencyTable α).Lists (RecencyList.ofCapacity capacity) where
  ordered := ordered_ofCapacity capacity
  held := fun _ hEntry => absurd hEntry List.not_mem_nil
  capacity := rfl
  unused := rfl
  evictions := rfl

theorem Lists.clear (hLists : table.Lists list) : table.clear.Lists list.clear where
  ordered := hLists.ordered.clear
  held := fun _ hEntry => absurd hEntry List.not_mem_nil
  capacity := hLists.capacity
  unused := rfl
  evictions := hLists.evictions

theorem Lists.length (hLists : table.Lists list) : list.entries.length = table.places.size := by
  rw [← hLists.ordered.length, List.length_map]

theorem Lists.reply (hLists : table.Lists list) (assigned? : Option Assignment)
    (found? : Option UInt32) : table.reply assigned? found? = list.reply assigned? found? := by
  unfold RecencyTable.reply RecencyList.reply
  rw [hLists.length, hLists.evictions, hLists.ordered.keyed.sized]

/-- A table after the use of a key as a list: the key stands in front of keys
that were in the list before. -/
theorem Lists.of_uses (hLists : table.Lists list) {key : α} {placed : Placement}
    {next : RecencyTable α} {order : List Nat} {rest : List (α × Nat)}
    (hUses : table.Uses order key placed next (placed.place :: rest.map Prod.snd))
    (hRest : ∀ entry ∈ rest, entry ∈ list.entries) :
    next.Lists {
      capacity := list.capacity
      entries := (key, placed.place) :: rest
      unused := next.places.size
      evictions := next.evictions } where
  ordered := hUses.ordered
  held := by
    intro entry hEntry
    rw [hUses.keyAt?]
    rcases List.mem_cons.mp hEntry with rfl | hOld
    · exact if_pos rfl
    · rw [if_neg]
      · exact hLists.held entry (hRest entry hOld)
      · intro hSame
        have hOutside := (List.nodup_cons.mp hUses.ordered.linked.nodup).1
        exact hOutside (hSame ▸ List.mem_map_of_mem hOld)
  capacity := hLists.capacity.trans hUses.capacity.symm
  unused := rfl
  evictions := rfl

section Lawful

variable [LawfulBEq α]

theorem Lists.placeOf? (hLists : table.Lists list) (key : α) :
    table.placeOf? key = list.numberOf? key := by
  have hForward (place : Nat) (hKey : list.numberOf? key = some place) :
      table.placeOf? key = some place := by
    obtain ⟨before, after, hSplit, _⟩ := RecencyList.split_of_numberOf?_eq_some hKey
    exact (hLists.ordered.keyed.held key place).mpr (hLists.held (key, place) (by simp [hSplit]))
  cases hKey : list.numberOf? key with
  | some place => exact hForward place hKey
  | none =>
      refine Option.eq_none_iff_forall_ne_some.mpr fun place hHeld => ?_
      have hAt := (hLists.ordered.keyed.held key place).mp hHeld
      obtain ⟨entry, hEntry, rfl⟩ :=
        List.mem_map.mp ((hLists.ordered.every place).mpr (keyAt?_eq_some_lt hAt))
      obtain rfl : entry.1 = key := Option.some.inj ((hLists.held entry hEntry).symm.trans hAt)
      simpa using List.lookup_eq_none_iff.mp hKey entry hEntry

theorem Lists.lookup? (hLists : table.Lists list) (key : α) :
    table.lookup? key = (list.numberOf? key).map UInt32.ofNat :=
  congrArg (Option.map UInt32.ofNat) (hLists.placeOf? key)

/-- A table uses a key as the list does. -/
theorem Lists.use (hLists : table.Lists list) (key : α) :
    (table.use key).1 = (list.use key).1 ∧
      (table.use key).2.Lists (list.use key).2 := by
  obtain ⟨reordered, hUses⟩ := hLists.ordered.use key
  generalize table.use key = result at hUses ⊢
  obtain ⟨placed, next⟩ := result
  have hSource := hUses.source
  have hLength := hUses.ordered.length
  dsimp only at hSource hLength hUses ⊢
  generalize hEvictions : next.evictions = evictions at hSource
  cases hSource with
  | @again place before after hKey hOrder =>
      have hFound := hLists.placeOf? key ▸ hKey
      obtain ⟨first, last, hSplit, hApart⟩ := RecencyList.split_of_numberOf?_eq_some hFound
      have hPlaces := hLists.ordered.linked.nodup
      rw [hSplit, List.map_append, List.map_cons] at hOrder hPlaces
      -- a place stands in the order once, so both ways to split the order are the same
      have hOnce := (List.nodup_cons.mp (List.perm_middle.nodup_iff.mp hPlaces)).1
      rw [List.mem_append, not_or] at hOnce
      obtain ⟨rfl, -, rfl⟩ := (List.append_cons_inj_of_notMem hOnce.1 hOnce.2).mp hOrder
      have hSize : next.places.size = table.places.size := by
        rw [← hLength, ← hLists.length, hSplit]
        simp only [List.length_cons, List.length_append, List.length_map]
        omega
      rw [← List.map_append] at hUses
      have hNext := hLists.of_uses hUses fun entry hEntry => by
        rw [hSplit]
        exact List.perm_middle.symm.subset (List.mem_cons_of_mem _ hEntry)
      rw [RecencyList.use_again hFound hSplit hApart, hLists.unused, hLists.evictions,
        ← hEvictions, ← hSize]
      exact ⟨rfl, hNext⟩
  | unused hNew hRoom =>
      have hList := RecencyList.use_unused (hLists.placeOf? key ▸ hNew)
        (by rw [hLists.length, hLists.capacity]; exact hRoom)
      have hSize : next.places.size = table.places.size + 1 := by
        rw [← hLength, List.length_cons, hLists.ordered.length]
      have hNext := hLists.of_uses hUses fun _ hEntry => hEntry
      rw [hList, RecencyList.addUnused, hLists.unused, hLists.evictions, ← hEvictions, ← hSize]
      exact ⟨rfl, hNext⟩
  | @evicting place before hNew hFull hOrder =>
      obtain ⟨first, last, hSplit, rfl, hLast⟩ := List.map_eq_append_iff.mp hOrder
      obtain ⟨⟨other, _⟩, rfl, rfl⟩ := List.map_eq_singleton_iff.mp hLast
      have hSize : next.places.size = table.places.size := by
        rw [← hLength, ← hLists.length, hSplit]
        simp
      have hNext := hLists.of_uses hUses fun entry hEntry => by
        rw [hSplit]
        exact List.mem_append_left _ hEntry
      rw [RecencyList.use_evicting (hLists.placeOf? key ▸ hNew)
        (by rw [hLists.length, hLists.capacity]; exact hFull) hSplit, hLists.unused,
        hLists.evictions, ← hEvictions, ← hSize]
      exact ⟨rfl, hNext⟩

theorem Lists.serve (hLists : table.Lists list) (request : Request α) :
    (table.serve request).1 = (list.serve request).1 ∧
      (table.serve request).2.Lists (list.serve request).2 := by
  cases request with
  | use key =>
      obtain ⟨hAssigned, hNext⟩ := hLists.use key
      refine ⟨(hNext.reply _ none).trans ?_, hNext⟩
      exact congrArg (fun placed => (list.use key).2.reply placed.assignment none) hAssigned
  | look key => exact ⟨(hLists.reply none _).trans (by rw [hLists.lookup?]; rfl), hLists⟩
  | clear => exact ⟨hLists.clear.reply none none, hLists.clear⟩

theorem Lists.serveAll (hLists : table.Lists list) (requests : List (Request α)) :
    (table.serveAll requests).1 = (list.serveAll requests).1 ∧
      (table.serveAll requests).2.Lists (list.serveAll requests).2 := by
  induction requests generalizing table list with
  | nil => exact ⟨rfl, hLists⟩
  | cons request requests ih =>
      obtain ⟨hReply, hNext⟩ := hLists.serve request
      obtain ⟨hReplies, hLast⟩ := ih hNext
      exact ⟨congrArg₂ List.cons hReply hReplies, hLast⟩

end Lawful

end RecencyTable
end Wire
end CycleTrace
