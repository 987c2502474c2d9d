/-
A bounded table that gives keys small identifiers and forgets by recency.

A key that is present keeps its identifier and becomes the most recently used.
A new key gets the next unused identifier while the table has room; after that
it takes over the identifier of the least recently used key, which is
forgotten.

Every key in use has a place, and the low 32 bits of the number of the place
are the identifier that is handed out for it. The places are linked in both
directions, from the key used last to the key used longest ago, so that a use of
a key moves no other key. A link could lead to a place that does not exist, and
then the computation fails; that it never does is shown where the links are
studied.
-/

import Std.Data.HashMap

namespace CycleTrace
namespace Wire

/-- A place of a table: the key that holds it, and the places of the keys used
next after it and last before it. -/
structure Place (α : Type) where
  key : α
  newer : Option Nat := none
  older : Option Nat := none
deriving DecidableEq, Repr

/-- A table of at most `capacity` keys. -/
structure RecencyTable (α : Type) [BEq α] [Hashable α] where
  capacity : Nat
  registered : Std.HashMap α Nat := {}
  places : Array (Place α) := #[]
  newest : Option Nat := none
  oldest : Option Nat := none
  evictions : Nat := 0

/-- The place found for a key, and whether the key is new to the table. -/
structure Placement where
  place : Nat
  isNew : Bool
deriving DecidableEq, Repr

/-- The identifier handed out for a key, and whether the key is new to the
table. -/
structure Assignment where
  id : UInt32
  isNew : Bool
deriving DecidableEq, Repr

/-- A place is handed out as its low 32 bits. -/
def Placement.assignment (placement : Placement) : Assignment :=
  ⟨UInt32.ofNat placement.place, placement.isNew⟩

namespace RecencyTable

variable {α : Type} [BEq α] [Hashable α]

/-- An empty table; it has room for at least one key. -/
def ofCapacity (capacity : Nat) : RecencyTable α :=
  { capacity := max capacity 1 }

/-- The number of keys in use. -/
def size (table : RecencyTable α) : Nat :=
  table.registered.size

/-- The place of a key. -/
def placeOf? (table : RecencyTable α) (key : α) : Option Nat :=
  table.registered[key]?

/-- The identifier of a key, without using it. -/
def lookup? (table : RecencyTable α) (key : α) : Option UInt32 :=
  (table.placeOf? key).map UInt32.ofNat

/-- Changes a place, which has to exist. -/
def modifyPlace? (table : RecencyTable α) (place : Nat) (change : Place α → Place α) :
    Option (RecencyTable α) :=
  if place < table.places.size then
    some { table with places := table.places.modify place change }
  else none

/-- Sets what comes after a place or, without one, what is newest. -/
def setOlder? (table : RecencyTable α) (place? older : Option Nat) : Option (RecencyTable α) :=
  match place? with
  | some place => table.modifyPlace? place ({ · with older })
  | none => some { table with newest := older }

/-- Sets what comes before a place or, without one, what is oldest. -/
def setNewer? (table : RecencyTable α) (place? newer : Option Nat) : Option (RecencyTable α) :=
  match place? with
  | some place => table.modifyPlace? place ({ · with newer })
  | none => some { table with oldest := newer }

/-- Takes a place out of the order. -/
def unlink? (table : RecencyTable α) (place : Nat) : Option (RecencyTable α) := do
  let { newer, older, .. } ← table.places[place]?
  let table ← table.setOlder? newer older
  let table ← table.setNewer? older newer
  table.modifyPlace? place ({ · with newer := none, older := none })

/-- Puts a place before another one, if there is another one. -/
def putBefore? (table : RecencyTable α) (place : Nat) : Option Nat → Option (RecencyTable α)
  | some next => table.modifyPlace? next ({ · with newer := some place })
  | none => some table

/-- Makes a place the newest one. -/
def linkNewest? (table : RecencyTable α) (place : Nat) : Option (RecencyTable α) := do
  let newest := table.newest
  let table ← table.modifyPlace? place ({ · with newer := none, older := newest })
  let table ← table.putBefore? place newest
  return { table with newest := some place, oldest := table.oldest.or (some place) }

/-! ### Uses -/

/-- Adds a place for a key. -/
def addPlace (table : RecencyTable α) (key : α) : Nat × RecencyTable α :=
  (table.places.size, { table with places := table.places.push { key } })

/-- Gives a place to another key. The key that held it is forgotten. -/
def overwrite? (table : RecencyTable α) (place : Nat) (key : α) : Option (RecencyTable α) := do
  let table ← table.unlink? place
  let { key := evicted, .. } ← table.places[place]?
  let table ← table.modifyPlace? place ({ · with key })
  return { table with
    registered := table.registered.erase evicted
    evictions := table.evictions + 1 }

/-- A place for a new key: in a full table that of the key used longest ago. -/
def makePlace? (table : RecencyTable α) (key : α) : Option (Nat × RecencyTable α) :=
  match table.oldest with
  | some oldest =>
      if table.places.size < table.capacity then some (table.addPlace key)
      else (table.overwrite? oldest key).map (oldest, ·)
  | none => some (table.addPlace key)

/-- Uses a key, giving it a place if it has none. -/
def use? (table : RecencyTable α) (key : α) : Option (Placement × RecencyTable α) :=
  match table.registered[key]? with
  | some place => do
      let table ← table.unlink? place
      let table ← table.linkNewest? place
      return (⟨place, false⟩, table)
  | none => do
      let (place, table) ← table.makePlace? key
      let table := { table with registered := table.registered.insert key place }
      let table ← table.linkNewest? place
      return (⟨place, true⟩, table)

/-- Uses a key. A table in use has no links that lead nowhere, so there always
is a placement. -/
def use (table : RecencyTable α) (key : α) : Placement × RecencyTable α :=
  match table.use? key with
  | some used => used
  | none => (⟨0, true⟩, .ofCapacity 0)

/-- Uses a key and hands out its identifier. -/
def assign (table : RecencyTable α) (key : α) : Assignment × RecencyTable α :=
  let (placement, table) := table.use key
  (placement.assignment, table)

/-- Forgets every key; identifiers start again, the count of evictions stays. -/
def clear (table : RecencyTable α) : RecencyTable α :=
  { capacity := table.capacity, evictions := table.evictions }

end RecencyTable
end Wire
end CycleTrace
