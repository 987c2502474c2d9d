/-
The links of a recency table.

A chain of places is a list of places in which every place knows its two
neighbours. A table is linked in an order when the whole order is a chain, its
first place is the newest and its last place the oldest. Taking a place out of
the order and putting it in front then reach existing places only, and leave
the table linked in the order without the place, or with the place in front.
Neither touches the keys.
-/

import CycleTrace.Wire.RecencyTable
import Mathlib.Data.List.Basic

namespace CycleTrace
namespace Wire

variable {α : Type}

/-- Places in order whose links lead to each other, to `newer` from the first
one and to `older` from the last one. -/
def Chain (places : Array (Place α)) : Option Nat → List Nat → Option Nat → Prop
  | _, [], _ => True
  | newer, place :: rest, older =>
      (∃ key, places[place]? = some { key, newer, older := rest.head?.or older }) ∧
        Chain places (some place) rest older

section Chains

variable {places others : Array (Place α)} {newer older : Option Nat} {order : List Nat}

theorem chain_append {first second : List Nat} :
    Chain places newer (first ++ second) older
      ↔ Chain places newer first (second.head?.or older) ∧
        Chain places (first.getLast?.or newer) second older := by
  induction first generalizing newer with
  | nil => simp [Chain]
  | cons place rest ih =>
      have hLast : (place :: rest).getLast?.or newer = rest.getLast?.or (some place) := by
        rw [List.getLast?_cons]
        cases rest.getLast? <;> rfl
      rw [List.cons_append, hLast]
      simp only [Chain, ih, List.head?_append, Option.or_assoc, and_assoc]

theorem Chain.congr (hChain : Chain places newer order older)
    (hSame : ∀ place ∈ order, others[place]? = places[place]?) :
    Chain others newer order older := by
  induction order generalizing newer with
  | nil => trivial
  | cons place rest ih =>
      obtain ⟨⟨key, hPlace⟩, hRest⟩ := hChain
      refine ⟨⟨key, (hSame place List.mem_cons_self).trans hPlace⟩, ?_⟩
      exact ih hRest fun other hOther => hSame other (List.mem_cons_of_mem place hOther)

theorem Chain.lt_size (hChain : Chain places newer order older) {place : Nat}
    (hPlace : place ∈ order) : place < places.size := by
  induction order generalizing newer with
  | nil => cases hPlace
  | cons first rest ih =>
      obtain ⟨⟨key, hFirst⟩, hRest⟩ := hChain
      rcases List.mem_cons.mp hPlace with rfl | hLater
      · exact (Array.getElem?_eq_some_iff.mp hFirst).1
      · exact ih hRest hLater

/-- A change of a place outside a chain leaves the chain as it is. -/
theorem Chain.modify_other (hChain : Chain places newer order older) {place : Nat}
    (hOther : place ∉ order) (change : Place α → Place α) :
    Chain (places.modify place change) newer order older := by
  apply hChain.congr
  intro other hMember
  rw [Array.getElem?_modify, if_neg]
  rintro rfl
  exact hOther hMember

theorem Chain.relink_first {place : Nat} {rest : List Nat}
    (hChain : Chain places newer (place :: rest) older) (hNodup : (place :: rest).Nodup)
    (next : Option Nat) :
    Chain (places.modify place ({ · with newer := next })) next (place :: rest) older := by
  obtain ⟨⟨key, hPlace⟩, hRest⟩ := hChain
  refine ⟨⟨key, ?_⟩, hRest.modify_other (List.nodup_cons.mp hNodup).1 _⟩
  rw [Array.getElem?_modify, if_pos rfl, hPlace]
  rfl

theorem Chain.relink_last {place : Nat} {rest : List Nat}
    (hChain : Chain places newer (rest ++ [place]) older) (hNodup : (rest ++ [place]).Nodup)
    (next : Option Nat) :
    Chain (places.modify place ({ · with older := next })) newer (rest ++ [place]) next := by
  rw [chain_append] at hChain ⊢
  obtain ⟨hRest, ⟨key, hPlace⟩, _⟩ := hChain
  have hOther : place ∉ rest := fun hMember =>
    (List.nodup_append.mp hNodup).2.2 place hMember place List.mem_cons_self rfl
  refine ⟨hRest.modify_other hOther _, ⟨key, ?_⟩, trivial⟩
  rw [Array.getElem?_modify, if_pos rfl, hPlace]
  rfl

end Chains

namespace RecencyTable

variable [BEq α] [Hashable α]

/-- The key that holds a place. -/
def keyAt? (table : RecencyTable α) (place : Nat) : Option α :=
  table.places[place]?.map (·.key)

/-- Tables that differ in their links only. -/
structure Relinks (table next : RecencyTable α) : Prop where
  capacity : next.capacity = table.capacity
  registered : next.registered = table.registered
  evictions : next.evictions = table.evictions
  size : next.places.size = table.places.size
  keyAt? : ∀ place, next.keyAt? place = table.keyAt? place

/-- The places of a table are linked in an order, the newest first. -/
structure Linked (table : RecencyTable α) (order : List Nat) : Prop where
  nodup : order.Nodup
  chain : Chain table.places none order none
  newest : table.newest = order.head?
  oldest : table.oldest = order.getLast?

variable {table next last : RecencyTable α} {order : List Nat} {place : Nat}

theorem Relinks.trans (hNext : table.Relinks next) (hLast : next.Relinks last) :
    table.Relinks last :=
  ⟨hLast.capacity.trans hNext.capacity, hLast.registered.trans hNext.registered,
    hLast.evictions.trans hNext.evictions, hLast.size.trans hNext.size,
    fun place => (hLast.keyAt? place).trans (hNext.keyAt? place)⟩

theorem relinks_ends (newest oldest : Option Nat) :
    table.Relinks { table with newest, oldest } :=
  ⟨rfl, rfl, rfl, rfl, fun _ => rfl⟩

theorem modifyPlace?_of_lt (hPlace : place < table.places.size) (change : Place α → Place α) :
    table.modifyPlace? place change
      = some { table with places := table.places.modify place change } :=
  if_pos hPlace

theorem keyAt?_modify (table : RecencyTable α) (place other : Nat)
    (change : Place α → Place α) :
    ({ table with places := table.places.modify place change } : RecencyTable α).keyAt? other
      = if place = other then table.places[other]?.map fun held => (change held).key
        else table.keyAt? other := by
  unfold keyAt?
  rw [Array.getElem?_modify]
  split
  · rw [Option.map_map]
    rfl
  · rfl

theorem relinks_modify (place : Nat) {change : Place α → Place α}
    (hKey : ∀ held, (change held).key = held.key) :
    table.Relinks { table with places := table.places.modify place change } := by
  refine ⟨rfl, rfl, rfl, Array.size_modify, fun other => ?_⟩
  rw [keyAt?_modify]
  split
  · simp only [hKey]
    rfl
  · rfl

/-! ### Out of the order -/

/-- What comes after the last place of a chain is changed in the place, or in
the table where the chain is empty. -/
theorem setOlder?_of_chain {newer older : Option Nat}
    (hChain : Chain table.places newer order older) (hNodup : order.Nodup)
    (next : Option Nat) :
    ∃ places newest, table.setOlder? order.getLast? next = some { table with places, newest } ∧
      Chain places newer order next ∧ (order = [] → newest = next) ∧
      (order ≠ [] → newest = table.newest) ∧
      (∀ other, other ∉ order → places[other]? = table.places[other]?) ∧
      table.Relinks { table with places, newest } := by
  rcases List.eq_nil_or_concat' order with rfl | ⟨rest, place, rfl⟩
  · exact ⟨table.places, next, rfl, trivial, fun _ => rfl, fun hSome => absurd rfl hSome,
      fun _ _ => rfl, relinks_ends next table.oldest⟩
  · have hPlace : place < table.places.size := hChain.lt_size (by simp)
    refine ⟨table.places.modify place ({ · with older := next }), table.newest, ?_,
      hChain.relink_last hNodup next, ?_, fun _ => rfl, ?_, relinks_modify place fun _ => rfl⟩
    · rw [List.getLast?_concat]
      exact modifyPlace?_of_lt hPlace _
    · intro hNone
      simp at hNone
    · intro other hOther
      rw [Array.getElem?_modify, if_neg]
      rintro rfl
      exact hOther (by simp)

/-- What comes before the first place of a chain is changed in the place, or in
the table where the chain is empty. -/
theorem setNewer?_of_chain {newer older : Option Nat}
    (hChain : Chain table.places newer order older) (hNodup : order.Nodup)
    (next : Option Nat) :
    ∃ places oldest, table.setNewer? order.head? next = some { table with places, oldest } ∧
      Chain places next order older ∧ (order = [] → oldest = next) ∧
      (order ≠ [] → oldest = table.oldest) ∧
      (∀ other, other ∉ order → places[other]? = table.places[other]?) ∧
      table.Relinks { table with places, oldest } := by
  cases order with
  | nil =>
      exact ⟨table.places, next, rfl, trivial, fun _ => rfl, fun hSome => absurd rfl hSome,
        fun _ _ => rfl, relinks_ends table.newest next⟩
  | cons place rest =>
      have hPlace : place < table.places.size := hChain.lt_size List.mem_cons_self
      refine ⟨table.places.modify place ({ · with newer := next }), table.oldest,
        modifyPlace?_of_lt hPlace _, hChain.relink_first hNodup next, nofun, fun _ => rfl, ?_,
        relinks_modify place fun _ => rfl⟩
      intro other hOther
      rw [Array.getElem?_modify, if_neg]
      rintro rfl
      exact hOther List.mem_cons_self

theorem unlink?_of_linked {before after : List Nat}
    (hLinked : table.Linked (before ++ place :: after)) :
    ∃ next, table.unlink? place = some next ∧ next.Linked (before ++ after) ∧
      table.Relinks next := by
  obtain ⟨hNodup, hChain, hNewest, hOldest⟩ := hLinked
  obtain ⟨hBefore, hPlaceAfter, hApart⟩ := List.nodup_append.mp hNodup
  obtain ⟨hPlace, hAfter⟩ := List.nodup_cons.mp hPlaceAfter
  have hDisjoint : ∀ other ∈ after, other ∉ before := fun other hOther hMember =>
    hApart other hMember other (List.mem_cons_of_mem place hOther) rfl
  have hOutside : place ∉ before := fun hMember =>
    hApart place hMember place List.mem_cons_self rfl
  obtain ⟨hChainBefore, ⟨key, hHeld⟩, hChainAfter⟩ := chain_append.mp hChain
  rw [Option.or_none] at hHeld
  rw [Option.or_none] at hHeld
  -- the part before is made to end where the part after starts, and the other way round
  obtain ⟨places, newest, hOlder, hJoined, hNoneBefore, hSomeBefore, hKept, hRelinks⟩ :=
    setOlder?_of_chain hChainBefore hBefore after.head?
  have hChainAfter' := hChainAfter.congr fun other hOther => hKept other (hDisjoint other hOther)
  obtain ⟨places', oldest, hNewer, hJoined', hNoneAfter, hSomeAfter, hKept', hRelinks'⟩ :=
    @setNewer?_of_chain α _ _ { table with places, newest } after _ _ hChainAfter' hAfter
      before.getLast?
  let joined : RecencyTable α := { table with places := places', newest, oldest }
  have hRelinked : table.Relinks joined := hRelinks.trans hRelinks'
  have hSize : place < joined.places.size := by
    rw [hRelinked.size]
    exact hChain.lt_size (List.mem_append_right before List.mem_cons_self)
  refine ⟨{ joined with
      places := joined.places.modify place ({ · with newer := none, older := none }) },
    ?_, ⟨?_, ?_, ?_, ?_⟩, hRelinked.trans (relinks_modify place fun _ => rfl)⟩
  · unfold unlink?
    rw [hHeld]
    refine (Option.bind_some _ _).trans ?_
    dsimp only
    rw [hOlder]
    refine (Option.bind_some _ _).trans ?_
    rw [hNewer]
    refine (Option.bind_some _ _).trans ?_
    exact modifyPlace?_of_lt hSize _
  · exact List.nodup_append.mpr ⟨hBefore, hAfter, fun one hOne other hOther hSame =>
      hDisjoint other hOther (hSame ▸ hOne)⟩
  · rw [chain_append, Option.or_none, Option.or_none]
    refine ⟨?_, hJoined'.modify_other hPlace ({ · with newer := none, older := none })⟩
    have hJoinedBefore : Chain joined.places none before after.head? :=
      hJoined.congr fun other hOther => hKept' other fun hMember =>
        hDisjoint other hMember hOther
    exact hJoinedBefore.modify_other hOutside ({ · with newer := none, older := none })
  · cases before with
    | nil => exact hNoneBefore rfl
    | cons first rest => exact (hSomeBefore nofun).trans hNewest
  · rcases List.eq_nil_or_concat' after with rfl | ⟨rest, last, rfl⟩
    · rw [List.append_nil]
      exact hNoneAfter rfl
    · refine (hSomeAfter (by simp)).trans (hOldest.trans ?_)
      rw [← List.cons_append, ← List.append_assoc, ← List.append_assoc, List.getLast?_concat,
        List.getLast?_concat]

/-! ### To the front -/

theorem putBefore?_of_chain {older : Option Nat} (hChain : Chain table.places none order older)
    (hNodup : order.Nodup) (hNew : place ∉ order) :
    ∃ places, table.putBefore? place order.head? = some { table with places } ∧
      Chain places (some place) order older ∧ places[place]? = table.places[place]? ∧
      table.Relinks { table with places } := by
  cases order with
  | nil => exact ⟨table.places, rfl, trivial, rfl, relinks_ends table.newest table.oldest⟩
  | cons first rest =>
      have hFirst : first < table.places.size := hChain.lt_size List.mem_cons_self
      refine ⟨table.places.modify first ({ · with newer := some place }),
        modifyPlace?_of_lt hFirst _, hChain.relink_first hNodup _, ?_,
        relinks_modify first fun _ => rfl⟩
      rw [Array.getElem?_modify, if_neg]
      rintro rfl
      exact hNew List.mem_cons_self

theorem linkNewest?_of_linked (hLinked : table.Linked order) (hPlace : place < table.places.size)
    (hNew : place ∉ order) :
    ∃ next, table.linkNewest? place = some next ∧ next.Linked (place :: order) ∧
      table.Relinks next := by
  obtain ⟨hNodup, hChain, hNewest, hOldest⟩ := hLinked
  let opened : RecencyTable α := { table with
    places := table.places.modify place ({ · with newer := none, older := table.newest }) }
  have hOpen : table.modifyPlace? place ({ · with newer := none, older := table.newest })
      = some opened := modifyPlace?_of_lt hPlace _
  have hRelinks : table.Relinks opened := relinks_modify place fun _ => rfl
  have hChainOpen : Chain opened.places none order none :=
    hChain.modify_other hNew ({ · with newer := none, older := table.newest })
  have hHeld : opened.places[place]?
      = some { key := table.places[place].key, newer := none, older := order.head? } := by
    rw [Array.getElem?_modify, if_pos rfl, Array.getElem?_eq_getElem hPlace, hNewest]
    rfl
  obtain ⟨places, hPut, hPutChain, hKept, hPutRelinks⟩ := putBefore?_of_chain hChainOpen hNodup hNew
  refine ⟨{ opened with places, newest := some place, oldest := table.oldest.or (some place) },
    ?_, ⟨?_, ?_, rfl, ?_⟩, (hRelinks.trans hPutRelinks).trans (relinks_ends _ _)⟩
  · unfold linkNewest?
    dsimp only
    rw [hOpen]
    refine (Option.bind_some _ _).trans ?_
    rw [hNewest, hPut]
    rfl
  · exact List.nodup_cons.mpr ⟨hNew, hNodup⟩
  · refine ⟨⟨table.places[place].key, ?_⟩, hPutChain⟩
    rw [Option.or_none]
    exact hKept.trans hHeld
  · rw [List.getLast?_cons]
    dsimp only
    rw [hOldest]
    cases order.getLast? <;> rfl

end RecencyTable
end Wire
end CycleTrace
