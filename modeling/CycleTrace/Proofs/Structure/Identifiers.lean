/-
How identifiers are given out.

A space of 16-bit identifiers is searched upwards from a counter. The counter
stands behind the last identifier that was found by a search; an identifier
that the caller chose does not move it. Everything below the counter is taken
all the same, so what a search finds is the least free identifier, and it finds
none only when all 65536 are taken.

`Built` lists what a topology has issued on the way from the empty one. It has
just these parts, each issued once.
-/

import CycleTrace.Proofs.Structure.Topology

namespace CycleTrace
namespace Structure

/-! ### One space -/

/-- An identifier that is not taken, while all below it are. -/
def LeastFree (taken : UInt16 → Bool) (id : UInt16) : Prop :=
  taken id = false ∧ ∀ other, other < id → taken other = true

/-- All identifiers below a counter are taken. -/
def FullBelow (taken : UInt16 → Bool) (counter : Nat) : Prop :=
  ∀ id : UInt16, id.toNat < counter → taken id = true

/-- The identifier of a part whose declaration passes all other checks. -/
def resolve (taken : UInt16 → Bool) (counter : Nat) (duplicate : UInt16 → Fault)
    (exhausted : Fault) : Option UInt16 → Except Fault UInt16
  | some id => if taken id then .error (duplicate id) else .ok id
  | none =>
      match firstFree? taken counter with
      | some id => .ok id
      | none => .error exhausted

/-- A space that gives the least free identifier on its own account, fails to do
so exactly if it is full, and lets the caller choose any identifier that is free. -/
structure Allots (taken : UInt16 → Bool) (exhausted : Fault)
    (check : Option UInt16 → Except Fault UInt16) : Prop where
  automatic : ∀ id, check none = .ok id ↔ LeastFree taken id
  exhausted : check none = .error exhausted ↔ ∀ id, taken id = true
  chosen : ∀ id given, check (some id) = .ok given ↔ given = id ∧ taken id = false

section Spaces

variable {taken later : UInt16 → Bool} {counter : Nat} {id other : UInt16} {id? : Option UInt16}
  {duplicate : UInt16 → Fault} {exhausted : Fault}

theorem LeastFree.unique (hFirst : LeastFree taken id) (hSecond : LeastFree taken other) :
    id = other := by
  have hNotBelow {low high : UInt16} (hLow : taken low = false) (hHigh : LeastFree taken high) :
      ¬ low.toNat < high.toNat := by
    intro hBelow
    rw [hHigh.2 low hBelow] at hLow
    cases hLow
  have hUp := hNotBelow hFirst.1 hSecond
  have hDown := hNotBelow hSecond.1 hFirst
  exact UInt16.toNat_inj.mp (Nat.le_antisymm (Nat.not_lt.mp hDown) (Nat.not_lt.mp hUp))

theorem FullBelow.succ (hFull : FullBelow taken counter)
    (hTaken : taken (UInt16.ofNat counter) = true) : FullBelow taken (counter + 1) := by
  intro id hBelow
  rcases Nat.lt_or_eq_of_le (Nat.le_of_lt_succ hBelow) with hLess | rfl
  · exact hFull id hLess
  · rwa [UInt16.ofNat_toNat] at hTaken

theorem leastFree_of_firstFree? (hFull : FullBelow taken counter)
    (hFound : firstFree? taken counter = some id) : LeastFree taken id := by
  -- the search passes over what is taken, so it goes on with all taken below it
  fun_induction firstFree? taken counter with
  | case1 counter hSpace found hTaken ih => exact ih (hFull.succ hTaken) hFound
  | case2 counter hSpace found hUntaken =>
      obtain rfl := Option.some.inj hFound
      refine ⟨Bool.eq_false_iff.mpr hUntaken, fun other hBelow => hFull other ?_⟩
      exact Nat.lt_of_lt_of_eq hBelow (UInt16.toNat_ofNat_of_lt hSpace)
  | case3 counter hSpace => cases hFound

theorem full_of_firstFree? (hFull : FullBelow taken counter)
    (hNone : firstFree? taken counter = none) (id : UInt16) : taken id = true := by
  fun_induction firstFree? taken counter with
  | case1 counter hSpace found hTaken ih => exact ih (hFull.succ hTaken) hNone
  | case2 counter hSpace found hUntaken => cases hNone
  | case3 counter hSpace =>
      exact hFull id (Nat.lt_of_lt_of_le id.toNat_lt (Nat.not_lt.mp hSpace))

theorem allots_resolve (hFull : FullBelow taken counter) (duplicate : UInt16 → Fault)
    (exhausted : Fault) : Allots taken exhausted (resolve taken counter duplicate exhausted) := by
  constructor
  · intro id
    dsimp only [resolve]
    cases hFound : firstFree? taken counter with
    | some found =>
        have hLeast := leastFree_of_firstFree? hFull hFound
        constructor
        · rintro ⟨⟩
          exact hLeast
        · intro hAlso
          rw [hLeast.unique hAlso]
    | none =>
        refine iff_of_false nofun ?_
        rintro ⟨hUntaken, _⟩
        rw [full_of_firstFree? hFull hFound] at hUntaken
        cases hUntaken
  · dsimp only [resolve]
    cases hFound : firstFree? taken counter with
    | some found =>
        refine iff_of_false nofun ?_
        intro hAll
        have hUntaken := (leastFree_of_firstFree? hFull hFound).1
        rw [hAll found] at hUntaken
        cases hUntaken
    | none => exact iff_of_true rfl (full_of_firstFree? hFull hFound)
  · intro id given
    dsimp only [resolve]
    cases taken id with
    | true => exact iff_of_false nofun nofun
    | false =>
        constructor
        · intro hGiven
          exact ⟨(Except.ok.inj hGiven).symm, rfl⟩
        · rintro ⟨rfl, _⟩
          rfl

theorem FullBelow.issue (hFull : FullBelow taken counter)
    (hResolved : resolve taken counter duplicate exhausted id? = .ok id)
    (hLater : ∀ other, later other = true ↔ other = id ∨ taken other = true) :
    FullBelow later (if id?.isSome then counter else id.toNat + 1) := by
  intro other hBelow
  rw [hLater]
  cases id? with
  | some chosen => exact .inr (hFull other hBelow)
  | none =>
      -- all below what the search found was taken before, and now that is taken too
      have hLeast := ((allots_resolve hFull duplicate exhausted).automatic id).mp hResolved
      rcases Nat.lt_or_eq_of_le (Nat.le_of_lt_succ hBelow) with hLess | hSame
      · exact .inr (hLeast.2 other hLess)
      · exact .inl (UInt16.toNat_inj.mp hSame)

end Spaces

namespace Topology

/-! ### Three spaces -/

/-- The checks of a node other than that of its identifier. -/
structure PassesNode (topology : Topology) (declaration : NodeDeclaration) : Prop where
  name : declaration.check = .ok ()
  parent : ∀ parent, declaration.parent = some parent → topology.nodes.contains parent = true

/-- The checks of an edge other than that of its identifier. -/
structure PassesEdge (topology : Topology) (declaration : EdgeDeclaration) : Prop where
  name : declaration.check = .ok ()
  source : topology.nodes.contains declaration.source = true
  destination : topology.nodes.contains declaration.destination = true

/-- All identifiers below the counters are taken. -/
structure Packed (topology : Topology) : Prop where
  nodes : FullBelow topology.nodes.contains topology.nextNode
  edges : FullBelow topology.edges.contains topology.nextEdge
  clocks : FullBelow topology.hasClock topology.nextClock

/-- How a topology gives out identifiers. A clock domain gets one that no other
has, and not the one that needs no declaration. -/
structure Allocates (topology : Topology) : Prop where
  nodes : ∀ declaration, topology.PassesNode declaration →
    Allots topology.nodes.contains (.idSpaceExhausted .node) (topology.checkNode declaration)
  edges : ∀ declaration, topology.PassesEdge declaration →
    Allots topology.edges.contains (.idSpaceExhausted .edge) (topology.checkEdge declaration)
  clocks : ∀ declaration id, topology.checkClock declaration = .ok id →
    LeastFree topology.hasClock id ∧ topology.clocks.contains id = false ∧ id ≠ 0

section Spaces

variable {topology : Topology}

theorem requireNode_of_contains {id : NodeId} (hContains : topology.nodes.contains id = true) :
    topology.requireNode id = .ok () :=
  if_pos hContains

theorem checkNode_of_passes {declaration : NodeDeclaration}
    (hPasses : topology.PassesNode declaration) :
    topology.checkNode declaration = resolve topology.nodes.contains topology.nextNode
      .duplicateNode (.idSpaceExhausted .node) := by
  funext id?
  unfold checkNode
  rw [hPasses.name]
  cases hDeclared : declaration.parent with
  | none => cases id? <;> rfl
  | some parent =>
      dsimp only
      rw [requireNode_of_contains (hPasses.parent parent hDeclared)]
      cases id? <;> rfl

theorem checkEdge_of_passes {declaration : EdgeDeclaration}
    (hPasses : topology.PassesEdge declaration) :
    topology.checkEdge declaration = resolve topology.edges.contains topology.nextEdge
      .duplicateEdge (.idSpaceExhausted .edge) := by
  funext id?
  unfold checkEdge
  rw [hPasses.name, requireNode_of_contains hPasses.source,
    requireNode_of_contains hPasses.destination]
  cases id? <;> rfl

theorem passesNode_of_checkNode {declaration : NodeDeclaration} {id? : Option NodeId} {id : NodeId}
    (hChecked : topology.checkNode declaration id? = .ok id) : topology.PassesNode declaration := by
  obtain ⟨⟨⟩, hName, _⟩ := ok_of_bind hChecked
  exact ⟨hName, (checkNode_eq_ok hChecked).2.1⟩

theorem passesEdge_of_checkEdge {declaration : EdgeDeclaration} {id? : Option EdgeId} {id : EdgeId}
    (hChecked : topology.checkEdge declaration id? = .ok id) : topology.PassesEdge declaration := by
  obtain ⟨⟨⟩, hName, _⟩ := ok_of_bind hChecked
  obtain ⟨_, hSource, hDestination, _⟩ := checkEdge_eq_ok hChecked
  exact ⟨hName, hSource, hDestination⟩

theorem resolve_of_checkClock {declaration : ClockDeclaration} {id : ClockId}
    (hChecked : topology.checkClock declaration = .ok id) (duplicate : UInt16 → Fault) :
    resolve topology.hasClock topology.nextClock duplicate (.idSpaceExhausted .clock) none
      = .ok id := by
  obtain ⟨_, _, hRest⟩ := ok_of_bind hChecked
  exact hRest

theorem contains_insertNode {id other : NodeId} {declaration : NodeDeclaration} {number : UInt16}
    {chosenByCaller : Bool} :
    (topology.insertNode id declaration number chosenByCaller).nodes.contains other = true
      ↔ other = id ∨ topology.nodes.contains other = true := by
  have hHas : (topology.insertNode id declaration number chosenByCaller).Has (.node other) ↔ _ :=
    has_insertNode
  rwa [Part.node.injEq] at hHas

theorem contains_insertEdge {id other : EdgeId} {declaration : EdgeDeclaration}
    {chosenByCaller : Bool} :
    (topology.insertEdge id declaration chosenByCaller).edges.contains other = true
      ↔ other = id ∨ topology.edges.contains other = true := by
  have hHas : (topology.insertEdge id declaration chosenByCaller).Has (.edge other) ↔ _ :=
    has_insertEdge
  rwa [Part.edge.injEq] at hHas

theorem hasClock_insertClock {id other : ClockId} {declaration : ClockDeclaration} :
    (topology.insertClock id declaration).hasClock other = true
      ↔ other = id ∨ topology.hasClock other = true := by
  simp only [hasClock, insertClock, Std.TreeMap.contains_insert, Bool.or_eq_true, beq_iff_eq,
    Std.compare_eq_iff_eq, @eq_comm _ id other]
  exact or_left_comm

theorem Packed.allocates (hPacked : topology.Packed) : topology.Allocates := by
  constructor
  · intro declaration hPasses
    rw [checkNode_of_passes hPasses]
    exact allots_resolve hPacked.nodes _ _
  · intro declaration hPasses
    rw [checkEdge_of_passes hPasses]
    exact allots_resolve hPacked.edges _ _
  · intro declaration id hChecked
    have hResolved := resolve_of_checkClock hChecked Fault.clockNotFound
    have hLeast := ((allots_resolve hPacked.clocks _ _).automatic id).mp hResolved
    obtain ⟨hDefault, hFree⟩ := Bool.or_eq_false_iff.mp hLeast.1
    exact ⟨hLeast, hFree, beq_eq_false_iff_ne.mp hDefault⟩

theorem packed_initial : ({} : Topology).Packed := by
  refine ⟨nofun, nofun, fun id hBelow => ?_⟩
  -- the counter of clocks starts behind the one that needs no declaration
  have hZero : id = defaultClock := UInt16.toNat_inj.mp (Nat.lt_one_iff.mp hBelow)
  rw [hZero]
  rfl

/-! ### What was issued -/

/-- The topologies that come from the empty one by checked declarations and
changes of nodes, with the parts that were issued, in order. -/
inductive Built : List Part → Topology → Prop
  | empty : Built [] {}
  | node {issued : List Part} {topology : Topology} {declaration : NodeDeclaration}
      {id? : Option NodeId} {id : NodeId} (hBuilt : Built issued topology)
      (hChecked : topology.checkNode declaration id? = .ok id) (number : UInt16) :
      Built (issued ++ [.node id]) (topology.insertNode id declaration number id?.isSome)
  | edge {issued : List Part} {topology : Topology} {declaration : EdgeDeclaration}
      {id? : Option EdgeId} {id : EdgeId} (hBuilt : Built issued topology)
      (hChecked : topology.checkEdge declaration id? = .ok id) :
      Built (issued ++ [.edge id]) (topology.insertEdge id declaration id?.isSome)
  | clock {issued : List Part} {topology : Topology} {declaration : ClockDeclaration}
      {id : ClockId} (hBuilt : Built issued topology)
      (hChecked : topology.checkClock declaration = .ok id) :
      Built (issued ++ [.clock id]) (topology.insertClock id declaration)
  | modified {issued : List Part} {topology : Topology} (hBuilt : Built issued topology)
      (id : NodeId) (change : Node → Node) : Built issued (topology.modifyNode id change)

variable {issued : List Part}

theorem Built.packed (hBuilt : Built issued topology) : topology.Packed := by
  induction hBuilt with
  | empty => exact packed_initial
  | node hBuilt hChecked number ih =>
      have hResolved := hChecked
      rw [checkNode_of_passes (passesNode_of_checkNode hChecked)] at hResolved
      exact ⟨ih.nodes.issue hResolved fun other => contains_insertNode, ih.edges, ih.clocks⟩
  | edge hBuilt hChecked ih =>
      have hResolved := hChecked
      rw [checkEdge_of_passes (passesEdge_of_checkEdge hChecked)] at hResolved
      exact ⟨ih.nodes, ih.edges.issue hResolved fun other => contains_insertEdge, ih.clocks⟩
  | clock hBuilt hChecked ih =>
      have hResolved := resolve_of_checkClock hChecked Fault.clockNotFound
      exact ⟨ih.nodes, ih.edges, ih.clocks.issue hResolved fun other => hasClock_insertClock⟩
  | @modified _ topology hBuilt id change ih =>
      refine ⟨fun other hBelow => ?_, ih.edges, ih.clocks⟩
      have hHas : topology.Has (.node other) := ih.nodes other hBelow
      exact has_modifyNode.mpr hHas

/-- What was issued is what is there, and nothing was issued twice. -/
theorem Built.issued_once (hBuilt : Built issued topology) :
    issued.Nodup ∧ ∀ part, topology.Has part ↔ part ∈ issued := by
  -- the same for the three kinds of parts: a part that was not there is issued and inserted
  have hIssue {issued : List Part} {topology later : Topology} {part : Part}
      (hBefore : issued.Nodup ∧ ∀ part, topology.Has part ↔ part ∈ issued)
      (hFree : ¬ topology.Has part)
      (hLater : ∀ other, later.Has other ↔ other = part ∨ topology.Has other) :
      (issued ++ [part]).Nodup ∧ ∀ other, later.Has other ↔ other ∈ issued ++ [part] := by
    obtain ⟨hNodup, hHas⟩ := hBefore
    refine ⟨List.nodup_append.mpr ⟨hNodup, List.pairwise_singleton _ part, ?_⟩, fun other => ?_⟩
    · rintro known hKnown _ hNew rfl
      rw [List.mem_singleton.mp hNew] at hKnown
      exact hFree ((hHas part).mpr hKnown)
    · rw [hLater, hHas, List.mem_append, List.mem_singleton, or_comm]
  have hUntaken {taken : Bool} (hFalse : taken = false) : ¬ taken = true :=
    Bool.eq_false_iff.mp hFalse
  induction hBuilt with
  | empty =>
      refine ⟨List.nodup_nil, fun part => iff_of_false ?_ List.not_mem_nil⟩
      cases part <;> exact nofun
  | node hBuilt hChecked number ih =>
      exact hIssue ih (hUntaken (checkNode_eq_ok hChecked).2.2) fun _ => has_insertNode
  | edge hBuilt hChecked ih =>
      exact hIssue ih (hUntaken (checkEdge_eq_ok hChecked).2.2.2) fun _ => has_insertEdge
  | clock hBuilt hChecked ih =>
      have hFree := (Bool.or_eq_false_iff.mp (checkClock_eq_ok hChecked).2).2
      exact hIssue ih (hUntaken hFree) fun _ => has_insertClock
  | modified hBuilt id change ih =>
      exact ⟨ih.1, fun part => has_modifyNode.trans (ih.2 part)⟩

end Spaces
end Topology
end Structure
end CycleTrace
