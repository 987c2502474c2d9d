/-
What the checks of a topology promise.

A declaration that passes its check has a name that is short enough, refers to
parts that exist and gets an identifier of its own; a position or a layout that
passes belongs to a node that exists. Inserting a part adds it and keeps the
others, and nothing is ever removed.
-/

import CycleTrace.Proofs.Structure.Layout
import CycleTrace.Structure.Topology

namespace CycleTrace

/-- A computation that went through went through in both of its parts. -/
theorem ok_of_bind {α β : Type} {first : Except Fault α} {rest : α → Except Fault β}
    {result : β} (hBoth : first >>= rest = .ok result) :
    ∃ value, first = .ok value ∧ rest value = .ok result := by
  cases first with
  | error fault => cases hBoth
  | ok value => exact ⟨value, rfl, hBoth⟩

namespace Structure

theorem checkName_eq_ok {name : String} (hChecked : checkName name = .ok ()) :
    name.utf8ByteSize ≤ Limits.nameBytes := by
  unfold checkName at hChecked
  split at hChecked
  · cases hChecked
  · next hShort => exact Nat.le_of_not_gt hShort

/-- A node, an edge or a clock domain, by its identifier. -/
inductive Part where
  | node (id : NodeId)
  | edge (id : EdgeId)
  | clock (id : ClockId)
deriving DecidableEq, Repr

namespace Topology

/-- The layout of a node whose slots are watched. -/
def watchedLayout? (topology : Topology) (id : NodeId) : Option Layout :=
  topology.nodes[id]?.bind fun node => if node.autoflush then node.layout else none

/-- A node that exists, with or without the autoflush attribute. -/
def Marked (topology : Topology) (autoflush : Bool) (id : NodeId) : Prop :=
  ∃ node, topology.nodes[id]? = some node ∧ node.autoflush = autoflush

abbrev Autoflush (topology : Topology) (id : NodeId) : Prop :=
  topology.Marked true id

abbrev Unwatched (topology : Topology) (id : NodeId) : Prop :=
  topology.Marked false id

/-- Layouts have few dimensions. -/
def Shallow (topology : Topology) : Prop :=
  ∀ (id : NodeId) (node : Node) (layout : Layout), topology.nodes[id]? = some node →
    node.layout = some layout → layout.dimensions.length ≤ Limits.dimensions

section Nodes

variable {topology : Topology} {id other : NodeId}

theorem not_unwatched (hAutoflush : topology.Autoflush id) : ¬ topology.Unwatched id := by
  rintro ⟨node, hNode, hPlain⟩
  obtain ⟨same, hSame, hMarked⟩ := hAutoflush
  rw [hNode] at hSame
  cases hSame
  rw [hPlain] at hMarked
  cases hMarked

theorem watchedLayout?_eq_some {layout : Layout}
    (hLayout : topology.watchedLayout? id = some layout) :
    ∃ node, topology.nodes[id]? = some node ∧ node.autoflush = true ∧
      node.layout = some layout := by
  obtain ⟨node, hNode, hChosen⟩ := Option.bind_eq_some_iff.mp hLayout
  cases hAutoflush : node.autoflush with
  | false =>
      rw [hAutoflush] at hChosen
      cases hChosen
  | true =>
      rw [hAutoflush] at hChosen
      exact ⟨node, hNode, hAutoflush, hChosen⟩

theorem watchedLayout?_of_node {node : Node} (hNode : topology.nodes[id]? = some node) :
    topology.watchedLayout? id = if node.autoflush then node.layout else none := by
  unfold watchedLayout?
  rw [hNode]
  rfl

theorem node_eq_ok {node : Node} (hNode : topology.node id = .ok node) :
    topology.nodes[id]? = some node := by
  unfold Topology.node at hNode
  split at hNode
  · next found hFound =>
      cases hNode
      exact hFound
  · cases hNode

theorem getElem?_modifyNode (topology : Topology) (id other : NodeId) (change : Node → Node) :
    (topology.modifyNode id change).nodes[other]?
      = if id = other then topology.nodes[id]?.map change else topology.nodes[other]? := by
  simp only [modifyNode, Std.TreeMap.getElem?_modify, Std.compare_eq_iff_eq]

/-- A change of a node that leaves its attribute and its layout alone. -/
theorem watchedLayout?_modifyNode (topology : Topology) (id other : NodeId) (change : Node → Node)
    (hAutoflush : ∀ node, (change node).autoflush = node.autoflush)
    (hLayout : ∀ node, (change node).layout = node.layout) :
    (topology.modifyNode id change).watchedLayout? other = topology.watchedLayout? other := by
  unfold watchedLayout?
  rw [getElem?_modifyNode]
  split
  · next hSame =>
      subst hSame
      cases topology.nodes[id]? with
      | none => rfl
      | some node =>
          simp only [Option.map_some, Option.bind_some, hAutoflush, hLayout]
  · rfl

theorem Marked.modifyNode {autoflush : Bool} (hMarked : topology.Marked autoflush other)
    (id : NodeId) (change : Node → Node)
    (hAutoflush : ∀ node, (change node).autoflush = node.autoflush) :
    (topology.modifyNode id change).Marked autoflush other := by
  obtain ⟨node, hNode, hAttribute⟩ := hMarked
  unfold Marked
  rw [getElem?_modifyNode]
  split
  · next hSame =>
      subst hSame
      rw [hNode]
      exact ⟨change node, rfl, (hAutoflush node).trans hAttribute⟩
  · exact ⟨node, hNode, hAttribute⟩

theorem firstFree?_free {taken : UInt16 → Bool} {counter : Nat} {free : UInt16}
    (hFree : firstFree? taken counter = some free) : taken free = false := by
  fun_induction firstFree? taken counter with
  | case1 counter hSpace id hTaken ih => exact ih hFree
  | case2 counter hSpace id hUntaken =>
      rw [← Option.some.inj hFree]
      exact Bool.eq_false_iff.mpr hUntaken
  | case3 counter hSpace => cases hFree

theorem free_of_not_contains (hFound : topology.nodes.contains id = false) :
    topology.nodes[id]? = none := by
  rw [Std.TreeMap.contains_eq_isSome_getElem?] at hFound
  exact Option.not_isSome_iff_eq_none.mp (Bool.eq_false_iff.mp hFound)

/-- An identifier that was asked for or looked for is not taken. -/
theorem free_of_resolved (taken : UInt16 → Bool) {counter : Nat} {id? : Option UInt16}
    {id : UInt16} {duplicate : UInt16 → Fault} {exhausted : Fault}
    (hResolved : (match id? with
      | some id => if taken id then throw (duplicate id) else pure id
      | none =>
          match firstFree? taken counter with
          | some id => pure id
          | none => throw exhausted : Except Fault UInt16) = .ok id) : taken id = false := by
  split at hResolved
  · split at hResolved
    · cases hResolved
    · next hNew =>
        cases hResolved
        exact Bool.eq_false_iff.mpr hNew
  · split at hResolved
    · next hFree =>
        cases hResolved
        exact firstFree?_free hFree
    · cases hResolved

theorem contains_of_node {node : Node} (hNode : topology.nodes[id]? = some node) :
    topology.nodes.contains id = true := by
  rw [Std.TreeMap.contains_eq_isSome_getElem?, hNode]
  rfl

theorem edge_eq_ok {id : EdgeId} {edge : Edge} (hEdge : topology.edge id = .ok edge) :
    topology.edges[id]? = some edge := by
  unfold Topology.edge at hEdge
  split at hEdge
  · next found hFound =>
      cases hEdge
      exact hFound
  · cases hEdge

theorem contains_of_edge {id : EdgeId} {edge : Edge} (hEdge : topology.edge id = .ok edge) :
    topology.edges.contains id = true := by
  rw [Std.TreeMap.contains_eq_isSome_getElem?, edge_eq_ok hEdge]
  rfl

theorem contains_of_requireNode (hRequired : topology.requireNode id = .ok ()) :
    topology.nodes.contains id = true := by
  unfold requireNode at hRequired
  split at hRequired
  · next hFound => exact hFound
  · cases hRequired

theorem hasClock_of_requireClock {clock : ClockId}
    (hRequired : topology.requireClock clock = .ok ()) : topology.hasClock clock = true := by
  unfold requireClock at hRequired
  split at hRequired
  · next hFound => exact hFound
  · cases hRequired

/-- A checked node has a short name, a parent that exists if it has one, and an
identifier of its own. -/
theorem checkNode_eq_ok {declaration : NodeDeclaration} {id? : Option NodeId}
    (hChecked : topology.checkNode declaration id? = .ok id) :
    declaration.name.utf8ByteSize ≤ Limits.nameBytes ∧
    (∀ parent, declaration.parent = some parent → topology.nodes.contains parent = true) ∧
    topology.nodes.contains id = false := by
  unfold checkNode at hChecked
  obtain ⟨_, hName, hRest⟩ := ok_of_bind hChecked
  refine ⟨checkName_eq_ok hName, ?_⟩
  cases hDeclared : declaration.parent with
  | none =>
      rw [hDeclared] at hRest
      refine ⟨?_, free_of_resolved topology.nodes.contains hRest⟩
      intro parent hParent
      cases hParent
  | some parent =>
      rw [hDeclared] at hRest
      obtain ⟨_, hRequired, hLast⟩ := ok_of_bind hRest
      refine ⟨?_, free_of_resolved topology.nodes.contains hLast⟩
      intro other hOther
      cases hOther
      exact contains_of_requireNode hRequired

theorem checkNode_free {declaration : NodeDeclaration} {id? : Option NodeId}
    (hChecked : topology.checkNode declaration id? = .ok id) : topology.nodes[id]? = none :=
  free_of_not_contains (checkNode_eq_ok hChecked).2.2

theorem checkEdge_eq_ok {declaration : EdgeDeclaration} {id? : Option EdgeId} {edge : EdgeId}
    (hChecked : topology.checkEdge declaration id? = .ok edge) :
    declaration.name.utf8ByteSize ≤ Limits.nameBytes ∧
    topology.nodes.contains declaration.source = true ∧
    topology.nodes.contains declaration.destination = true ∧
    topology.edges.contains edge = false := by
  unfold checkEdge at hChecked
  obtain ⟨_, hName, hSource⟩ := ok_of_bind hChecked
  obtain ⟨_, hSourceFound, hDestination⟩ := ok_of_bind hSource
  obtain ⟨_, hDestinationFound, hRest⟩ := ok_of_bind hDestination
  exact ⟨checkName_eq_ok hName, contains_of_requireNode hSourceFound,
    contains_of_requireNode hDestinationFound, free_of_resolved topology.edges.contains hRest⟩

theorem checkClock_eq_ok {declaration : ClockDeclaration} {clock : ClockId}
    (hChecked : topology.checkClock declaration = .ok clock) :
    declaration.name.utf8ByteSize ≤ Limits.nameBytes ∧ topology.hasClock clock = false := by
  unfold checkClock at hChecked
  obtain ⟨_, hName, hRest⟩ := ok_of_bind hChecked
  refine ⟨checkName_eq_ok hName, ?_⟩
  split at hRest
  · next hFree =>
      cases hRest
      exact firstFree?_free hFree
  · cases hRest

theorem getElem?_insertNode (topology : Topology) (id other : NodeId)
    (declaration : NodeDeclaration) (number : UInt16) (chosenByCaller : Bool) :
    (topology.insertNode id declaration number chosenByCaller).nodes[other]?
      = if id = other then
          some { name := declaration.name
                 parent := declaration.parent
                 instanceNumber := number
                 autoflush := declaration.autoflush
                 relaxed := declaration.relaxed }
        else topology.nodes[other]? := by
  simp only [insertNode, Std.TreeMap.getElem?_insert, Std.compare_eq_iff_eq]

theorem Shallow.insertNode (hShallow : topology.Shallow) (id : NodeId)
    (declaration : NodeDeclaration) (number : UInt16) (chosenByCaller : Bool) :
    (topology.insertNode id declaration number chosenByCaller).Shallow := by
  intro other node layout hNode hLayout
  rw [getElem?_insertNode] at hNode
  split at hNode
  · cases hNode
    cases hLayout
  · exact hShallow other node layout hNode hLayout

theorem Shallow.modifyNode (hShallow : topology.Shallow) (id : NodeId) (change : Node → Node)
    (hChange : ∀ node layout, (change node).layout = some layout →
      node.layout = some layout ∨ layout.dimensions.length ≤ Limits.dimensions) :
    (topology.modifyNode id change).Shallow := by
  intro other node layout hNode hLayout
  rw [getElem?_modifyNode] at hNode
  split at hNode
  · obtain ⟨before, hBefore, rfl⟩ := Option.map_eq_some_iff.mp hNode
    rcases hChange before layout hLayout with hKept | hFew
    · exact hShallow id before layout hBefore hKept
    · exact hFew
  · exact hShallow other node layout hNode hLayout

/-- A new node is not watched yet. -/
theorem watchedLayout?_insertNode (hFree : topology.nodes[id]? = none) (other : NodeId)
    (declaration : NodeDeclaration) (number : UInt16) (chosenByCaller : Bool) :
    (topology.insertNode id declaration number chosenByCaller).watchedLayout? other
      = topology.watchedLayout? other := by
  unfold watchedLayout?
  rw [getElem?_insertNode]
  split
  · next hSame =>
      subst hSame
      rw [hFree]
      exact ite_self none
  · rfl

theorem Marked.insertNode {autoflush : Bool} (hMarked : topology.Marked autoflush other)
    (hFree : topology.nodes[id]? = none) (declaration : NodeDeclaration) (number : UInt16)
    (chosenByCaller : Bool) :
    (topology.insertNode id declaration number chosenByCaller).Marked autoflush other := by
  obtain ⟨node, hNode, hAttribute⟩ := hMarked
  unfold Marked
  rw [getElem?_insertNode]
  split
  · next hSame =>
      subst hSame
      rw [hFree] at hNode
      cases hNode
  · exact ⟨node, hNode, hAttribute⟩

/-- A checked layout is one for a node that has none. -/
theorem ofDimensions_of_checkLayout {dimensions : List UInt32} {layout : Layout}
    (hChecked : topology.checkLayout id dimensions = .ok layout) :
    Layout.ofDimensions id dimensions = .ok layout ∧
      ∃ node, topology.nodes[id]? = some node ∧ node.layout = none := by
  unfold checkLayout at hChecked
  obtain ⟨node, hNode, hRest⟩ := ok_of_bind hChecked
  dsimp only at hRest
  split at hRest
  · cases hRest
  · next hNoLayout =>
      exact ⟨hRest, node, node_eq_ok hNode, Option.not_isSome_iff_eq_none.mp hNoLayout⟩

theorem checkLayout_dimensions {dimensions : List UInt32} {layout : Layout}
    (hChecked : topology.checkLayout id dimensions = .ok layout) :
    topology.nodes.contains id = true ∧ layout.dimensions = dimensions ∧
      dimensions.length ≤ Limits.dimensions := by
  obtain ⟨hLayout, node, hNode, _⟩ := ofDimensions_of_checkLayout hChecked
  obtain ⟨rfl, hFew, _⟩ := Layout.ofDimensions_eq_ok hLayout
  exact ⟨contains_of_node hNode, rfl, hFew⟩

theorem checkLayout_eq_ok {dimensions : List UInt32} {layout : Layout}
    (hChecked : topology.checkLayout id dimensions = .ok layout) :
    layout.Roomy ∧ ∃ node, topology.nodes[id]? = some node ∧ node.layout = none := by
  obtain ⟨hLayout, hNode⟩ := ofDimensions_of_checkLayout hChecked
  exact ⟨Layout.roomy_ofDimensions hLayout, hNode⟩

/-- A position that the topology accepts is one of a watched node, or of a node
that is no autoflush node. -/
theorem checkPosition_eq_ok {position : List UInt32}
    (hChecked : topology.checkPosition id position = .ok ()) :
    topology.Unwatched id ∨
      ∃ layout, topology.watchedLayout? id = some layout ∧ layout.Contains position := by
  unfold checkPosition at hChecked
  obtain ⟨node, hNode, hRest⟩ := ok_of_bind hChecked
  have hKnown := node_eq_ok hNode
  cases hAutoflush : node.autoflush with
  | false => exact .inl ⟨node, hKnown, hAutoflush⟩
  | true =>
      have hWatched := watchedLayout?_of_node hKnown
      rw [if_pos hAutoflush] at hWatched
      split at hRest
      · next layout hLayout =>
          exact .inr ⟨layout, hWatched.trans hLayout, Layout.contains_of_checkPosition hRest⟩
      · rw [if_pos hAutoflush] at hRest
        cases hRest

/-- A position that the topology accepts belongs to a node that exists, and has
few dimensions if layouts do. -/
theorem checkPosition_length {position : List UInt32}
    (hChecked : topology.checkPosition id position = .ok ()) :
    topology.nodes.contains id = true ∧
      (topology.Shallow → position.length ≤ Limits.dimensions) := by
  unfold checkPosition at hChecked
  obtain ⟨node, hNode, hRest⟩ := ok_of_bind hChecked
  have hKnown := node_eq_ok hNode
  refine ⟨contains_of_node hKnown, ?_⟩
  intro hShallow
  split at hRest
  · next layout hLayout =>
      have hContains := Layout.contains_of_checkPosition hRest
      rw [List.Forall₂.length_eq hContains]
      exact hShallow id node layout hKnown hLayout
  · by_cases hAutoflush : node.autoflush = true
    · rw [if_pos hAutoflush] at hRest
      cases hRest
    · rw [if_neg hAutoflush] at hRest
      by_cases hMany : position.length > Limits.dimensions
      · rw [if_pos hMany] at hRest
        cases hRest
      · exact Nat.le_of_not_gt hMany

end Nodes

/-! ### Parts -/

/-- The topology has a part that was declared. -/
def Has (topology : Topology) : Part → Prop
  | .node id => topology.nodes.contains id = true
  | .edge id => topology.edges.contains id = true
  | .clock id => topology.clocks.contains id = true

section Parts

variable {topology : Topology} {part : Part}

theorem has_insertNode {id : NodeId} {declaration : NodeDeclaration} {number : UInt16}
    {chosenByCaller : Bool} :
    (topology.insertNode id declaration number chosenByCaller).Has part
      ↔ part = .node id ∨ topology.Has part := by
  cases part with
  | node other =>
      simp only [Has, insertNode, Std.TreeMap.contains_insert, Bool.or_eq_true, beq_iff_eq,
        Std.compare_eq_iff_eq, Part.node.injEq, @eq_comm _ other id]
  | edge other => simp [Has, insertNode]
  | clock other => simp [Has, insertNode]

theorem has_insertEdge {id : EdgeId} {declaration : EdgeDeclaration} {chosenByCaller : Bool} :
    (topology.insertEdge id declaration chosenByCaller).Has part
      ↔ part = .edge id ∨ topology.Has part := by
  cases part with
  | edge other =>
      simp only [Has, insertEdge, Std.TreeMap.contains_insert, Bool.or_eq_true, beq_iff_eq,
        Std.compare_eq_iff_eq, Part.edge.injEq, @eq_comm _ other id]
  | node other => simp [Has, insertEdge]
  | clock other => simp [Has, insertEdge]

theorem has_insertClock {id : ClockId} {declaration : ClockDeclaration} :
    (topology.insertClock id declaration).Has part ↔ part = .clock id ∨ topology.Has part := by
  cases part with
  | clock other =>
      simp only [Has, insertClock, Std.TreeMap.contains_insert, Bool.or_eq_true, beq_iff_eq,
        Std.compare_eq_iff_eq, Part.clock.injEq, @eq_comm _ other id]
  | node other => simp [Has, insertClock]
  | edge other => simp [Has, insertClock]

theorem has_modifyNode {id : NodeId} {change : Node → Node} :
    (topology.modifyNode id change).Has part ↔ topology.Has part := by
  cases part with
  | node other => simp [Has, modifyNode, Std.TreeMap.contains_modify]
  | edge other => exact Iff.rfl
  | clock other => exact Iff.rfl

/-- The bandwidth of an edge that exists. -/
def bandwidth? (topology : Topology) (id : EdgeId) : Option UInt32 :=
  topology.edges[id]?.map (·.bandwidth)

/-- A checked edge takes no other's place. -/
theorem bandwidth?_insertEdge {id other : EdgeId} {declaration : EdgeDeclaration}
    {chosenByCaller : Bool} {bandwidth : UInt32} (hFree : topology.edges.contains id = false)
    (hBandwidth : topology.bandwidth? other = some bandwidth) :
    (topology.insertEdge id declaration chosenByCaller).bandwidth? other = some bandwidth := by
  have hOther : id ≠ other := by
    rintro rfl
    rw [Std.TreeMap.contains_eq_isSome_getElem?] at hFree
    rw [bandwidth?, Option.not_isSome_iff_eq_none.mp (Bool.eq_false_iff.mp hFree)] at hBandwidth
    cases hBandwidth
  unfold bandwidth? insertEdge
  simp only [Std.TreeMap.getElem?_insert, Std.compare_eq_iff_eq, if_neg hOther]
  exact hBandwidth

end Parts
end Topology
end Structure

end CycleTrace
