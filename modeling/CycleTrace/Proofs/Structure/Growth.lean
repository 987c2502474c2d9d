/-
How a topology grows.

A part is inserted after it was checked, and later only a few things are said of
a node: a layout once, its clock domain, its bandwidths. `Change` lists these
steps. What refers to another part is checked against the topology as it is
then, and nothing that was inserted is taken away or renamed, so references stay
good.

The parents of a node were there before it. Identifiers do not show this order,
because a caller may choose a smaller one for the child; `Rooted` follows the
parents instead, and every step keeps it.
-/

import CycleTrace.Proofs.Structure.Topology
import Mathlib.Logic.Relation

namespace CycleTrace
namespace Structure

/-! ### Layouts -/

/-- A layout with one to fifteen dimensions, none of them empty, whose capacity is
their product and fits a word. -/
structure Layout.Proper (layout : Layout) : Prop where
  some : layout.dimensions ≠ []
  few : layout.dimensions.length ≤ 15
  nonzero : ∀ size ∈ layout.dimensions, size ≠ 0
  fits : Layout.slotCount layout.dimensions < UInt64.size
  capacity : layout.capacity.toNat = Layout.slotCount layout.dimensions

theorem Layout.proper_ofDimensions {node : NodeId} {dimensions : List UInt32} {layout : Layout}
    (hLayout : ofDimensions node dimensions = .ok layout) : layout.Proper := by
  obtain ⟨rfl, hFew, hSome, hNonzero, hFits⟩ := ofDimensions_eq_ok hLayout
  refine ⟨hSome, hFew, fun size hSize hZero => ?_, hFits, Nat.mod_eq_of_lt hFits⟩
  exact hNonzero (hZero ▸ hSize)

/-- What stays of a node: all but its clock domain and its bandwidths, and its
layout once it has one. -/
structure Node.Revised (node revised : Node) : Prop where
  name : revised.name = node.name
  parent : revised.parent = node.parent
  instanceNumber : revised.instanceNumber = node.instanceNumber
  autoflush : revised.autoflush = node.autoflush
  relaxed : revised.relaxed = node.relaxed
  layout : ∀ layout, node.layout = some layout → revised.layout = some layout

theorem Node.Revised.refl (node : Node) : node.Revised node :=
  ⟨rfl, rfl, rfl, rfl, rfl, fun _ => id⟩

theorem Node.Revised.trans {node middle revised : Node} (hFirst : node.Revised middle)
    (hSecond : middle.Revised revised) : node.Revised revised where
  name := hSecond.name.trans hFirst.name
  parent := hSecond.parent.trans hFirst.parent
  instanceNumber := hSecond.instanceNumber.trans hFirst.instanceNumber
  autoflush := hSecond.autoflush.trans hFirst.autoflush
  relaxed := hSecond.relaxed.trans hFirst.relaxed
  layout := fun layout hLayout => hSecond.layout layout (hFirst.layout layout hLayout)

namespace Topology

/-! ### Steps -/

/-- What a checked declaration or a checked word about a node makes of a topology. -/
inductive Change (topology : Topology) : Topology → Prop
  | insertNode {declaration : NodeDeclaration} {id? : Option NodeId} {id : NodeId}
      (hChecked : topology.checkNode declaration id? = .ok id) (number : UInt16)
      (chosenByCaller : Bool) :
      Change topology (topology.insertNode id declaration number chosenByCaller)
  | insertEdge {declaration : EdgeDeclaration} {id? : Option EdgeId} {id : EdgeId}
      (hChecked : topology.checkEdge declaration id? = .ok id) (chosenByCaller : Bool) :
      Change topology (topology.insertEdge id declaration chosenByCaller)
  | insertClock {declaration : ClockDeclaration} {id : ClockId}
      (hChecked : topology.checkClock declaration = .ok id) :
      Change topology (topology.insertClock id declaration)
  | setLayout {id : NodeId} {dimensions : List UInt32} {layout : Layout}
      (hChecked : topology.checkLayout id dimensions = .ok layout) :
      Change topology (topology.modifyNode id ({ · with layout := some layout }))
  | setClock {id : NodeId} {clock : ClockId} (hNode : topology.requireNode id = .ok ())
      (hClock : topology.requireClock clock = .ok ()) :
      Change topology (topology.modifyNode id ({ · with clock }))
  | setInputBandwidth {id : NodeId} (hNode : topology.requireNode id = .ok ())
      (bandwidth : UInt32) :
      Change topology (topology.modifyNode id ({ · with inputBandwidth := some bandwidth }))
  | setOutputBandwidth {id : NodeId} (hNode : topology.requireNode id = .ok ())
      (bandwidth : UInt32) :
      Change topology (topology.modifyNode id ({ · with outputBandwidth := some bandwidth }))

/-- A topology after steps in order. -/
abbrev Grows (topology later : Topology) : Prop :=
  Relation.ReflTransGen Change topology later

/-! ### What stays -/

/-- Nothing that a topology has is gone or another later. -/
structure Keeps (topology later : Topology) : Prop where
  nodes : ∀ (id : NodeId) (node : Node), topology.nodes[id]? = some node →
    ∃ revised, later.nodes[id]? = some revised ∧ node.Revised revised
  edges : ∀ (id : EdgeId) (edge : Edge), topology.edges[id]? = some edge →
    later.edges[id]? = some edge
  clocks : ∀ (id : ClockId) (clock : Clock), topology.clocks[id]? = some clock →
    later.clocks[id]? = some clock

section Keeps

variable {topology middle later : Topology}

theorem Keeps.refl (topology : Topology) : topology.Keeps topology :=
  ⟨fun _ node hNode => ⟨node, hNode, .refl node⟩, fun _ _ => id, fun _ _ => id⟩

theorem Keeps.trans (hFirst : topology.Keeps middle) (hSecond : middle.Keeps later) :
    topology.Keeps later := by
  refine ⟨fun id node hNode => ?_, fun id edge hEdge => ?_, fun id clock hClock => ?_⟩
  · obtain ⟨between, hBetween, hRevised⟩ := hFirst.nodes id node hNode
    obtain ⟨revised, hLater, hAgain⟩ := hSecond.nodes id between hBetween
    exact ⟨revised, hLater, hRevised.trans hAgain⟩
  · exact hSecond.edges id edge (hFirst.edges id edge hEdge)
  · exact hSecond.clocks id clock (hFirst.clocks id clock hClock)

theorem exists_node {id : NodeId} (hContains : topology.nodes.contains id = true) :
    ∃ node, topology.nodes[id]? = some node := by
  rw [Std.TreeMap.contains_eq_isSome_getElem?] at hContains
  exact Option.isSome_iff_exists.mp hContains

theorem Keeps.contains (hKeeps : topology.Keeps later) {id : NodeId}
    (hContains : topology.nodes.contains id = true) : later.nodes.contains id = true := by
  obtain ⟨node, hNode⟩ := exists_node hContains
  obtain ⟨revised, hRevised, _⟩ := hKeeps.nodes id node hNode
  exact contains_of_node hRevised

theorem hasClock_iff {clock : ClockId} :
    topology.hasClock clock = true
      ↔ clock = defaultClock ∨ ∃ domain, topology.clocks[clock]? = some domain := by
  rw [hasClock, Bool.or_eq_true, beq_iff_eq, Std.TreeMap.contains_eq_isSome_getElem?,
    Option.isSome_iff_exists]

theorem Keeps.hasClock (hKeeps : topology.Keeps later) {clock : ClockId}
    (hClock : topology.hasClock clock = true) : later.hasClock clock = true := by
  rw [hasClock_iff] at hClock ⊢
  exact hClock.imp_right fun ⟨domain, hDomain⟩ => ⟨domain, hKeeps.clocks clock domain hDomain⟩

/-- A node that is new takes no other's place. -/
theorem keeps_insertNode {id : NodeId} (hFree : topology.nodes[id]? = none)
    (declaration : NodeDeclaration) (number : UInt16) (chosenByCaller : Bool) :
    topology.Keeps (topology.insertNode id declaration number chosenByCaller) := by
  refine ⟨fun other node hNode => ⟨node, ?_, .refl node⟩, fun _ _ hEdge => hEdge,
    fun _ _ hClock => hClock⟩
  have hOther : id ≠ other := by
    rintro rfl
    rw [hFree] at hNode
    cases hNode
  rw [getElem?_insertNode, if_neg hOther]
  exact hNode

theorem keeps_insertEdge {edge : EdgeId} (hFree : topology.edges.contains edge = false)
    (declaration : EdgeDeclaration) (chosenByCaller : Bool) :
    topology.Keeps (topology.insertEdge edge declaration chosenByCaller) := by
  refine ⟨fun _ node hNode => ⟨node, hNode, .refl node⟩, fun other known hKnown => ?_,
    fun _ _ => id⟩
  have hOther : edge ≠ other := by
    rintro rfl
    rw [Std.TreeMap.contains_eq_isSome_getElem?, hKnown] at hFree
    cases hFree
  simp only [insertEdge, Std.TreeMap.getElem?_insert, Std.compare_eq_iff_eq, if_neg hOther]
  exact hKnown

theorem keeps_insertClock {clock : ClockId} (hFree : topology.hasClock clock = false)
    (declaration : ClockDeclaration) :
    topology.Keeps (topology.insertClock clock declaration) := by
  refine ⟨fun _ node hNode => ⟨node, hNode, .refl node⟩, fun _ _ => id,
    fun other known hKnown => ?_⟩
  have hOther : clock ≠ other := by
    rintro rfl
    rw [hasClock_iff.mpr (.inr ⟨known, hKnown⟩)] at hFree
    cases hFree
  simp only [insertClock, Std.TreeMap.getElem?_insert, Std.compare_eq_iff_eq, if_neg hOther]
  exact hKnown

theorem keeps_modifyNode {id : NodeId} {change : Node → Node}
    (hRevised : ∀ node, topology.nodes[id]? = some node → node.Revised (change node)) :
    topology.Keeps (topology.modifyNode id change) := by
  refine ⟨fun other node hNode => ?_, fun _ _ hEdge => hEdge, fun _ _ hClock => hClock⟩
  rw [getElem?_modifyNode]
  split
  · next hSame =>
      subst hSame
      rw [hNode]
      exact ⟨change node, rfl, hRevised node hNode⟩
  · exact ⟨node, hNode, .refl node⟩

theorem Change.keeps (hChange : topology.Change later) : topology.Keeps later := by
  cases hChange with
  | insertNode hChecked => exact keeps_insertNode (checkNode_free hChecked) _ _ _
  | insertEdge hChecked => exact keeps_insertEdge (checkEdge_eq_ok hChecked).2.2.2 _ _
  | insertClock hChecked => exact keeps_insertClock (checkClock_eq_ok hChecked).2 _
  | setLayout hChecked =>
      obtain ⟨_, unset, hUnset, hNone⟩ := ofDimensions_of_checkLayout hChecked
      refine keeps_modifyNode fun node hNode => ⟨rfl, rfl, rfl, rfl, rfl, fun other hOther => ?_⟩
      rw [hUnset] at hNode
      cases hNode
      rw [hNone] at hOther
      cases hOther
  | setClock | setInputBandwidth | setOutputBandwidth =>
      exact keeps_modifyNode fun _ _ => ⟨rfl, rfl, rfl, rfl, rfl, fun _ => id⟩

theorem Grows.keeps (hGrows : topology.Grows later) : topology.Keeps later := by
  induction hGrows with
  | refl => exact .refl topology
  | tail _ hChange ih => exact ih.trans hChange.keeps

end Keeps

/-! ### Parents -/

/-- One node is the parent of another. -/
def ParentOf (topology : Topology) (parent child : NodeId) : Prop :=
  ∃ node, topology.nodes[child]? = some node ∧ node.parent = some parent

/-- Following the parents of a node ends at a node without one. -/
inductive Rooted (topology : Topology) : NodeId → Prop
  | root {id : NodeId} {node : Node} (hNode : topology.nodes[id]? = some node)
      (hParent : node.parent = none) : Rooted topology id
  | child {id parent : NodeId} {node : Node} (hNode : topology.nodes[id]? = some node)
      (hParent : node.parent = some parent) (hRooted : Rooted topology parent) :
      Rooted topology id

section Parents

variable {topology later : Topology} {id : NodeId}

theorem Rooted.contains (hRooted : topology.Rooted id) : topology.nodes.contains id = true := by
  cases hRooted with
  | root hNode hParent => exact contains_of_node hNode
  | child hNode hParent hRooted => exact contains_of_node hNode

theorem Rooted.mono (hRooted : topology.Rooted id) (hKeeps : topology.Keeps later) :
    later.Rooted id := by
  induction hRooted with
  | root hNode hParent =>
      obtain ⟨revised, hLater, hRevised⟩ := hKeeps.nodes _ _ hNode
      exact .root hLater (hRevised.parent.trans hParent)
  | child hNode hParent _ ih =>
      obtain ⟨revised, hLater, hRevised⟩ := hKeeps.nodes _ _ hNode
      exact .child hLater (hRevised.parent.trans hParent) ih

theorem Rooted.acc (hRooted : topology.Rooted id) : Acc topology.ParentOf id := by
  induction hRooted with
  | root hNode hParent =>
      refine ⟨_, fun parent ⟨node, hSame, hOf⟩ => ?_⟩
      rw [hNode] at hSame
      cases hSame
      rw [hParent] at hOf
      cases hOf
  | child hNode hParent _ ih =>
      refine ⟨_, fun parent ⟨node, hSame, hOf⟩ => ?_⟩
      rw [hNode] at hSame
      cases hSame
      rw [hParent] at hOf
      cases hOf
      exact ih

/-- Who can be followed to a root is not among its own forebears. -/
theorem Rooted.acyclic (hRooted : topology.Rooted id) :
    ¬ Relation.TransGen topology.ParentOf id id := by
  -- parents are accessible from below, and an accessible node is on no cycle
  have hIrreflexive {node : NodeId} (hAcc : Acc (Relation.TransGen topology.ParentOf) node) :
      ¬ Relation.TransGen topology.ParentOf node node := by
    induction hAcc with
    | intro node _ ih => exact fun hCycle => ih node hCycle hCycle
  exact hIrreflexive hRooted.acc.transGen

end Parents

/-! ### Integrity -/

/-- All references of a topology are good, and its layouts are. -/
structure Integral (topology : Topology) : Prop where
  parents : ∀ (id : NodeId) (node : Node) (parent : NodeId), topology.nodes[id]? = some node →
    node.parent = some parent → topology.nodes.contains parent = true
  rooted : ∀ id, topology.nodes.contains id = true → topology.Rooted id
  acyclic : ∀ id, ¬ Relation.TransGen topology.ParentOf id id
  ends : ∀ (id : EdgeId) (edge : Edge), topology.edges[id]? = some edge →
    topology.nodes.contains edge.source = true ∧ topology.nodes.contains edge.destination = true
  clocks : ∀ (id : NodeId) (node : Node), topology.nodes[id]? = some node →
    topology.hasClock node.clock = true
  layouts : ∀ (id : NodeId) (node : Node) (layout : Layout), topology.nodes[id]? = some node →
    node.layout = some layout → layout.Proper

section Integral

variable {topology later : Topology}

theorem integral_of_rooted
    (hRooted : ∀ id, topology.nodes.contains id = true → topology.Rooted id)
    (hEnds : ∀ (id : EdgeId) (edge : Edge), topology.edges[id]? = some edge →
      topology.nodes.contains edge.source = true ∧
        topology.nodes.contains edge.destination = true)
    (hClocks : ∀ (id : NodeId) (node : Node), topology.nodes[id]? = some node →
      topology.hasClock node.clock = true)
    (hLayouts : ∀ (id : NodeId) (node : Node) (layout : Layout),
      topology.nodes[id]? = some node → node.layout = some layout → layout.Proper) :
    topology.Integral := by
  refine ⟨fun id node parent hNode hParent => ?_, hRooted, fun id hCycle => ?_, hEnds, hClocks,
    hLayouts⟩
  · cases hRooted id (contains_of_node hNode) with
    | root hSame hNone =>
        rw [hNode] at hSame
        cases hSame
        rw [hNone] at hParent
        cases hParent
    | child hSame hOther hAbove =>
        rw [hNode] at hSame
        cases hSame
        rw [hOther] at hParent
        cases hParent
        exact hAbove.contains
  · -- the last step of the cycle leads to a node that exists
    obtain ⟨_, _, node, hNode, _⟩ := Relation.TransGen.tail'_iff.mp hCycle
    exact (hRooted id (contains_of_node hNode)).acyclic hCycle

theorem integral_initial : ({} : Topology).Integral := by
  have hNoNode (id : NodeId) : ({} : Topology).nodes[id]? = none := Std.TreeMap.getElem?_emptyc
  have hNoEdge (id : EdgeId) : ({} : Topology).edges[id]? = none := Std.TreeMap.getElem?_emptyc
  refine integral_of_rooted (fun id hContains => ?_) (fun id edge hEdge => ?_)
    (fun id node hNode => ?_) fun id node layout hNode => ?_
  · obtain ⟨node, hNode⟩ := exists_node hContains
    rw [hNoNode] at hNode
    cases hNode
  · rw [hNoEdge] at hEdge
    cases hEdge
  · rw [hNoNode] at hNode
    cases hNode
  · rw [hNoNode] at hNode
    cases hNode

/-- A node with its references: it was there already, or its parent was. -/
structure Admits (topology later : Topology) (id : NodeId) (node : Node) : Prop where
  clock : later.hasClock node.clock = true
  layout : ∀ layout, node.layout = some layout → layout.Proper
  order : topology.nodes.contains id = true ∨
    ∀ parent, node.parent = some parent → topology.nodes.contains parent = true

theorem Integral.admits (hIntegral : topology.Integral) (hKeeps : topology.Keeps later)
    {id : NodeId} {node : Node} (hNode : topology.nodes[id]? = some node) :
    topology.Admits later id node where
  clock := hKeeps.hasClock (hIntegral.clocks id node hNode)
  layout := fun layout hLayout => hIntegral.layouts id node layout hNode hLayout
  order := .inl (contains_of_node hNode)

theorem Integral.grown (hIntegral : topology.Integral) (hKeeps : topology.Keeps later)
    (hNodes : ∀ (id : NodeId) (node : Node), later.nodes[id]? = some node →
      topology.Admits later id node)
    (hEdges : ∀ (id : EdgeId) (edge : Edge), later.edges[id]? = some edge →
      topology.nodes.contains edge.source = true ∧
        topology.nodes.contains edge.destination = true) : later.Integral := by
  refine integral_of_rooted (fun id hContains => ?_)
    (fun id edge hEdge => (hEdges id edge hEdge).imp hKeeps.contains hKeeps.contains)
    (fun id node hNode => (hNodes id node hNode).clock)
    fun id node layout hNode => (hNodes id node hNode).layout layout
  obtain ⟨node, hNode⟩ := exists_node hContains
  -- an old chain of parents stays, and a new node only puts itself below one
  rcases (hNodes id node hNode).order with hKnown | hParents
  · exact (hIntegral.rooted id hKnown).mono hKeeps
  · cases hParent : node.parent with
    | none => exact .root hNode hParent
    | some parent =>
        exact .child hNode hParent ((hIntegral.rooted parent (hParents parent hParent)).mono hKeeps)

theorem Integral.insertNode (hIntegral : topology.Integral) {declaration : NodeDeclaration}
    {id? : Option NodeId} {id : NodeId} (hChecked : topology.checkNode declaration id? = .ok id)
    (number : UInt16) (chosenByCaller : Bool) :
    (topology.insertNode id declaration number chosenByCaller).Integral := by
  have hKeeps := (Change.insertNode hChecked number chosenByCaller).keeps
  refine hIntegral.grown hKeeps (fun other node hNode => ?_) hIntegral.ends
  rw [getElem?_insertNode] at hNode
  split at hNode
  · cases hNode
    refine ⟨hasClock_iff.mpr (.inl rfl), fun layout hLayout => ?_,
      .inr (checkNode_eq_ok hChecked).2.1⟩
    cases hLayout
  · exact hIntegral.admits hKeeps hNode

theorem Integral.insertEdge (hIntegral : topology.Integral) {declaration : EdgeDeclaration}
    {id? : Option EdgeId} {edge : EdgeId} (hChecked : topology.checkEdge declaration id? = .ok edge)
    (chosenByCaller : Bool) :
    (topology.insertEdge edge declaration chosenByCaller).Integral := by
  have hKeeps := (Change.insertEdge hChecked chosenByCaller).keeps
  refine hIntegral.grown hKeeps (fun other node hNode => hIntegral.admits hKeeps hNode) ?_
  intro other known hKnown
  simp only [Topology.insertEdge, Std.TreeMap.getElem?_insert, Std.compare_eq_iff_eq] at hKnown
  split at hKnown
  · cases hKnown
    obtain ⟨_, hSource, hDestination, _⟩ := checkEdge_eq_ok hChecked
    exact ⟨hSource, hDestination⟩
  · exact hIntegral.ends other known hKnown

/-- What is said of a node later refers to what is there. -/
theorem Integral.modifyNode (hIntegral : topology.Integral) {id : NodeId} {change : Node → Node}
    (hKeeps : topology.Keeps (topology.modifyNode id change))
    (hClock : ∀ node, (change node).clock = node.clock ∨
      topology.hasClock (change node).clock = true)
    (hLayout : ∀ node layout, (change node).layout = some layout →
      node.layout = some layout ∨ layout.Proper) :
    (topology.modifyNode id change).Integral := by
  refine hIntegral.grown hKeeps (fun other node hNode => ?_) hIntegral.ends
  rw [getElem?_modifyNode] at hNode
  split at hNode
  · next hSame =>
      subst hSame
      obtain ⟨before, hBefore, rfl⟩ := Option.map_eq_some_iff.mp hNode
      have hAdmits := hIntegral.admits hKeeps hBefore
      refine ⟨?_, fun layout hSet => ?_, .inl (contains_of_node hBefore)⟩
      · rcases hClock before with hSame | hKnown
        · rw [hSame]
          exact hAdmits.clock
        · exact hKeeps.hasClock hKnown
      · rcases hLayout before layout hSet with hKept | hProper
        · exact hAdmits.layout layout hKept
        · exact hProper
  · exact hIntegral.admits hKeeps hNode

theorem Integral.change (hIntegral : topology.Integral) (hChange : topology.Change later) :
    later.Integral := by
  have hKeeps := hChange.keeps
  cases hChange with
  | insertNode hChecked number chosenByCaller =>
      exact hIntegral.insertNode hChecked number chosenByCaller
  | insertEdge hChecked chosenByCaller => exact hIntegral.insertEdge hChecked chosenByCaller
  | insertClock hChecked =>
      exact hIntegral.grown hKeeps (fun _ _ hNode => hIntegral.admits hKeeps hNode) hIntegral.ends
  | @setLayout id dimensions layout hChecked =>
      have hProper := Layout.proper_ofDimensions (ofDimensions_of_checkLayout hChecked).1
      refine hIntegral.modifyNode hKeeps (fun _ => .inl rfl) fun _ other hOther => .inr ?_
      cases hOther
      exact hProper
  | setClock hNode hClock =>
      exact hIntegral.modifyNode hKeeps (fun _ => .inr (hasClock_of_requireClock hClock))
        fun _ _ => .inl
  | setInputBandwidth | setOutputBandwidth =>
      exact hIntegral.modifyNode hKeeps (fun _ => .inl rfl) fun _ _ => .inl

theorem Integral.grows (hIntegral : topology.Integral) (hGrows : topology.Grows later) :
    later.Integral := by
  induction hGrows with
  | refl => exact hIntegral
  | tail _ hChange ih => exact ih.change hChange

end Integral
end Topology
end Structure
end CycleTrace
