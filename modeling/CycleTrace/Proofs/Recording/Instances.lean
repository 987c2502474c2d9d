/-
Instance numbers that a recorder chooses.

For every name the highest number is kept, and it is the highest one among the
nodes of that name, whether their numbers were chosen by the recorder or by the
caller. So a number that the recorder chooses is above those of all nodes of the
name, as long as there is a number above them. When one of them has the last
number, 65535, the new node gets that number as well.
-/

import CycleTrace.Lz4.StoredBlocks
import CycleTrace.Proofs.Recording.KnownStructure
import CycleTrace.Proofs.Recording.Steps

namespace CycleTrace
namespace Structure

/-- The name and the instance number of a node. -/
def Topology.label? (topology : Topology) (id : NodeId) : Option (String × UInt16) :=
  topology.nodes[id]?.map fun node => (node.name, node.instanceNumber)

/-- The number kept for a name is that of a node of the name, and no node of the
name has a higher one. -/
structure InstanceNumbers.Describes (numbers : InstanceNumbers) (topology : Topology) : Prop where
  bounds : ∀ id name number, topology.label? id = some (name, number) →
    ∃ highest, numbers.highest[name]? = some highest ∧ number ≤ highest
  attained : ∀ name highest, numbers.highest[name]? = some highest →
    ∃ id, topology.label? id = some (name, highest)

section Labels

variable {numbers : InstanceNumbers} {topology : Topology} {id : NodeId}

theorem Topology.label?_insertNode (other : NodeId) (declaration : NodeDeclaration)
    (number : UInt16) (chosenByCaller : Bool) :
    (topology.insertNode id declaration number chosenByCaller).label? other
      = if id = other then some (declaration.name, number) else topology.label? other := by
  unfold label?
  rw [getElem?_insertNode]
  split <;> rfl

theorem Topology.label?_modifyNode {change : Node → Node}
    (hSame : ∀ node, (change node).name = node.name ∧
      (change node).instanceNumber = node.instanceNumber) (other : NodeId) :
    (topology.modifyNode id change).label? other = topology.label? other := by
  unfold label?
  rw [getElem?_modifyNode]
  split
  · next hId =>
      subst hId
      rw [Option.map_map]
      congr 1
      funext node
      obtain ⟨hName, hNumber⟩ := hSame node
      exact Prod.ext hName hNumber
  · rfl

theorem Topology.Keeps.label? {later : Topology} (hKeeps : topology.Keeps later)
    {label : String × UInt16} (hLabel : topology.label? id = some label) :
    later.label? id = some label := by
  obtain ⟨node, hNode, rfl⟩ := Option.map_eq_some_iff.mp hLabel
  obtain ⟨revised, hRevised, hSame⟩ := hKeeps.nodes id node hNode
  unfold Topology.label?
  rw [hRevised, Option.map_some, hSame.name, hSame.instanceNumber]

theorem InstanceNumbers.highest_record_other {name other : String} (hOther : name ≠ other)
    (number : UInt16) :
    (numbers.record name number).highest[other]? = numbers.highest[other]? := by
  simp only [record, Std.TreeMap.getElem?_insert, Std.compare_eq_iff_eq, if_neg hOther]

/-- The number kept is the higher one of the number kept before and the one that is noted. -/
theorem InstanceNumbers.highest_record (numbers : InstanceNumbers) (name : String)
    (number : UInt16) :
    ∃ highest, (numbers.record name number).highest[name]? = some highest ∧ number ≤ highest ∧
      (∀ known, numbers.highest[name]? = some known → known ≤ highest) ∧
      (highest = number ∨ numbers.highest[name]? = some highest) := by
  unfold record
  simp only [Std.TreeMap.getElem?_insert_self, Std.TreeMap.getD_eq_getD_getElem?]
  cases numbers.highest[name]? with
  | none => exact ⟨number, by simp, UInt16.le_refl number, nofun, .inl rfl⟩
  | some known =>
      refine ⟨if known < number then number else known, rfl, ?_⟩
      split
      · next hLess =>
          refine ⟨UInt16.le_refl number, ?_, .inl rfl⟩
          rintro _ ⟨⟩
          exact UInt16.le_of_lt hLess
      · next hNotLess =>
          refine ⟨UInt16.not_lt.mp hNotLess, ?_, .inr rfl⟩
          rintro _ ⟨⟩
          exact UInt16.le_refl known

namespace InstanceNumbers

theorem describes_initial : ({} : InstanceNumbers).Describes {} where
  bounds := nofun
  attained := nofun

theorem Describes.congr {later : Topology} (hDescribes : numbers.Describes topology)
    (hSame : ∀ id, later.label? id = topology.label? id) : numbers.Describes later where
  bounds id name number hLabel := hDescribes.bounds id name number ((hSame id).symm.trans hLabel)
  attained name highest hHighest := by
    obtain ⟨id, hLabel⟩ := hDescribes.attained name highest hHighest
    exact ⟨id, (hSame id).trans hLabel⟩

theorem Describes.insertNode (hDescribes : numbers.Describes topology)
    (hFree : topology.nodes[id]? = none) (declaration : NodeDeclaration) (number : UInt16)
    (chosenByCaller : Bool) :
    (numbers.record declaration.name number).Describes
      (topology.insertNode id declaration number chosenByCaller) := by
  obtain ⟨highest, hRecorded, hNumber, hKnown, hFrom⟩ :=
    numbers.highest_record declaration.name number
  constructor
  · intro other name lower hLabel
    rw [Topology.label?_insertNode] at hLabel
    split at hLabel
    · cases hLabel
      exact ⟨highest, hRecorded, hNumber⟩
    · obtain ⟨known, hBefore, hLower⟩ := hDescribes.bounds other name lower hLabel
      by_cases hName : declaration.name = name
      · subst hName
        exact ⟨highest, hRecorded, UInt16.le_trans hLower (hKnown known hBefore)⟩
      · exact ⟨known, (highest_record_other hName number).trans hBefore, hLower⟩
  · intro name kept hKept
    -- a node that was there before keeps its place
    have hBefore (hAlready : numbers.highest[name]? = some kept) :
        ∃ other, (topology.insertNode id declaration number chosenByCaller).label? other
          = some (name, kept) := by
      obtain ⟨other, hLabel⟩ := hDescribes.attained name kept hAlready
      refine ⟨other, ?_⟩
      rw [Topology.label?_insertNode, if_neg, hLabel]
      rintro rfl
      unfold Topology.label? at hLabel
      rw [hFree] at hLabel
      cases hLabel
    by_cases hName : declaration.name = name
    · subst hName
      obtain rfl := Option.some.inj (hRecorded.symm.trans hKept)
      rcases hFrom with rfl | hAlready
      · exact ⟨id, by rw [Topology.label?_insertNode, if_pos rfl]⟩
      · exact hBefore hAlready
    · exact hBefore ((highest_record_other hName number).symm.trans hKept)

/-- The next number of a name is above those of its nodes, or one of them has the last number. -/
theorem Describes.next_above (hDescribes : numbers.Describes topology) (name : String) :
    (∀ id number, topology.label? id = some (name, number) → number < numbers.next name) ∨
    numbers.next name = 65535 ∧ ∃ id, topology.label? id = some (name, 65535) := by
  cases hKept : numbers.highest[name]? with
  | none =>
      refine .inl fun id number hLabel => ?_
      obtain ⟨highest, hHighest, _⟩ := hDescribes.bounds id name number hLabel
      rw [hKept] at hHighest
      cases hHighest
  | some highest =>
      have hNext : numbers.next name = if highest = 65535 then highest else highest + 1 := by
        unfold next
        rw [hKept]
      rw [hNext]
      split
      · next hLast =>
          subst hLast
          exact .inr ⟨rfl, hDescribes.attained name 65535 hKept⟩
      · next hNotLast =>
          refine .inl fun id number hLabel => ?_
          obtain ⟨_, hHighest, hNumber⟩ := hDescribes.bounds id name number hLabel
          obtain rfl := Option.some.inj (hKept.symm.trans hHighest)
          grind

end InstanceNumbers
end Labels
end Structure

namespace Recording

open Output (Directory)
open Structure (NodeDeclaration)

namespace Machine

variable {machine : Machine} {circumstances : Circumstances} {event : Event} {plan : Plan}

/-- The highest numbers that a machine keeps are those of its nodes. -/
def Numbered (machine : Machine) : Prop :=
  machine.instances.Describes machine.topology

theorem Accepts.numbered (hAccepts : machine.Accepts circumstances event plan)
    (hNumbered : machine.Numbered) : plan.machine.Numbered := by
  cases hAccepts with
  | newNode hChecked =>
      exact hNumbered.insertNode (Structure.Topology.checkNode_free hChecked) _ _ _
  | newEdge hChecked => exact hNumbered.congr fun _ => rfl
  | newClock hChecked => exact hNumbered.congr fun _ => rfl
  | setLayout hChecked hNode =>
      exact hNumbered.congr (Structure.Topology.label?_modifyNode fun _ => ⟨rfl, rfl⟩)
  | setClock hNode hClock =>
      exact hNumbered.congr (Structure.Topology.label?_modifyNode fun _ => ⟨rfl, rfl⟩)
  | setInputBandwidth hNode =>
      exact hNumbered.congr (Structure.Topology.label?_modifyNode fun _ => ⟨rfl, rfl⟩)
  | setOutputBandwidth hNode =>
      exact hNumbered.congr (Structure.Topology.label?_modifyNode fun _ => ⟨rfl, rfl⟩)
  | tagNode =>
      dsimp only
      split <;> exact hNumbered
  | clockedCycle hClock hNew hPlan =>
      subst hPlan
      exact hNumbered
  | _ => exact hNumbered

end Machine

namespace History

section Codec

variable [Lz4.Codec] {history : History}

theorem Consistent.numbered (hConsistent : history.Consistent)
    (hNumbered : history.recorder.machine.Numbered) (call : Call) :
    (history.after call).recorder.machine.Numbered := by
  have hStep := step_after hConsistent call
  generalize history.after call = next at hStep ⊢
  cases hStep with
  | recorded hPlan => exact (Machine.accepts_of_plan hPlan).numbered hNumbered
  | noted hPlan => exact (Machine.accepts_of_plan hPlan).numbered hNumbered
  | _ => exact hNumbered

theorem Consistent.numberedAll (hConsistent : history.Consistent)
    (hNumbered : history.recorder.machine.Numbered) (calls : List Call) :
    (history.afterAll calls).recorder.machine.Numbered := by
  induction calls generalizing history with
  | nil => exact hNumbered
  | cons call calls ih =>
      exact ih (hConsistent.after call) (hConsistent.numbered hNumbered call)

/-- A node whose instance number the recorder chooses gets one above those of all
nodes of its name that were created before it, unless one of them has the last number. -/
theorem chosen_instance_above {settings : Settings} {directory : Directory} {calls : List Call}
    {declaration : NodeDeclaration} {id? : Option NodeId} {id : NodeId} {persistent : Bool}
    (hChoice : declaration.instanceChoice = .next)
    (hAnswer : Recorder.answer (Recorder.perform (.report (.newNode declaration id?) persistent)
      ((start settings directory).afterAll calls).recorder) = .ok (.node id)) :
    let history := (start settings directory).afterAll calls
    let report := Call.report (.newNode declaration id?) persistent
    ∃ number,
      (history.after report).topology.label? id = some (declaration.name, number) ∧
      history.recorder.dispatchesOf report
        = [⟨.newNode id declaration.name declaration.parent number, persistent, false⟩] ∧
      ((∀ earlier, earlier <+: calls → ∀ other lower,
          ((start settings directory).afterAll earlier).topology.label? other
            = some (declaration.name, lower) → lower < number) ∨
        number = 65535 ∧
          ∃ other, history.topology.label? other = some (declaration.name, 65535)) := by
  intro history report
  have hStart := consistent_start settings directory
  have hConsistent : history.Consistent := hStart.afterAll calls
  have hNumbered : history.recorder.machine.Numbered :=
    hStart.numberedAll Structure.InstanceNumbers.describes_initial calls
  obtain ⟨plan, hPlan, hReply, hMachine⟩ := hConsistent.granted_report hAnswer
  have hAccepts := Machine.accepts_of_plan hPlan
  cases hAccepts with
  | newNode hChecked =>
      cases hReply
      have hNumber : history.recorder.machine.instanceNumber declaration
          = history.recorder.machine.instances.next declaration.name := by
        unfold Machine.instanceNumber
        rw [hChoice]
      refine ⟨_, ?_, Recorder.dispatchesOf_report hPlan, ?_⟩
      · unfold topology
        rw [hMachine]
        exact (Structure.Topology.label?_insertNode id _ _ _).trans (if_pos rfl)
      · rw [hNumber]
        refine (hNumbered.next_above declaration.name).imp_left fun hAbove => ?_
        rintro earlier ⟨rest, rfl⟩ other lower hLabel
        have hGrows := (hStart.afterAll earlier).growsAll rest
        rw [← afterAll_append] at hGrows
        exact hAbove other lower (hGrows.keeps.label? hLabel)

end Codec

/-- The numbers that the caller chose count as well, in any order and dropped or not. -/
theorem chosen_instance_above_given :
    let given (number : UInt16) : NodeDeclaration :=
      { name := "alu", instanceChoice := .fixed number }
    let chosen (name : String) : NodeDeclaration := { name, instanceChoice := .next }
    let history := (start {} {}).afterAll [.report (.newNode (given 3) none) true,
      .report (.newNode (given 1) (some 7)) false, .report (.newNode (chosen "fpu") none) true]
    let next := history.after (.report (.newNode (chosen "alu") none) true)
    ∃ number, next.topology.label? 2 = some ("alu", number) ∧ 3 < number := by
  intro given chosen history next
  have hAnswer : Recorder.answer (Recorder.perform (.report (.newNode (chosen "alu") none) true)
      history.recorder) = .ok (.node 2) := by decide +kernel
  have hKnown : history.topology.label? 0 = some ("alu", 3) := by decide +kernel
  have hNext : next.topology.label? 2 = some ("alu", 4) := by decide +kernel
  obtain ⟨number, hLabel, _, hAbove⟩ := chosen_instance_above rfl hAnswer
  obtain rfl : 4 = number := (Prod.mk.inj (Option.some.inj (hNext.symm.trans hLabel))).2
  rcases hAbove with hAbove | ⟨hLast, _⟩
  · exact ⟨4, hLabel, hAbove _ (List.prefix_refl _) 0 3 hKnown⟩
  · cases hLast

/-- After a node with the last number, a node of its name is given that number again. -/
theorem chosen_instance_repeated :
    let given : NodeDeclaration := { name := "alu", instanceChoice := .fixed 65535 }
    let chosen : NodeDeclaration := { name := "alu", instanceChoice := .next }
    let history := (start {} {}).afterAll [.report (.newNode given none) true]
    let report := Call.report (.newNode chosen none) true
    Recorder.answer (Recorder.perform report history.recorder) = .ok (.node 1) ∧
      history.topology.label? 0 = some ("alu", 65535) ∧
      (history.after report).topology.label? 1 = some ("alu", 65535) := by
  decide +kernel

end History
end Recording
end CycleTrace
