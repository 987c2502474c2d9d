/-
The identifiers that a recorder gives out.

A call that is answered with the identifier of a node, an edge or a clock domain
has issued that part. What calls issue in order is what their topology was built
from, whatever else they do and however many of them fail.
-/

import CycleTrace.Lz4.StoredBlocks
import CycleTrace.Proofs.Recording.Acceptance
import CycleTrace.Proofs.Recording.Steps
import CycleTrace.Proofs.Structure.Identifiers

namespace CycleTrace
namespace Recording

open Output (Directory stateAfter)
open Structure (Topology NodeDeclaration EdgeDeclaration ClockDeclaration Part LeastFree)
open Structure.Topology (Built Allocates)

/-- The part whose identifier a reply tells. -/
def Reply.part? : Reply → Option Part
  | .node id => some (.node id)
  | .edge id => some (.edge id)
  | .clock id => some (.clock id)
  | _ => none

/-- The part that an answer issues. -/
def issuedBy? (answer : Except Fault Reply) : Option Part :=
  answer.toOption.bind Reply.part?

/-- The parts that calls issue, in order. -/
def Recorder.issued [Lz4.Codec] (recorder : Recorder) (calls : List Call) : List Part :=
  (recorder.answers calls).filterMap issuedBy?

namespace Machine

variable {machine : Machine} {circumstances : Circumstances} {event : Event} {plan : Plan}
  {issued : List Part}

/-- An accepted event issues at most one part, the one it puts into the topology. -/
theorem Accepts.built (hAccepts : machine.Accepts circumstances event plan)
    (hBuilt : Built issued machine.topology) :
    Built (issued ++ plan.reply.part?.toList) plan.machine.topology := by
  have hUnissued {topology : Topology} (hSame : Built issued topology) :
      Built (issued ++ []) topology := by
    rwa [List.append_nil]
  cases hAccepts with
  | newNode hChecked => exact hBuilt.node hChecked _
  | newEdge hChecked => exact hBuilt.edge hChecked
  | newClock hChecked => exact hBuilt.clock hChecked
  | setLayout hChecked => exact hUnissued (hBuilt.modified _ _)
  | setClock hNode hClock => exact hUnissued (hBuilt.modified _ _)
  | setInputBandwidth hNode => exact hUnissued (hBuilt.modified _ _)
  | setOutputBandwidth hNode => exact hUnissued (hBuilt.modified _ _)
  | tagNode =>
      dsimp only
      split <;> exact hUnissued hBuilt
  | clockedCycle hClock hNew hPlan =>
      subst hPlan
      exact hUnissued hBuilt
  | _ => exact hUnissued hBuilt

theorem newNode_reply (persistent : Bool) (declaration : NodeDeclaration) (id? : Option NodeId) :
    (machine.newNode persistent declaration id?).map (·.reply)
      = (machine.topology.checkNode declaration id?).map .node := by
  unfold newNode
  cases machine.topology.checkNode declaration id? <;> rfl

theorem newEdge_reply (persistent : Bool) (declaration : EdgeDeclaration) (id? : Option EdgeId) :
    (machine.newEdge persistent declaration id?).map (·.reply)
      = (machine.topology.checkEdge declaration id?).map .edge := by
  unfold newEdge
  cases machine.topology.checkEdge declaration id? <;> rfl

theorem newClock_reply (persistent : Bool) (declaration : ClockDeclaration) :
    (machine.newClock persistent declaration).map (·.reply)
      = (machine.topology.checkClock declaration).map .clock := by
  unfold newClock
  cases machine.topology.checkClock declaration <;> rfl

end Machine

namespace History

variable [Lz4.Codec] {history : History} {issued : List Part}

/-- Only reports issue parts. -/
theorem Consistent.unissued (hConsistent : history.Consistent) {call : Call}
    (hOther : ∀ event persistent, call ≠ .report event persistent) :
    issuedBy? (Recorder.answer (Recorder.perform call history.recorder)) = none := by
  cases call with
  | report event persistent => exact absurd rfl (hOther event persistent)
  | turnOn =>
      rcases Recorder.turnOn_cases hConsistent.ready with hOn | ⟨hOff, hOpen⟩ |
        ⟨hOff, hClosed, name, begun, _, hBegin, hBegun⟩ | ⟨_, _, fault, hNoFile⟩
      · rw [Recorder.turnOn_ignored hOn]
        rfl
      · obtain ⟨encoder, tally, hTurnOn, _⟩ := Recorder.turnOn_open hOff hOpen
        rw [hTurnOn]
        rfl
      · obtain ⟨encoder, tally, hTurnOn, _⟩ :=
          Recorder.turnOn_begin hOff hClosed hBegin hBegun.isOpen
        rw [hTurnOn]
        rfl
      · rw [hNoFile]
        rfl
  | turnOff =>
      cases hOn : history.recorder.on with
      | false =>
          rw [Recorder.turnOff_ignored hOn]
          rfl
      | true =>
          rw [Recorder.turnOff_on hOn]
          rfl
  | changeFile name =>
      cases hOn : history.recorder.on with
      | true =>
          rw [Recorder.changeFile_ignored hOn]
          rfl
      | false =>
          rw [Recorder.changeFile_off hOn]
          rfl
  | setTextForm text =>
      cases hOn : history.recorder.on with
      | true =>
          rw [Recorder.setTextForm_ignored hOn]
          rfl
      | false =>
          by_cases hSame : history.recorder.settings.text = text
          · rw [Recorder.setTextForm_same hOn hSame]
            rfl
          · rw [Recorder.setTextForm_other hOn hSame]
            rfl
  | flush => rfl
  | close => rfl
  | attachArchive data => rfl

/-- A call issues what its topology is built from further. -/
theorem Consistent.built (hConsistent : history.Consistent) (call : Call)
    (hBuilt : Built issued history.topology) :
    Built (issued ++ (issuedBy? (Recorder.answer
        (Recorder.perform call history.recorder))).toList)
      (history.after call).topology := by
  -- a report that is refused and a call of another kind leave the topology alone
  have hSame (hNone : issuedBy? (Recorder.answer (Recorder.perform call history.recorder)) = none)
      (hTopology : (history.after call).topology = history.topology) :
      Built (issued ++ (issuedBy? (Recorder.answer
          (Recorder.perform call history.recorder))).toList)
        (history.after call).topology := by
    rw [hNone, hTopology, Option.toList_none, List.append_nil]
    exact hBuilt
  by_cases hReport : ∃ event persistent, call = .report event persistent
  · obtain ⟨event, persistent, rfl⟩ := hReport
    cases hPlan : history.recorder.planned event persistent with
    | error fault =>
        have hRefused := Recorder.report_refused hConsistent.isOpen hPlan
        refine hSame ?_ ?_
        · rw [hRefused]
          rfl
        · change (stateAfter (Recorder.perform _ history.recorder)).machine.topology = _
          rw [hRefused]
          rfl
    | ok plan =>
        obtain ⟨next, hNext, hMachine⟩ := hConsistent.answer_report hPlan
        change Built _ (stateAfter (Recorder.perform _ history.recorder)).machine.topology
        rw [hNext, show (stateAfter (.ok plan.reply next)).machine = plan.machine from hMachine]
        exact (Machine.accepts_of_plan hPlan).built hBuilt
  · have hOther (event : Event) (persistent : Bool) : call ≠ .report event persistent :=
      fun hCall => hReport ⟨event, persistent, hCall⟩
    refine hSame (hConsistent.unissued hOther) ?_
    cases moves hConsistent call with
    | reports hCall => exact absurd hCall (hOther _ _)
    | begins _ _ hTopology _ => exact hTopology
    | rests _ hTopology _ => exact hTopology

theorem Consistent.builtAll (hConsistent : history.Consistent)
    (hBuilt : Built issued history.topology) (calls : List Call) :
    Built (issued ++ history.recorder.issued calls) (history.afterAll calls).topology := by
  induction calls generalizing history issued with
  | nil =>
      rw [show history.recorder.issued [] = [] from rfl, List.append_nil]
      exact hBuilt
  | cons call calls ih =>
      -- what the first call issues is moved from the calls to what was issued before
      have hLater := ih (hConsistent.after call) (hConsistent.built call hBuilt)
      rw [List.append_assoc] at hLater
      have hIssued : history.recorder.issued (call :: calls)
          = (issuedBy? (Recorder.answer (Recorder.perform call history.recorder))).toList
            ++ (history.after call).recorder.issued calls := by
        change List.filterMap _ (_ :: _) = _
        rw [List.filterMap_cons]
        cases issuedBy? (Recorder.answer (Recorder.perform call history.recorder)) with
        | none => rfl
        | some part => rfl
      rw [hIssued]
      exact hLater

end History

namespace Recorder

/-- An automatic identifier of a node or an edge is the least one that is free,
one that the caller chose is issued if it is free, and none is issued twice,
however the topology was built: by itself or by the calls of a recorder, whose
answers are those of the topology. -/
theorem identifiers_allotted [Lz4.Codec] :
    (∀ (issued : List Part) (topology : Topology), Built issued topology →
      issued.Nodup ∧ (∀ part, topology.Has part ↔ part ∈ issued) ∧ topology.Allocates) ∧
    ∀ (settings : Settings) (directory : Directory) (calls : List Call),
      let issued := (ofSettings settings directory).issued calls
      let recorder := (ofSettings settings directory).afterCalls calls
      let topology := recorder.machine.topology
      (issued.Nodup ∧ (∀ part, topology.Has part ↔ part ∈ issued) ∧ topology.Allocates) ∧
      (∀ declaration id? persistent,
        answer (perform (.report (.newNode declaration id?) persistent) recorder)
          = (topology.checkNode declaration id?).map .node) ∧
      (∀ declaration id? persistent,
        answer (perform (.report (.newEdge declaration id?) persistent) recorder)
          = (topology.checkEdge declaration id?).map .edge) ∧
      ∀ declaration persistent,
        answer (perform (.report (.newClock declaration) persistent) recorder)
          = (topology.checkClock declaration).map .clock := by
  have hTopologies (issued : List Part) (topology : Topology) (hBuilt : Built issued topology) :
      issued.Nodup ∧ (∀ part, topology.Has part ↔ part ∈ issued) ∧ topology.Allocates := by
    obtain ⟨hNodup, hHas⟩ := hBuilt.issued_once
    exact ⟨hNodup, hHas, hBuilt.packed.allocates⟩
  refine ⟨hTopologies, fun settings directory calls => ?_⟩
  have hStart := History.consistent_start settings directory
  have hBuilt := hStart.builtAll .empty calls
  have hConsistent := hStart.afterAll calls
  have hRecorder := History.recorder_afterAll (History.start settings directory) calls
  rw [List.nil_append] at hBuilt
  unfold History.topology at hBuilt
  rw [hRecorder] at hBuilt
  have hAnswer := hConsistent.answer_planned
  rw [hRecorder] at hAnswer
  refine ⟨hTopologies _ _ hBuilt, ?_, ?_, ?_⟩
  · intro declaration id? persistent
    exact (hAnswer _ _).trans (Machine.newNode_reply _ declaration id?)
  · intro declaration id? persistent
    exact (hAnswer _ _).trans (Machine.newEdge_reply _ declaration id?)
  · intro declaration persistent
    exact (hAnswer _ _).trans (Machine.newClock_reply _ declaration)

/-- A chosen identifier above the counter is passed over, and cannot be chosen again. -/
theorem identifiers_allotted_around_chosen :
    let declaration : NodeDeclaration := { name := "core" }
    let built : Topology := ({} : Topology).insertNode 1 declaration 0 true
    let calls : List Call := [.report (.newNode declaration (some 1)) true,
      .report (.newNode declaration none) false, .report (.newNode declaration (some 1)) true]
    let recorder := (ofSettings {} {}).afterCalls calls
    (built.checkNode declaration none = .ok 0 ∧ LeastFree built.nodes.contains 0 ∧
      [Part.node 1].Nodup) ∧
    (answer (perform (.report (.newNode declaration none) true) recorder) = .ok (.node 2) ∧
      LeastFree recorder.machine.topology.nodes.contains 2 ∧
      (ofSettings {} {}).issued calls = [.node 1, .node 0] ∧
      [Part.node 1, Part.node 0].Nodup) := by
  intro declaration built calls recorder
  have hChosen : ({} : Topology).checkNode declaration (some 1) = .ok 1 := rfl
  have hNext : built.checkNode declaration none = .ok 0 := by decide +kernel
  have hLater : recorder.machine.topology.checkNode declaration none = .ok 2 := by decide +kernel
  have hIssued : (ofSettings {} {}).issued calls = [.node 1, .node 0] := by decide +kernel
  obtain ⟨hTopologies, hCalls⟩ := identifiers_allotted
  obtain ⟨hOnce, _, hAllocates⟩ := hTopologies [.node 1] built (Built.empty.node hChosen 0)
  obtain ⟨⟨hNodup, _, hLaterAllocates⟩, hNode, _⟩ := hCalls {} {} calls
  have hPasses : built.PassesNode declaration := ⟨by decide +kernel, nofun⟩
  have hLaterPasses : recorder.machine.topology.PassesNode declaration :=
    ⟨by decide +kernel, nofun⟩
  rw [hIssued] at hNodup
  exact ⟨⟨hNext, ((hAllocates.nodes declaration hPasses).automatic 0).mp hNext, hOnce⟩,
    (hNode declaration none true).trans (congrArg (Except.map Reply.node) hLater),
    ((hLaterAllocates.nodes declaration hLaterPasses).automatic 2).mp hLater, hIssued, hNodup⟩

end Recorder
end Recording
end CycleTrace
