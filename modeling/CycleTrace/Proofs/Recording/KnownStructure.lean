/-
The structure that a recorder knows of.

A report that is accepted takes the topology one step on or leaves it alone, and
no other call touches it. So the topologies of a recorder are grown from the
empty one, with automatic identifiers and chosen ones in any order, and have what
all grown topologies have.
-/

import CycleTrace.Lz4.StoredBlocks
import CycleTrace.Proofs.Recording.Acceptance
import CycleTrace.Proofs.Recording.Runs
import CycleTrace.Proofs.Structure.Growth

namespace CycleTrace
namespace Recording

open Output (Directory)
open Structure (Topology)
open Structure.Topology (Grows)

namespace Machine

variable {machine : Machine} {circumstances : Circumstances} {event : Event} {plan : Plan}

theorem grows_of_change (hChange : machine.topology.Change plan.machine.topology) :
    Grows machine.topology plan.machine.topology :=
  .single hChange

/-- An accepted event is at most one step of the topology. -/
theorem Accepts.grows (hAccepts : machine.Accepts circumstances event plan) :
    Grows machine.topology plan.machine.topology := by
  cases hAccepts with
  | newNode hChecked => exact grows_of_change (.insertNode hChecked _ _)
  | newEdge hChecked => exact grows_of_change (.insertEdge hChecked _)
  | newClock hChecked => exact grows_of_change (.insertClock hChecked)
  | setLayout hChecked => exact grows_of_change (.setLayout hChecked)
  | setClock hNode hClock => exact grows_of_change (.setClock hNode hClock)
  | setInputBandwidth hNode => exact grows_of_change (.setInputBandwidth hNode _)
  | setOutputBandwidth hNode => exact grows_of_change (.setOutputBandwidth hNode _)
  | tagNode =>
      dsimp only
      split <;> exact .refl
  | clockedCycle hClock hNew hPlan =>
      subst hPlan
      exact .refl
  | _ => exact .refl

end Machine

namespace History

variable [Lz4.Codec] {history : History}

theorem Consistent.grows (hConsistent : history.Consistent) (call : Call) :
    Grows history.topology (history.after call).topology := by
  cases moves hConsistent call with
  | reports hCall hPlan hMachine =>
      unfold topology
      rw [hMachine]
      exact (Machine.accepts_of_plan hPlan).grows
  | begins _ _ hTopology _ =>
      rw [hTopology]
  | rests _ hTopology _ =>
      rw [hTopology]

theorem Consistent.growsAll (hConsistent : history.Consistent) (calls : List Call) :
    Grows history.topology (history.afterAll calls).topology := by
  induction calls generalizing history with
  | nil => exact .refl
  | cons call calls ih => exact (hConsistent.grows call).trans (ih (hConsistent.after call))

end History

namespace Recorder

section Codec

variable [Lz4.Codec]

theorem Reachable.grows {recorder : Recorder} (hReachable : recorder.Reachable)
    (calls : List Call) :
    Grows {} recorder.machine.topology ∧
      Grows recorder.machine.topology (recorder.afterCalls calls).machine.topology := by
  obtain ⟨settings, directory, earlier, rfl⟩ := hReachable
  have hStart := History.consistent_start settings directory
  have hBefore := hStart.growsAll earlier
  have hAfter := (hStart.afterAll earlier).growsAll calls
  unfold History.topology at hBefore hAfter
  rw [History.recorder_afterAll] at hBefore
  rw [History.recorder_afterAll _ calls, History.recorder_afterAll _ earlier] at hAfter
  exact ⟨hBefore, hAfter⟩

/-- The references of a topology are good, however it was grown from the empty
one: by steps of its own or by the calls of a recorder. Whatever becomes of it
later, nothing in it is gone or another. -/
theorem topology_integral :
    (∀ topology later : Topology, Grows {} topology → Grows topology later →
      topology.Integral ∧ topology.Keeps later) ∧
    ∀ (settings : Settings) (directory : Directory) (calls more : List Call),
      let recorder := (ofSettings settings directory).afterCalls calls
      recorder.machine.topology.Integral ∧
        recorder.machine.topology.Keeps (recorder.afterCalls more).machine.topology := by
  have hSteps (topology later : Topology) (hBuilt : Grows {} topology)
      (hGrows : Grows topology later) : topology.Integral ∧ topology.Keeps later :=
    ⟨Structure.Topology.integral_initial.grows hBuilt, hGrows.keeps⟩
  refine ⟨hSteps, fun settings directory calls more => ?_⟩
  have hReachable : ((ofSettings settings directory).afterCalls calls).Reachable :=
    ⟨settings, directory, calls, rfl⟩
  obtain ⟨hBuilt, hGrows⟩ := hReachable.grows more
  exact hSteps _ _ hBuilt hGrows

end Codec

/-- A child whose identifier is smaller than its parent's, and a layout that was
refused the second time. -/
theorem topology_integral_smaller_child :
    let built : Topology := ({} : Topology).insertNode 5 { name := "cpu" } 0 true
    let grown := built.insertNode 0 { name := "core", parent := some 5 } 0 false
    let recorder := (ofSettings {} {}).afterCalls
      [.report (.newNode { name := "cpu" } (some 5)) true,
        .report (.newNode { name := "core", parent := some 5 } none) false,
        .report (.setLayout 0 [4, 2]) true]
    (built.Integral ∧ built.Keeps grown) ∧
    recorder.machine.topology.Rooted 0 ∧
    recorder.machine.topology.Keeps
      (recorder.afterCalls [.report (.setLayout 0 [8]) true]).machine.topology := by
  intro built grown recorder
  have hParent : ({} : Topology).checkNode { name := "cpu" } (some 5) = .ok 5 := rfl
  have hChild : built.checkNode { name := "core", parent := some 5 } none = .ok 0 := by
    decide +kernel
  obtain ⟨hSteps, hCalls⟩ := topology_integral
  obtain ⟨hIntegral, hKeeps⟩ := hCalls {} {}
    [.report (.newNode { name := "cpu" } (some 5)) true,
      .report (.newNode { name := "core", parent := some 5 } none) false,
      .report (.setLayout 0 [4, 2]) true]
    [.report (.setLayout 0 [8]) true]
  exact ⟨hSteps built grown (.single (.insertNode hParent 0 true))
    (.single (.insertNode hChild 0 false)), hIntegral.rooted 0 (by decide +kernel), hKeeps⟩

end Recorder
end Recording
end CycleTrace
