/-
The archive that waits for the start of activity.

An archive that is attached waits in the machine until activity starts, or
until another archive takes its place. The start is told with the archive
directly in front of it, and both are handed over or stored alike.

The archive is given up with the first start in any case. A start that is
dropped drops the archive with it, and the next start is told without one. No
archive is lost as long as no start is dropped.
-/

import CycleTrace.Lz4.StoredBlocks
import CycleTrace.Proofs.Recording.Acceptance
import CycleTrace.Proofs.Recording.Steps

namespace CycleTrace
namespace Recording

open Output (Directory stateAfter_of_ok)

/-! ### Machines -/

namespace Machine

variable {machine : Machine} {circumstances : Circumstances} {event : Event} {plan : Plan}

/-- An accepted event leaves the archive alone, unless it starts activity. -/
theorem Accepts.archive_eq (hAccepts : machine.Accepts circumstances event plan)
    (hOther : ∀ cycle, event ≠ .startActivity cycle) : plan.machine.archive = machine.archive := by
  cases hAccepts with
  | tagNode hTag hNode hNew =>
      dsimp only
      split
      · rfl
      · rfl
  | clockedCycle hClock hNew hPlan =>
      subst hPlan
      rfl
  | startActivity => exact absurd rfl (hOther _)
  | _ => rfl

end Machine

/-! ### Histories -/

namespace History

section Codec

variable [Lz4.Codec] {history : History} {call : Call} {data : List UInt8} {cycle : UInt64}
  {persistent : Bool}

/-- The archive that waits. -/
def archive (history : History) : Option (List UInt8) :=
  history.recorder.machine.archive

/-- A start of activity that is handed over or stored. -/
def KeepsStart (history : History) (call : Call) : Prop :=
  ∃ cycle persistent, call = .report (.startActivity cycle) persistent ∧
    (history.recorder.on || persistent) = true

/-- A start of activity that is neither handed over nor stored. -/
def DropsStart (history : History) (call : Call) : Prop :=
  ∃ cycle persistent, call = .report (.startActivity cycle) persistent ∧
    (history.recorder.on || persistent) = false

/-- A start of activity is kept or dropped. -/
theorem not_start (hKeeps : ¬ history.KeepsStart call) (hDrops : ¬ history.DropsStart call)
    (cycle : UInt64) (persistent : Bool) : call ≠ .report (.startActivity cycle) persistent := by
  rintro rfl
  cases hKept : history.recorder.on || persistent with
  | true => exact hKeeps ⟨cycle, persistent, rfl, hKept⟩
  | false => exact hDrops ⟨cycle, persistent, rfl, hKept⟩

/-- An archive waits on unless activity starts or another archive is attached. -/
theorem Consistent.archive_after (hConsistent : history.Consistent)
    (hStart : ∀ cycle persistent, call ≠ .report (.startActivity cycle) persistent)
    (hAttach : ∀ data, call ≠ .attachArchive data) :
    (history.after call).archive = history.archive := by
  have hStep := step_after hConsistent call
  generalize history.after call = next at hStep
  have hReport {event : Event} {persistent : Bool} {plan : Plan}
      (hCall : call = .report event persistent)
      (hPlan : history.recorder.planned event persistent = .ok plan) :
      plan.machine.archive = history.archive := by
    refine (Machine.accepts_of_plan hPlan).archive_eq ?_
    rintro cycle rfl
    exact hStart cycle persistent hCall
  cases hStep with
  | recorded hPlan hOn hEncode => exact hReport rfl hPlan
  | noted hPlan hOff => exact hReport rfl hPlan
  | attached => exact absurd rfl (hAttach _)
  | _ => rfl

theorem Consistent.archive_afterAll (hConsistent : history.Consistent) {calls : List Call}
    (hAttach : ∀ data, .attachArchive data ∉ calls)
    (hKeeps : history.Allows (fun history call => ¬ history.KeepsStart call) calls)
    (hDrops : history.Allows (fun history call => ¬ history.DropsStart call) calls) :
    (history.afterAll calls).archive = history.archive := by
  induction calls generalizing history with
  | nil => rfl
  | cons call calls ih =>
      have hOther (data : List UInt8) : call ≠ .attachArchive data := by
        rintro rfl
        exact hAttach data List.mem_cons_self
      have hLater (data : List UInt8) : .attachArchive data ∉ calls := fun hMember =>
        hAttach data (List.mem_cons_of_mem _ hMember)
      have hRest := ih (hConsistent.after call) hLater hKeeps.2 hDrops.2
      exact hRest.trans (hConsistent.archive_after (not_start hKeeps.1 hDrops.1) hOther)

/-- What the start of activity dispatches while an archive waits. -/
theorem dispatchesOf_start (hWaits : history.archive = some data) (cycle : UInt64)
    (persistent : Bool) :
    history.recorder.dispatchesOf (.report (.startActivity cycle) persistent)
      = [⟨.commentBytes archiveMagic data, persistent, false⟩,
          ⟨.startActivity cycle, persistent, false⟩] := by
  have hPlan : history.recorder.planned (.startActivity cycle) persistent
      = .ok (history.recorder.machine.startActivity persistent cycle) := rfl
  have hArchive : history.recorder.machine.archive = some data := hWaits
  rw [Recorder.dispatchesOf_report hPlan]
  unfold Machine.startActivity
  rw [hArchive]
  rfl

/-- Once activity has started, no archive waits. -/
theorem Consistent.archive_started (hConsistent : history.Consistent) (cycle : UInt64)
    (persistent : Bool) :
    (history.after (.report (.startActivity cycle) persistent)).archive = none := by
  have hPlan : history.recorder.planned (.startActivity cycle) persistent
      = .ok (history.recorder.machine.startActivity persistent cycle) := rfl
  obtain ⟨next, hReport, hMachine⟩ := hConsistent.answer_report hPlan
  rw [after_of_state (stateAfter_of_ok hReport)]
  unfold archive
  rw [hMachine]
  rfl

/-- What a start of activity dispatches is handed over while on, and kept for
replay where it is persistent, while off for the output that is open too. -/
theorem Consistent.start_kept (hConsistent : history.Consistent)
    (hWaits : history.archive = some data) (cycle : UInt64) (persistent : Bool) :
    let next := history.after (.report (.startActivity cycle) persistent)
    let pair := [Command.commentBytes archiveMagic data, .startActivity cycle]
    (history.recorder.on = true →
      next.current = history.current ++ pair.map fun command => ⟨command, persistent⟩) ∧
    (persistent = true →
      next.recorder.store.all.toList = history.recorder.store.all.toList ++ pair ∧
      (history.recorder.on = false → next.recorder.store.partialReplay.toList
        = history.recorder.store.partialReplay.toList ++ pair)) := by
  intro next pair
  have hDispatches := dispatchesOf_start hWaits cycle persistent
  have hPlan : history.recorder.planned (.startActivity cycle) persistent
      = .ok (history.recorder.machine.startActivity persistent cycle) := rfl
  refine ⟨fun hOn => ?_, fun hPersistent => ⟨?_, fun hOff => ?_⟩⟩
  · rw [hConsistent.current_report hOn hPlan, ← Recorder.dispatchesOf_report hPlan, hDispatches]
    rfl
  · rw [hConsistent.toList_all_after, hDispatches, hPersistent]
    rfl
  · obtain ⟨tally, hReport⟩ := Recorder.report_off hPlan hOff
    have hNext : next = _ := after_of_state (stateAfter_of_ok hReport)
    rw [hNext, ← Recorder.dispatchesOf_report hPlan, hDispatches, hPersistent]
    exact ReplayStore.toList_partialReplay_storeAll_true _ _

/-- An archive that is attached is not lost. It waits until the first start of
activity that is kept, and is told directly in front of it: in the output if
the start is handed over, in the store if the start is stored, and, if it is
stored while off, in what waits for the output that is open. No start may be
dropped before that one. -/
theorem archive_delivered {settings : Settings} {directory : Directory} {before between : List Call}
    {data : List UInt8} (hLast : ∀ other, .attachArchive other ∉ between)
    (hFirst : ((start settings directory).afterAll (before ++ [.attachArchive data])).Allows
      (fun history call => ¬ history.KeepsStart call) between)
    (hNoneDropped : ((start settings directory).afterAll (before ++ [.attachArchive data])).Allows
      (fun history call => ¬ history.DropsStart call) between) :
    let attached := (start settings directory).afterAll (before ++ [.attachArchive data])
    (∀ earlier, earlier <+: between → (attached.afterAll earlier).archive = some data) ∧
    ∀ cycle persistent,
      let history := attached.afterAll between
      let next := history.after (.report (.startActivity cycle) persistent)
      let pair := [Command.commentBytes archiveMagic data, .startActivity cycle]
      (history.recorder.on = true →
        next.current = history.current ++ pair.map fun command => ⟨command, persistent⟩) ∧
      (persistent = true →
        next.recorder.store.all.toList = history.recorder.store.all.toList ++ pair ∧
        (history.recorder.on = false → next.recorder.store.partialReplay.toList
          = history.recorder.store.partialReplay.toList ++ pair)) ∧
      next.archive = none := by
  intro attached
  have hConsistent : attached.Consistent := (consistent_start settings directory).afterAll _
  have hAttached : attached.archive = some data := by
    change ((start settings directory).afterAll (before ++ [.attachArchive data])).archive = _
    rw [afterAll_append]
    rfl
  have hWaits : ∀ earlier, earlier <+: between →
      (attached.afterAll earlier).archive = some data := by
    rintro earlier ⟨later, rfl⟩
    have hNone (other : List UInt8) : .attachArchive other ∉ earlier := fun hMember =>
      hLast other (List.mem_append_left _ hMember)
    exact (hConsistent.archive_afterAll hNone hFirst.of_append hNoneDropped.of_append).trans
      hAttached
  refine ⟨hWaits, fun cycle persistent => ?_⟩
  have hBetween := hConsistent.afterAll between
  obtain ⟨hHanded, hStored⟩ :=
    hBetween.start_kept (hWaits between (List.prefix_refl _)) cycle persistent
  exact ⟨hHanded, hStored, hBetween.archive_started cycle persistent⟩

end Codec

/-- An archive takes the place of another one, and activity starts while off. -/
theorem archive_delivered_stored :
    let history := (start { text := true } {}).afterAll
      [.turnOn, .report (.newItem none) true, .attachArchive [1], .attachArchive [7, 9], .turnOff,
        .report (.cycle 5) false]
    let next := history.after (.report (.startActivity 6) true)
    history.archive = some [7, 9] ∧ next.archive = none ∧
      next.recorder.store.all.toList
        = [.newItem 1, .commentBytes archiveMagic [7, 9], .startActivity 6] ∧
      next.recorder.store.partialReplay.toList
        = [.commentBytes archiveMagic [7, 9], .startActivity 6] := by
  intro history next
  have hLast : ∀ other, Call.attachArchive other ∉ [Call.turnOff, .report (.cycle 5) false] := by
    simp
  have hFirst : ((start { text := true } {}).afterAll ([.turnOn, .report (.newItem none) true,
      .attachArchive [1]] ++ [.attachArchive [7, 9]])).Allows
      (fun history call => ¬ history.KeepsStart call) [.turnOff, .report (.cycle 5) false] := by
    refine ⟨?_, ?_, trivial⟩
    · rintro ⟨_, _, ⟨⟩, _⟩
    · rintro ⟨_, _, ⟨⟩, _⟩
  have hNoneDropped : ((start { text := true } {}).afterAll ([.turnOn,
      .report (.newItem none) true, .attachArchive [1]] ++ [.attachArchive [7, 9]])).Allows
      (fun history call => ¬ history.DropsStart call) [.turnOff, .report (.cycle 5) false] := by
    refine ⟨?_, ?_, trivial⟩
    · rintro ⟨_, _, ⟨⟩, _⟩
    · rintro ⟨_, _, ⟨⟩, _⟩
  obtain ⟨hWaits, hStarts⟩ := archive_delivered hLast hFirst hNoneDropped
  obtain ⟨_, hStored, hGone⟩ := hStarts 6 true
  obtain ⟨hAll, hPartial⟩ := hStored rfl
  have hBefore : history.recorder.store.all.toList = [.newItem 1] := by decide +kernel
  have hWaiting : history.recorder.store.partialReplay.toList = [] := by decide +kernel
  exact ⟨hWaits _ (List.prefix_refl _), hGone, hAll.trans (congrArg (· ++ _) hBefore),
    (hPartial rfl).trans (congrArg (· ++ _) hWaiting)⟩

/-- An archive is lost with a start of activity that is dropped while off. The
first start that is kept is told without it. -/
theorem archive_lost_dropped :
    let attached := (start { text := true } {}).afterAll [.attachArchive [1, 2]]
    let history := attached.afterAll [.report (.startActivity 1) false, .turnOn]
    let next := history.after (.report (.startActivity 2) false)
    attached.archive = some [1, 2] ∧ attached.DropsStart (.report (.startActivity 1) false) ∧
      history.KeepsStart (.report (.startActivity 2) false) ∧ history.archive = none ∧
      next.current = history.current ++ [⟨.startActivity 2, false⟩] ∧
      ∀ entry ∈ next.current, entry.command ≠ .commentBytes archiveMagic [1, 2] := by
  intro attached history next
  refine ⟨rfl, ⟨1, false, rfl, rfl⟩, ⟨2, false, rfl, ?_⟩, ?_⟩
  all_goals decide +kernel

end History
end Recording
end CycleTrace
