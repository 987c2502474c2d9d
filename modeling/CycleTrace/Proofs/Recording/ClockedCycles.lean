/-
Clocked cycles that are left out.

A clocked cycle that is reported twice in a row is one cycle, and the second
report hands nothing over. Which cycle was reported last belongs to the machine
and is the same whatever becomes of the output. So the output has the cycle
that is left out, as its last one, if the report of it was stored or if it was
handed over and the output has not been ended since. A report that was dropped
while off, or that went to an earlier output only, is repeated to no avail.
-/

import CycleTrace.Lz4.StoredBlocks
import CycleTrace.Proofs.Recording.Steps
import CycleTrace.Proofs.Recording.Acceptance

namespace CycleTrace

/-- The clocked cycle that a command begins. -/
def Command.clockedCycle? : Command → Option ClockedCycle
  | .clockedCycle reported => some reported
  | _ => none

namespace Recording

open Output (Directory)

/-- The clocked cycle that commands in order begin last. -/
def lastClocked? (commands : List Command) : Option ClockedCycle :=
  lastOf? Command.clockedCycle? commands

namespace Machine

variable {machine : Machine} {circumstances : Circumstances} {event : Event} {plan : Plan}

/-- An accepted event that begins a clocked cycle that is not the last one tells
of it last. Other events tell of no clocked cycle and leave the last one. -/
theorem Accepts.clocked (hAccepts : machine.Accepts circumstances event plan) :
    (∃ cycle departures, event = .clockedCycle cycle ∧
      plan.machine.lastClockedCycle = some cycle ∧
      plan.dispatches = departures ++ [⟨.clockedCycle cycle, circumstances.persistent, false⟩]) ∨
    (plan.machine.lastClockedCycle = machine.lastClockedCycle ∧
      ∀ sent ∈ plan.dispatches, sent.command.clockedCycle? = none) := by
  cases hAccepts with
  | @clockedCycle cycle plan hClock hNew hPlan =>
      subst hPlan
      exact .inl ⟨cycle, _, rfl, rfl, rfl⟩
  | moveNone hMove hItems => exact .inr ⟨rfl, List.forall_mem_nil _⟩
  | tagRepeated hTag hNode hSuppresses hRepeats => exact .inr ⟨rfl, List.forall_mem_nil _⟩
  | repeatedCycle hClock hRepeated => exact .inr ⟨rfl, List.forall_mem_nil _⟩
  | enterSlot hItem hPosition hWatched hSlot hAnnounced =>
      exact .inr ⟨rfl, @forall_arrivalDispatches (fun command => command.clockedCycle? = none)
        _ _ _ _ _ rfl fun _ _ _ => rfl⟩
  | @cycle number =>
      exact .inr ⟨rfl, @forall_beginCycle _ (fun command => command.clockedCycle? = none)
        _ _ _ number rfl fun _ _ => rfl⟩
  | tagNode hTag hNode hNew =>
      refine .inr ⟨?_, List.forall_mem_singleton.mpr rfl⟩
      dsimp only
      split
      · rfl
      · rfl
  | startActivity =>
      exact .inr ⟨rfl, @forall_startActivity _ (fun command => command.clockedCycle? = none) _ _
        (fun _ _ => rfl) rfl⟩
  | _ => exact .inr ⟨rfl, List.forall_mem_singleton.mpr rfl⟩

/-- A clocked cycle is left out only where it is the last one. -/
theorem Accepts.clockedCycle_cases {cycle : ClockedCycle}
    (hAccepts : machine.Accepts circumstances (.clockedCycle cycle) plan) :
    machine.lastClockedCycle = some cycle ∨ ∃ departures,
      plan.dispatches = departures ++ [⟨.clockedCycle cycle, circumstances.persistent, false⟩] := by
  cases hAccepts with
  | repeatedCycle hClock hRepeated => exact .inl hRepeated
  | clockedCycle hClock hNew hPlan =>
      subst hPlan
      exact .inr ⟨_, rfl⟩

end Machine

namespace History

section Codec

variable [Lz4.Codec] {history : History} {call : Call} {cycle : ClockedCycle}

/-- A call that dispatches no clocked cycle. -/
def Unclocked (history : History) (call : Call) : Prop :=
  ∀ sent ∈ history.recorder.dispatchesOf call, sent.command.clockedCycle? = none

/-- A call that does not make the next output a new one. -/
def GoesOn (history : History) (call : Call) : Prop :=
  ¬ history.StartsOver call

/-- Calls report a clocked cycle, persistently or not, and no other one after
it. The report of it is the one that leads from the history before it to the
dispatch of the cycle. -/
structure ReportsLast (origin : History) (calls before : List Call) (cycle : ClockedCycle)
    (persistent : Bool) (after : List Call) : Prop where
  split : calls = before ++ .report (.clockedCycle cycle) persistent :: after
  dispatched : ∃ departures, (origin.afterAll before).recorder.dispatchesOf
    (.report (.clockedCycle cycle) persistent)
      = departures ++ [⟨.clockedCycle cycle, persistent, false⟩]
  silent : ((origin.afterAll before).after (.report (.clockedCycle cycle) persistent)).Allows
    Unclocked after

theorem lastClocked?_eq_of_unclocked (hUnclocked : history.Unclocked call) :
    lastClocked? (history.kept call) = none ∧
      lastClocked? (persistentCommands (history.recorder.dispatchesOf call)) = none := by
  have hNone : ∀ command ∈ (history.recorder.dispatchesOf call).map (·.command),
      command.clockedCycle? = none := by
    intro command hCommand
    obtain ⟨sent, hSent, rfl⟩ := List.mem_map.mp hCommand
    exact hUnclocked sent hSent
  exact ⟨lastOf?_eq_none fun command hCommand => hNone command (kept_subset history call hCommand),
    lastOf?_eq_none fun command hCommand => hNone command (persistentCommands_subset _ hCommand)⟩

/-- The last clocked cycle of the machine is reported by a call, or it was the
last one before. -/
theorem Consistent.lastClockedCycle_after (hConsistent : history.Consistent)
    (hLast : (history.after call).recorder.machine.lastClockedCycle = some cycle) :
    (∃ persistent departures, call = .report (.clockedCycle cycle) persistent ∧
      history.recorder.dispatchesOf call
        = departures ++ [⟨.clockedCycle cycle, persistent, false⟩]) ∨
    (history.recorder.machine.lastClockedCycle = some cycle ∧ history.Unclocked call) := by
  have hStep := step_after hConsistent call
  generalize history.after call = next at hStep hLast
  have hReport {event : Event} {persistent : Bool} {plan : Plan}
      (hPlan : history.recorder.planned event persistent = .ok plan)
      (hLast : plan.machine.lastClockedCycle = some cycle) :
      (∃ reported departures, Call.report event persistent
          = .report (.clockedCycle cycle) reported ∧
        history.recorder.dispatchesOf (.report event persistent)
          = departures ++ [⟨.clockedCycle cycle, reported, false⟩]) ∨
      (history.recorder.machine.lastClockedCycle = some cycle ∧
        history.Unclocked (.report event persistent)) := by
    rcases (Machine.accepts_of_plan hPlan).clocked with
      ⟨other, departures, rfl, hOther, hDispatches⟩ | ⟨hSame, hUnclocked⟩
    · obtain rfl : other = cycle := Option.some.inj (hOther.symm.trans hLast)
      exact .inl ⟨persistent, departures, rfl,
        (Recorder.dispatchesOf_report hPlan).trans hDispatches⟩
    · refine .inr ⟨hSame.symm.trans hLast, ?_⟩
      unfold Unclocked
      rw [Recorder.dispatchesOf_report hPlan]
      exact hUnclocked
  have hQuiet (hNothing : history.recorder.dispatchesOf call = []) : history.Unclocked call := by
    unfold Unclocked
    rw [hNothing]
    exact List.forall_mem_nil _
  cases hStep with
  | recorded hPlan hOn hEncode => exact hReport hPlan hLast
  | noted hPlan hOff => exact hReport hPlan hLast
  | idle hNothing => exact .inr ⟨hLast, hQuiet hNothing⟩
  | _ => exact .inr ⟨hLast, hQuiet rfl⟩

/-- The last clocked cycle of the machine after calls was the last one before
them, or they report it and no other one after it. -/
theorem Consistent.lastClockedCycle_afterAll (hConsistent : history.Consistent)
    {calls : List Call}
    (hLast : (history.afterAll calls).recorder.machine.lastClockedCycle = some cycle) :
    (∃ before persistent after, history.ReportsLast calls before cycle persistent after) ∨
      (history.recorder.machine.lastClockedCycle = some cycle ∧
        history.Allows Unclocked calls) := by
  induction calls generalizing history with
  | nil => exact .inr ⟨hLast, trivial⟩
  | cons call calls ih =>
      rcases ih (hConsistent.after call) hLast with
        ⟨before, persistent, after, hReports⟩ | ⟨hBefore, hSilent⟩
      · exact .inl ⟨call :: before, persistent, after, congrArg (call :: ·) hReports.split,
          hReports.dispatched, hReports.silent⟩
      · rcases hConsistent.lastClockedCycle_after hBefore with
          ⟨persistent, departures, rfl, hDispatches⟩ | ⟨hEarlier, hUnclocked⟩
        · exact .inl ⟨[], persistent, calls, rfl, ⟨departures, hDispatches⟩, hSilent⟩
        · exact .inr ⟨hEarlier, hUnclocked, hSilent⟩

/-! ### What the output has -/

/-- A clocked cycle is the last one on its way to the output and, if it was
reported persistently, the last one that is stored. -/
structure Clocked (cycle : ClockedCycle) (persistent : Bool) (history : History) : Prop where
  destined : lastClocked? history.destined = some cycle
  stored : persistent = true → lastClocked? history.recorder.store.all.toList = some cycle

variable {persistent : Bool}

theorem Consistent.lastClocked?_stored (hConsistent : history.Consistent) (call : Call) :
    lastClocked? (history.after call).recorder.store.all.toList
      = (lastClocked? (persistentCommands (history.recorder.dispatchesOf call))).or
          (lastClocked? history.recorder.store.all.toList) := by
  rw [hConsistent.toList_all_after]
  exact lastOf?_append _ _

theorem Clocked.after (hClocked : history.Clocked cycle persistent)
    (hConsistent : history.Consistent) (hUnclocked : history.Unclocked call)
    (hGoesOn : persistent = false → history.GoesOn call) :
    (history.after call).Clocked cycle persistent := by
  obtain ⟨hKept, hNotStored⟩ := lastClocked?_eq_of_unclocked hUnclocked
  have hStored (hPersistent : persistent = true) :
      lastClocked? (history.after call).recorder.store.all.toList = some cycle := by
    rw [hConsistent.lastClocked?_stored, hNotStored, Option.none_or]
    exact hClocked.stored hPersistent
  refine ⟨?_, hStored⟩
  cases hConsistent.destines call with
  | startsOver hStartsOver hClosed =>
      cases persistent with
      | true => exact destined_closed hClosed ▸ hStored rfl
      | false => exact absurd hStartsOver (hGoesOn rfl)
  | adds opening items hOpening hItems hDestined =>
      rw [hDestined, lastClocked?, lastOf?_grown hOpening rfl fun _ => rfl]
      exact (congrArg (Option.or · _) hKept).trans hClocked.destined

/-- A report that is not dropped makes its cycle the last one. -/
theorem Consistent.clocked_after (hConsistent : history.Consistent)
    {departures : List Dispatch}
    (hDispatches : history.recorder.dispatchesOf (.report (.clockedCycle cycle) persistent)
      = departures ++ [⟨.clockedCycle cycle, persistent, false⟩])
    (hKept : persistent = true ∨ history.recorder.on = true) :
    (history.after (.report (.clockedCycle cycle) persistent)).Clocked cycle persistent := by
  have hLast (commands : List Command) :
      lastClocked? (commands ++ [.clockedCycle cycle]) = some cycle := by
    rw [lastClocked?, lastOf?_append, lastOf?_single]
    rfl
  have hStored (hPersistent : persistent = true) : lastClocked? (persistentCommands
      (history.recorder.dispatchesOf (.report (.clockedCycle cycle) persistent))) = some cycle := by
    rw [hDispatches, persistentCommands_append, hPersistent]
    exact hLast _
  have hHanded : lastClocked? (history.kept (.report (.clockedCycle cycle) persistent))
      = some cycle := by
    cases hOn : history.recorder.on with
    | true =>
        rw [kept_on hOn, hDispatches, List.map_append]
        exact hLast _
    | false =>
        rw [kept_off hOn]
        exact hStored (hKept.resolve_right (Bool.eq_false_iff.mp hOn))
  refine ⟨?_, fun hPersistent => ?_⟩
  · cases hConsistent.destines (.report (.clockedCycle cycle) persistent) with
    | startsOver hStartsOver hClosed => exact hStartsOver.elim
    | adds opening items hOpening hItems hDestined =>
        rw [hDestined, lastClocked?, lastOf?_grown hOpening rfl fun _ => rfl]
        exact congrArg (Option.or · _) hHanded
  · rw [hConsistent.lastClocked?_stored, hStored hPersistent, Option.some_or]

theorem Clocked.afterAll (hClocked : history.Clocked cycle persistent)
    (hConsistent : history.Consistent) {calls : List Call}
    (hSilent : history.Allows Unclocked calls)
    (hGoesOn : persistent = false → history.Allows GoesOn calls) :
    (history.afterAll calls).Clocked cycle persistent := by
  induction calls generalizing history with
  | nil => exact hClocked
  | cons call calls ih =>
      exact ih (hClocked.after hConsistent hSilent.1 fun hDropped => (hGoesOn hDropped).1)
        (hConsistent.after call) hSilent.2 fun hDropped => (hGoesOn hDropped).2

/-- A clocked cycle that is reported while recording is left out only if it was
the last one to be reported. The output then has it as its last clocked cycle,
unless that report was not persistent and was made while off or before the
output was a new one. -/
theorem clocked_cycle_left_out {settings : Settings} {directory : Directory} {calls : List Call}
    {history : History} (hHistory : (start settings directory).afterAll calls = history)
    (hOn : history.recorder.on = true) {cycle : ClockedCycle} {persistent : Bool}
    (hGranted : Recorder.answer (Recorder.perform (.report (.clockedCycle cycle) persistent)
      history.recorder) = .ok .done)
    (hNothing : (history.after (.report (.clockedCycle cycle) persistent)).current.filterMap
        (·.command.clockedCycle?)
      = history.current.filterMap (·.command.clockedCycle?)) :
    ∃ before persisted after,
      (start settings directory).ReportsLast calls before cycle persisted after ∧
      (persisted = true ∨ ((start settings directory).afterAll before).recorder.on = true ∧
          (((start settings directory).afterAll before).after
            (.report (.clockedCycle cycle) persisted)).Allows GoesOn after →
        lastClocked? (history.current.map (·.command)) = some cycle) := by
  subst hHistory
  have hStart := consistent_start settings directory
  have hConsistent := hStart.afterAll calls
  -- a report that is granted and hands no clocked cycle over repeats the last one
  have hRepeats : ((start settings directory).afterAll calls).recorder.machine.lastClockedCycle
      = some cycle := by
    cases hPlan : ((start settings directory).afterAll calls).recorder.planned
        (.clockedCycle cycle) persistent with
    | error fault =>
        rw [Recorder.report_refused hConsistent.isOpen hPlan] at hGranted
        cases hGranted
    | ok plan =>
        refine (Machine.accepts_of_plan hPlan).clockedCycle_cases.resolve_right ?_
        rintro ⟨departures, hDispatches⟩
        rw [hConsistent.current_report hOn hPlan, hDispatches, List.filterMap_append,
          List.append_right_eq_self, List.filterMap_eq_nil_iff] at hNothing
        cases hNothing _ (List.mem_map_of_mem (List.mem_append_right departures
          List.mem_cons_self))
  rcases hStart.lastClockedCycle_afterAll hRepeats with
    ⟨before, persisted, after, hReports⟩ | ⟨hBefore, _⟩
  · refine ⟨before, persisted, after, hReports, fun hKept => ?_⟩
    obtain ⟨departures, hDispatches⟩ := hReports.dispatched
    have hEarlier := hStart.afterAll before
    have hClocked := hEarlier.clocked_after hDispatches (hKept.imp_right And.left)
    have hLast := hClocked.afterAll (hEarlier.after _) hReports.silent fun hDropped => by
      exact (hKept.resolve_left (by simp [hDropped])).2
    have hSplit : (start settings directory).afterAll calls
        = (((start settings directory).afterAll before).after
          (.report (.clockedCycle cycle) persisted)).afterAll after := by
      rw [hReports.split, afterAll_append]
      rfl
    rw [← hConsistent.destined_on hOn, hSplit]
    exact hLast.destined
  · cases hBefore

end Codec

/-- A clocked cycle is reported persistently, and the output is then renamed. -/
def renamedAfterCycle : List Call :=
  [.turnOn, .report (.clockedCycle ⟨0, 5, .high⟩) true, .turnOff, .changeFile "late.ptr", .turnOn]

theorem clocked_cycle_left_out_renamed :
    let history := (start { text := true } {}).afterAll renamedAfterCycle
    (history.after (.report (.clockedCycle ⟨0, 5, .high⟩) false)).current = history.current ∧
      lastClocked? (history.current.map (·.command)) = some ⟨0, 5, .high⟩ := by
  intro history
  have hSame : (history.after (.report (.clockedCycle ⟨0, 5, .high⟩) false)).current
      = history.current := by decide +kernel
  obtain ⟨before, persisted, after, hReports, hLast⟩ :=
    clocked_cycle_left_out (rfl : _ = history) (by decide +kernel) (by decide +kernel)
      (congrArg _ hSame)
  have hMember : .report (.clockedCycle ⟨0, 5, .high⟩) persisted ∈ renamedAfterCycle := by
    rw [hReports.split]
    exact List.mem_append_right before List.mem_cons_self
  have hPersisted : persisted = true := by simpa [renamedAfterCycle] using hMember
  exact ⟨hSame, hLast (.inl hPersisted)⟩

/-- A clocked cycle that was dropped while off, or that went to an earlier file
only, is left out when it is reported again, and the output has no clocked cycle
at all. -/
theorem clocked_cycle_lost :
    let report := Call.report (.clockedCycle ⟨0, 5, .high⟩) false
    ∀ calls ∈ [[report, .turnOn],
        [.turnOn, report, .turnOff, .changeFile "late.ptr", .turnOn]],
      let history := (start { text := true } {}).afterAll calls
      history.recorder.on = true ∧
        Recorder.answer (Recorder.perform report history.recorder) = .ok .done ∧
        (history.after report).current = history.current ∧
        lastClocked? (history.current.map (·.command)) = none := by
  decide +kernel

end History
end Recording
end CycleTrace
