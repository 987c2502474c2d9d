/-
The last value of a tag of a whole node.

A tag of a whole node can be set in two ways, as such or as the tag of the slot
at the empty position. As long as no output is ended, the last value that an
output was handed for a tag is the last one that was set, in either way, and
not dropped.

Only the first way looks at what is remembered of the tag, and only the first
way changes it. A value set in the second way therefore must not differ from
what is remembered. If it does, setting the tag back to the remembered value is
taken for a repetition, and the output is left with the other value.
-/

import CycleTrace.Lz4.StoredBlocks
import CycleTrace.Proofs.Recording.Tags

namespace CycleTrace

/-- The value that a command gives a tag of a whole node. -/
def Command.tagValue? (node : NodeId) (tag : String) : Command → Option TagValue
  | .tagNode other name value [] => if other = node ∧ name = tag then some value else none
  | _ => none

namespace Recording

open Output (Directory stateAfter_of_ok)

/-! ### Values of a tag -/

/-- The value that commands in order leave a tag of a whole node with. -/
def lastTag? (node : NodeId) (tag : String) (commands : List Command) : Option TagValue :=
  lastOf? (Command.tagValue? node tag) commands

/-- The value that an event gives a tag of a whole node. -/
def Event.tagValue? (node : NodeId) (tag : String) : Event → Option TagValue
  | .tagNode other name value => if other = node ∧ name = tag then some value else none
  | .tagSlot other [] name value => if other = node ∧ name = tag then some value else none
  | _ => none

namespace Machine

variable {machine : Machine} {circumstances : Circumstances} {event : Event} {plan : Plan}

/-- What is dispatched for an event gives a tag the value that the event gives it. -/
theorem Accepts.tagValue?_dispatches (hAccepts : machine.Accepts circumstances event plan)
    (node : NodeId) (tag : String) :
    ∀ sent ∈ plan.dispatches, sent.command.tagValue? node tag = event.tagValue? node tag := by
  cases hAccepts with
  | moveNone hMove hItems => exact List.forall_mem_nil _
  | tagRepeated hTag hNode hSuppresses hRepeats => exact List.forall_mem_nil _
  | repeatedCycle hClock hRepeated => exact List.forall_mem_nil _
  | @tagSlot other position name value hTag hPosition =>
      cases position with
      | nil => exact List.forall_mem_singleton.mpr rfl
      | cons first rest => exact List.forall_mem_singleton.mpr rfl
  | enterSlot hItem hPosition hWatched hSlot hAnnounced =>
      exact @forall_arrivalDispatches (fun command => command.tagValue? node tag = none)
        _ _ _ _ _ rfl fun _ _ _ => rfl
  | @cycle number =>
      exact @forall_beginCycle _ (fun command => command.tagValue? node tag = none) _ _ _ number
        rfl fun _ _ => rfl
  | @clockedCycle cycle plan hClock hNew hPlan =>
      subst hPlan
      exact @forall_beginCycle _ (fun command => command.tagValue? node tag = none) _ _ _
        cycle.cycle rfl fun _ _ => rfl
  | startActivity =>
      exact @forall_startActivity _ (fun command => command.tagValue? node tag = none) _ _
        (fun _ _ => rfl) rfl
  | _ => exact List.forall_mem_singleton.mpr rfl

/-- The two ways to set a tag of a whole node. -/
theorem tagValue?_eq_some {node : NodeId} {tag : String} {value : TagValue}
    (hValue : event.tagValue? node tag = some value) :
    event = .tagNode node tag value ∨ event = .tagSlot node [] tag value := by
  unfold Event.tagValue? at hValue
  split at hValue
  · split at hValue
    · next hSame =>
        obtain ⟨rfl, rfl⟩ := hSame
        cases hValue
        exact .inl rfl
    · cases hValue
  · split at hValue
    · next hSame =>
        obtain ⟨rfl, rfl⟩ := hSame
        cases hValue
        exact .inr rfl
    · cases hValue
  · cases hValue

/-- An accepted event that sets a tag of a whole node dispatches one command,
unless the value is remembered. -/
theorem Accepts.tagValue?_cases (hAccepts : machine.Accepts circumstances event plan)
    {node : NodeId} {tag : String} {value : TagValue}
    (hValue : event.tagValue? node tag = some value) :
    (machine.tagMemory.value? node tag = some value ∧ plan.dispatches = []) ∨
      plan.dispatches = [⟨.tagNode node tag value [], circumstances.persistent, false⟩] := by
  rcases tagValue?_eq_some hValue with rfl | rfl
  · cases hAccepts with
    | tagRepeated hTag hNode hSuppresses hRepeats =>
        exact .inl ⟨beq_iff_eq.mp hRepeats, rfl⟩
    | tagNode hTag hNode hNew => exact .inr rfl
  · cases hAccepts with
    | tagSlot hTag hPosition => exact .inr rfl

/-- After a value of a tag is set and not dropped, the memory has this value if
it has any, provided that a value set at the empty position does not differ
from the memory. -/
theorem Accepts.value?_of_tagValue? (hAccepts : machine.Accepts circumstances event plan)
    (hSuppresses : circumstances.suppressRepeatedTags = true) (hKept : circumstances.kept = true)
    {node : NodeId} {tag : String} {value last : TagValue}
    (hValue : event.tagValue? node tag = some value)
    (hAlike : event = .tagSlot node [] tag value → ∀ known,
      machine.tagMemory.value? node tag = some known → known = value)
    (hLast : plan.machine.tagMemory.value? node tag = some last) : last = value := by
  rcases tagValue?_eq_some hValue with rfl | rfl
  · cases hAccepts with
    | tagRepeated hTag hNode _ hRepeats =>
        exact Option.some.inj (hLast.symm.trans (beq_iff_eq.mp hRepeats))
    | tagNode hTag hNode hNew =>
        dsimp only at hLast
        rw [hKept, hSuppresses, Bool.true_and, if_pos rfl, TagMemory.value?_update,
          if_pos ⟨rfl, rfl⟩] at hLast
        exact (Option.some.inj hLast).symm
  · cases hAccepts with
    | tagSlot hTag hPosition => exact hAlike rfl last hLast

end Machine

/-! ### Histories -/

namespace History

section Codec

variable [Lz4.Codec] {history : History} {call : Call} {node : NodeId} {tag : String}

/-- The value that a call gives a tag of a whole node, if the call succeeds and
what it tells is not dropped. -/
def setsTag? (history : History) (node : NodeId) (tag : String) (call : Call) : Option TagValue :=
  match call, Recorder.answer (Recorder.perform call history.recorder) with
  | .report event persistent, .ok _ =>
      if history.recorder.on || persistent then event.tagValue? node tag else none
  | _, _ => none

/-- The value of a tag that calls in order set last. -/
def lastSet? (node : NodeId) (tag : String) (history : History) : List Call → Option TagValue
  | [] => none
  | call :: calls =>
      ((history.after call).lastSet? node tag calls).or (history.setsTag? node tag call)

/-- A call that sets a tag at the empty position only to what is remembered of
it, if anything is. -/
def SetsAlike (node : NodeId) (tag : String) (history : History) (call : Call) : Prop :=
  ∀ value persistent, call = .report (.tagSlot node [] tag value) persistent →
    (history.recorder.on || persistent) = true →
    ∀ known, history.remembered node tag = some known → known = value

/-- A call of a run that keeps its output, with tags at the empty position as
they are remembered. -/
def KeepsTag (node : NodeId) (tag : String) (history : History) (call : Call) : Prop :=
  history.KeepsOutput call ∧ history.SetsAlike node tag call

/-- The last value of a tag on its way to the output is the one that was set
last, and so is what is remembered of the tag. -/
structure Told (node : NodeId) (tag : String) (last : Option TagValue) (history : History) :
    Prop where
  suppresses : history.recorder.settings.suppressRepeatedTags = true
  destined : lastTag? node tag history.destined = last
  remembered : ∀ value, history.remembered node tag = some value → last = some value

theorem suppresses_after (call : Call) (hConsistent : history.Consistent)
    (hSuppresses : history.recorder.settings.suppressRepeatedTags = true) :
    (history.after call).recorder.settings.suppressRepeatedTags = true := by
  have hStep := step_after hConsistent call
  generalize history.after call = next at hStep
  cases hStep <;> exact hSuppresses

/-- What a call makes of a tag: it leaves the tag alone, or it sets the tag to a
value that is handed on or was remembered. -/
inductive Sets (node : NodeId) (tag : String) (history : History) (call : Call) : Prop
  | nothing (hUnset : history.setsTag? node tag call = none)
      (hUntold : ∀ command ∈ history.kept call, command.tagValue? node tag = none)
  | value {value : TagValue} (hSet : history.setsTag? node tag call = some value)
      (hTold : lastTag? node tag (history.kept call) = some value ∨
        history.remembered node tag = some value ∧ history.kept call = [])
      (hKnown : ∀ known, (history.after call).remembered node tag = some known → known = value)

theorem sets_of_nothing (hNothing : history.recorder.dispatchesOf call = [])
    (hUnset : history.setsTag? node tag call = none) : history.Sets node tag call := by
  refine .nothing hUnset ?_
  rw [kept_of_nothing hNothing]
  exact List.forall_mem_nil _

theorem kept_of_single {command : Command} {persistent : Bool}
    (hSingle : history.recorder.dispatchesOf call = [⟨command, persistent, false⟩]) :
    history.kept call = if history.recorder.on || persistent then [command] else [] := by
  unfold kept
  rw [hSingle]
  cases history.recorder.on <;> cases persistent <;> rfl

theorem Consistent.setsTag?_refused (hConsistent : history.Consistent) {event : Event}
    {persistent : Bool} {fault : Fault} (node : NodeId) (tag : String)
    (hPlan : history.recorder.planned event persistent = .error fault) :
    history.setsTag? node tag (.report event persistent) = none := by
  unfold setsTag?
  rw [Recorder.report_refused hConsistent.isOpen hPlan]
  rfl

theorem setsTag?_of_other (node : NodeId) (tag : String)
    (hOther : ∀ event persistent, call ≠ .report event persistent) :
    history.setsTag? node tag call = none := by
  unfold setsTag?
  split
  · exact absurd rfl (hOther _ _)
  · rfl

theorem Consistent.setsTag?_report (hConsistent : history.Consistent) (node : NodeId)
    (tag : String) {event : Event} {persistent : Bool} {plan : Plan}
    (hPlan : history.recorder.planned event persistent = .ok plan) :
    history.setsTag? node tag (.report event persistent)
      = if history.recorder.on || persistent then event.tagValue? node tag else none := by
  obtain ⟨next, hReport, _⟩ := hConsistent.answer_report hPlan
  unfold setsTag?
  rw [hReport]
  rfl

/-- An accepted event that sets the tag, where what it tells is not dropped. -/
theorem Consistent.sets_value (hConsistent : history.Consistent)
    (hSuppresses : history.recorder.settings.suppressRepeatedTags = true) {event : Event}
    {persistent : Bool} {plan : Plan}
    (hPlan : history.recorder.planned event persistent = .ok plan) {value : TagValue}
    (hValue : event.tagValue? node tag = some value)
    (hKept : (history.recorder.on || persistent) = true)
    (hAlike : history.SetsAlike node tag (.report event persistent)) :
    history.Sets node tag (.report event persistent) := by
  have hAccepts := Machine.accepts_of_plan hPlan
  have hDispatches := Recorder.dispatchesOf_report hPlan
  have hCases : (history.remembered node tag = some value ∧ plan.dispatches = []) ∨
      plan.dispatches = [⟨.tagNode node tag value [], persistent, false⟩] :=
    hAccepts.tagValue?_cases hValue
  refine .value (by rw [hConsistent.setsTag?_report node tag hPlan, if_pos hKept, hValue]) ?_ ?_
  · rcases hCases with ⟨hKnown, hNothing⟩ | hSingle
    · exact .inr ⟨hKnown, kept_of_nothing (hDispatches.trans hNothing)⟩
    · rw [kept_of_single (hDispatches.trans hSingle), if_pos hKept]
      exact .inl ((lastOf?_single _ _).trans (if_pos ⟨rfl, rfl⟩))
  · intro known hKnown
    obtain ⟨next, hReport, hMachine⟩ := hConsistent.answer_report hPlan
    rw [after_of_state (stateAfter_of_ok hReport)] at hKnown
    refine hAccepts.value?_of_tagValue? hSuppresses hKept hValue ?_ (hMachine ▸ hKnown)
    rintro rfl
    exact hAlike value persistent rfl hKept

theorem Consistent.sets (hConsistent : history.Consistent)
    (hSuppresses : history.recorder.settings.suppressRepeatedTags = true)
    (hAlike : history.SetsAlike node tag call) : history.Sets node tag call := by
  cases call with
  | report event persistent =>
      cases hPlan : history.recorder.planned event persistent with
      | error fault =>
          exact sets_of_nothing (Recorder.dispatchesOf_report_refused hPlan)
            (hConsistent.setsTag?_refused node tag hPlan)
      | ok plan =>
          have hAccepts := Machine.accepts_of_plan hPlan
          have hDispatches := Recorder.dispatchesOf_report hPlan
          have hSets := hConsistent.setsTag?_report node tag hPlan
          cases hValue : event.tagValue? node tag with
          | none =>
              refine .nothing (by rw [hSets, hValue, ite_self]) fun command hCommand => ?_
              obtain ⟨sent, hSent, rfl⟩ := List.mem_map.mp (kept_subset history _ hCommand)
              exact (hAccepts.tagValue?_dispatches node tag sent (hDispatches ▸ hSent)).trans hValue
          | some value =>
              cases hKept : history.recorder.on || persistent with
              | true => exact hConsistent.sets_value hSuppresses hPlan hValue hKept hAlike
              | false =>
                  refine .nothing (by rw [hSets, hKept]; rfl) ?_
                  rcases hAccepts.tagValue?_cases hValue with ⟨_, hNothing⟩ | hSingle
                  · rw [kept_of_nothing (hDispatches.trans hNothing)]
                    exact List.forall_mem_nil _
                  · have hDropped : history.kept (.report event persistent) = [] :=
                      (kept_of_single (hDispatches.trans hSingle)).trans
                        (if_neg (Bool.eq_false_iff.mp hKept))
                    rw [hDropped]
                    exact List.forall_mem_nil _
  | _ => exact sets_of_nothing rfl (setsTag?_of_other node tag fun _ _ => Call.noConfusion)

theorem Told.after {last : Option TagValue} (hTold : history.Told node tag last)
    (hConsistent : history.Consistent) (hKeeps : history.KeepsTag node tag call) :
    (history.after call).Told node tag ((history.setsTag? node tag call).or last) := by
  have hDestined : lastTag? node tag (history.after call).destined
      = (lastTag? node tag (history.kept call)).or last := by
    obtain ⟨opening, items, hOpening, hGrown⟩ := hConsistent.destined_grows hKeeps.1
    rw [hGrown, ← hTold.destined]
    exact lastOf?_grown hOpening rfl fun _ => rfl
  have hSuppresses := suppresses_after call hConsistent hTold.suppresses
  cases hConsistent.sets hTold.suppresses hKeeps.2 with
  | nothing hUnset hUntold =>
      have hNone : lastTag? node tag (history.kept call) = none := lastOf?_eq_none hUntold
      rw [hNone, Option.none_or] at hDestined
      rw [hUnset, Option.none_or]
      refine ⟨hSuppresses, hDestined, fun value hValue => ?_⟩
      rcases hConsistent.remembered_after hValue with hBefore | hKept
      · exact hTold.remembered value hBefore
      · have hNone := hUntold _ hKept
        rw [Command.tagValue?, if_pos ⟨rfl, rfl⟩] at hNone
        cases hNone
  | @value value hSet hHanded hKnown =>
      rw [hSet, Option.some_or]
      refine ⟨hSuppresses, hDestined.trans ?_, fun known hValue => congrArg some ?_⟩
      · rcases hHanded with hKept | ⟨hBefore, hNothing⟩
        · rw [hKept, Option.some_or]
        · rw [hNothing]
          exact hTold.remembered value hBefore
      · exact (hKnown known hValue).symm

theorem Told.afterAll {last : Option TagValue} (hTold : history.Told node tag last)
    (hConsistent : history.Consistent) {calls : List Call}
    (hKeeps : history.Allows (KeepsTag node tag) calls) :
    (history.afterAll calls).Told node tag ((history.lastSet? node tag calls).or last) := by
  induction calls generalizing history last with
  | nil =>
      rw [lastSet?, Option.none_or]
      exact hTold
  | cons call calls ih =>
      rw [lastSet?, Option.or_assoc]
      exact ih (hTold.after hConsistent hKeeps.1) (hConsistent.after call) hKeeps.2

/-- The last write of a tag of a whole node wins. While recording, the last
value that the output was handed for the tag is the last value that a call has
set, be it as the tag of the node or at the empty position, among the calls that
were made while recording or set it persistently. Values set at the empty
position have to be as they are remembered. -/
theorem last_tag_handed {settings : Settings} (directory : Directory)
    (hSuppresses : settings.suppressRepeatedTags = true) {node : NodeId} {tag : String}
    {calls : List Call} (hKeeps : (start settings directory).Allows (KeepsTag node tag) calls)
    (hOn : ((start settings directory).afterAll calls).recorder.on = true) :
    lastTag? node tag (((start settings directory).afterAll calls).current.map (·.command))
      = (start settings directory).lastSet? node tag calls := by
  have hConsistent := consistent_start settings directory
  have hTold : (start settings directory).Told node tag none := by
    refine ⟨hSuppresses, ?_, ?_⟩
    · rw [destined_start]
      rfl
    · intro value hValue
      cases hValue
  have hLast := (hTold.afterAll hConsistent hKeeps).destined
  rw [(hConsistent.afterAll calls).destined_on hOn, Option.or_none] at hLast
  exact hLast

end Codec

/-- A tag is set at the empty position, then as the tag of the node, and while
off it is set back. -/
def setBack : List Call :=
  [.turnOn, .report (.newNode { name := "core" } none) true,
    .report (.tagSlot 0 [] "state" (.int 1)) false,
    .report (.tagNode 0 "state" (.int 2)) false, .turnOff,
    .report (.tagNode 0 "state" (.int 1)) true, .turnOn]

theorem last_tag_handed_set_back :
    lastTag? 0 "state" (((start { text := true } {}).afterAll setBack).current.map (·.command))
      = some (.int 1) := by
  have hKeeps : (start { text := true } {}).Allows (KeepsTag 0 "state") setBack := by
    refine ⟨⟨fun _ => by decide +kernel, nofun⟩, ⟨fun _ => by decide +kernel, nofun⟩,
      ⟨fun _ => by decide +kernel, ?_⟩, ⟨fun _ => by decide +kernel, nofun⟩,
      ⟨fun _ => by decide +kernel, nofun⟩, ⟨fun _ => by decide +kernel, nofun⟩,
      ⟨fun _ => by decide +kernel, nofun⟩, trivial⟩
    -- nothing is remembered when the tag is set at the empty position
    rintro value persistent ⟨⟩ - known hKnown
    exact nomatch hKnown.symm.trans (by decide +kernel : _ = none)
  exact (last_tag_handed {} rfl hKeeps (by decide +kernel)).trans (by decide +kernel)

/-- A value that was set at the empty position stays in the output after the tag
of the node is set back to the value before it. -/
theorem tag_stuck_at_position :
    let calls : List Call := [.turnOn, .report (.newNode { name := "core" } none) true,
      .report (.tagNode 0 "state" (.int 1)) false,
      .report (.tagSlot 0 [] "state" (.int 2)) false,
      .report (.tagNode 0 "state" (.int 1)) false]
    let history := (start { text := true } {}).afterAll calls
    (start { text := true } {}).Allows KeepsOutput calls ∧ history.recorder.on = true ∧
      lastTag? 0 "state" (history.current.map (·.command)) = some (.int 2) ∧
      (start { text := true } {}).lastSet? 0 "state" calls = some (.int 1) := by
  refine ⟨⟨fun _ => ?_, fun _ => ?_, fun _ => ?_, fun _ => ?_, fun _ => ?_, trivial⟩, ?_, ?_, ?_⟩
  all_goals decide +kernel

end History
end Recording
end CycleTrace
