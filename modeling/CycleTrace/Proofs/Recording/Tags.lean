/-
What an output knows of the tags of nodes.

A value that repeats the last one of a tag is left out. This is right as long
as the last one is in the output, so what is remembered of a tag has to be on
its way there: stored, where no output is open, or else handed over. The memory
is emptied when the file or the form changes. It is not emptied when the output
is closed, and a value that was never stored is then remembered without being
on its way to the next output.
-/

import CycleTrace.Lz4.StoredBlocks
import CycleTrace.Proofs.Recording.Acceptance
import CycleTrace.Proofs.Recording.Steps

namespace CycleTrace
namespace Recording

open Output (stateAfter_of_ok)

/-! ### The memory -/

theorem TagMemory.value?_update (memory : TagMemory) (node other : NodeId) (tag name : String)
    (value : TagValue) :
    (memory.update node tag value).value? other name
      = if tag = name ∧ node = other then some value else memory.value? other name := by
  unfold TagMemory.update TagMemory.value?
  dsimp only
  rw [Std.TreeMap.getElem?_insert]
  by_cases hTag : tag = name
  · subst hTag
    rw [if_pos Std.compare_self, Option.bind_some, Std.TreeMap.getElem?_insert,
      Std.TreeMap.getD_eq_getD_getElem?]
    by_cases hNode : node = other
    · subst hNode
      rw [if_pos Std.compare_self, if_pos ⟨rfl, rfl⟩]
    · rw [if_neg (mt Std.compare_eq_iff_eq.mp hNode), if_neg fun hBoth => hNode hBoth.2]
      cases memory.values[tag]? with
      | none => exact Std.TreeMap.getElem?_emptyc
      | some values => rfl
  · rw [if_neg (mt Std.compare_eq_iff_eq.mp hTag), if_neg fun hBoth => hTag hBoth.1]

namespace Machine

variable {machine : Machine} {circumstances : Circumstances} {event : Event} {plan : Plan}

/-- A value that is remembered after an accepted event was remembered before, or
the event is the tag itself and is not dropped. -/
theorem Accepts.remembered (hAccepts : machine.Accepts circumstances event plan) {node : NodeId}
    {tag : String} {value : TagValue}
    (hValue : plan.machine.tagMemory.value? node tag = some value) :
    machine.tagMemory.value? node tag = some value ∨ (circumstances.kept = true ∧
      plan.dispatches = [⟨.tagNode node tag value [], circumstances.persistent, false⟩]) := by
  cases hAccepts with
  | @tagNode other name new hTag hNode hNew =>
      dsimp only at hValue
      split at hValue
      · next hKept =>
          rw [TagMemory.value?_update] at hValue
          split at hValue
          · next hSame =>
              obtain ⟨rfl, rfl⟩ := hSame
              cases hValue
              exact .inr ⟨(Bool.and_eq_true_iff.mp hKept).1, rfl⟩
          · exact .inl hValue
      · exact .inl hValue
  | clockedCycle hClock hNew hPlan =>
      subst hPlan
      exact .inl hValue
  | _ => exact .inl hValue

theorem Accepts.tagNode_cases {node : NodeId} {tag : String} {value : TagValue}
    (hAccepts : machine.Accepts circumstances (.tagNode node tag value) plan) :
    machine.tagMemory.value? node tag = some value ∨
      plan.dispatches = [⟨.tagNode node tag value [], circumstances.persistent, false⟩] := by
  cases hAccepts with
  | tagRepeated hTag hNode hSuppresses hRepeats => exact .inl (beq_iff_eq.mp hRepeats)
  | tagNode hTag hNode hNew => exact .inr rfl

end Machine

/-! ### Histories -/

namespace History

section Codec

variable [Lz4.Codec]

/-- What is remembered of a tag of a node. -/
def remembered (history : History) (node : NodeId) (tag : String) : Option TagValue :=
  history.recorder.machine.tagMemory.value? node tag

/-- The value of a tag is stored if it is remembered. -/
def TagStored (node : NodeId) (tag : String) (value : TagValue) (history : History) : Prop :=
  history.remembered node tag = some value →
    .tagNode node tag value [] ∈ history.recorder.store.all.toList

/-- The value of a tag is in the output or on its way to it if it is remembered. -/
def TagDestined (node : NodeId) (tag : String) (value : TagValue) (history : History) : Prop :=
  history.remembered node tag = some value → .tagNode node tag value [] ∈ history.destined

/-- A call that closes the output only where the value of a tag is stored if it
is remembered. -/
def ClosesTagged (node : NodeId) (tag : String) (value : TagValue) (history : History)
    (call : Call) : Prop :=
  call = .close → history.TagStored node tag value

variable {history : History} {call : Call} {node : NodeId} {tag : String} {value : TagValue}

theorem TagStored.destined (hStored : history.TagStored node tag value)
    (hConsistent : history.Consistent) : history.TagDestined node tag value :=
  fun hValue => hConsistent.all_subset_destined (hStored hValue)

/-- What is remembered after a call was remembered before, or the call tells it. -/
theorem Consistent.remembered_after (hConsistent : history.Consistent)
    (hValue : (history.after call).remembered node tag = some value) :
    history.remembered node tag = some value ∨ .tagNode node tag value [] ∈ history.kept call := by
  have hStep := step_after hConsistent call
  generalize history.after call = next at hStep hValue
  cases hStep with
  | recorded hPlan hOn hEncode =>
      rcases (Machine.accepts_of_plan hPlan).remembered hValue with hBefore | ⟨_, hDispatches⟩
      · exact .inl hBefore
      · right
        rw [kept_on hOn, Recorder.dispatchesOf_report hPlan, hDispatches]
        exact List.mem_singleton_self _
  | @noted event persistent plan tally hPlan hOff =>
      rcases (Machine.accepts_of_plan hPlan).remembered hValue with hBefore | ⟨hKept, hDispatches⟩
      · exact .inl hBefore
      · right
        have hPersistent : (history.recorder.on || persistent) = true := hKept
        rw [hOff, Bool.false_or] at hPersistent
        rw [kept_off hOff, Recorder.dispatchesOf_report hPlan, hDispatches]
        exact mem_persistentCommands.mpr ⟨_, List.mem_singleton_self _, hPersistent, rfl⟩
  | renamed hOff => cases hValue
  | reformed hOff hOther => cases hValue
  | _ => exact .inl hValue

/-- A new output has nothing to know of a tag, unless the last one was closed. -/
theorem Consistent.tagDestined_startsOver (hConsistent : history.Consistent)
    (hStartsOver : history.StartsOver call) (hCloses : history.ClosesTagged node tag value call) :
    (history.after call).TagDestined node tag value := by
  cases call with
  | close =>
      have hStored : (history.after .close).TagStored node tag value := hCloses rfl
      exact hStored.destined (hConsistent.after .close)
  | changeFile name =>
      rw [after_of_state (stateAfter_of_ok (Recorder.changeFile_off hStartsOver))]
      intro hValue
      cases hValue
  | setTextForm text =>
      rw [after_of_state
        (stateAfter_of_ok (Recorder.setTextForm_other hStartsOver.1 hStartsOver.2))]
      intro hValue
      cases hValue
  | _ => exact hStartsOver.elim

theorem TagDestined.after (hTold : history.TagDestined node tag value)
    (hConsistent : history.Consistent) (hCloses : history.ClosesTagged node tag value call) :
    (history.after call).TagDestined node tag value := by
  cases hConsistent.destines call with
  | startsOver hStartsOver hClosed =>
      exact hConsistent.tagDestined_startsOver hStartsOver hCloses
  | adds opening items hOpening hItems hDestined =>
      -- the value was remembered before and stays on its way, or this call puts it there
      intro hValue
      rw [hDestined]
      apply List.mem_append_right
      apply List.mem_append_left
      rcases hConsistent.remembered_after hValue with hBefore | hKept
      · exact List.mem_append_left _ (hTold hBefore)
      · exact List.mem_append_right _ hKept

theorem TagDestined.afterAll (hTold : history.TagDestined node tag value)
    (hConsistent : history.Consistent) {calls : List Call}
    (hCloses : history.Allows (ClosesTagged node tag value) calls) :
    (history.afterAll calls).TagDestined node tag value := by
  induction calls generalizing history with
  | nil => exact hTold
  | cons call calls ih =>
      exact ih (hTold.after hConsistent hCloses.1) (hConsistent.after call) hCloses.2

/-- A new output starts without a history of tags. After a call that makes the
next output a new one, a tag that is set while recording is handed over, unless
the output was handed the same value of the tag before. Changing the file or the
form asks for nothing; an output has to be closed where the value, if it is
remembered, is stored. -/
theorem tag_handed_anew {before : History} (hReached : before.Reached) {renewal : Call}
    (hStartsOver : before.StartsOver renewal) {later : List Call} {node : NodeId} {tag : String}
    {value : TagValue}
    (hCloses : before.Allows (ClosesTagged node tag value) (renewal :: later))
    (hOn : ((before.after renewal).afterAll later).recorder.on = true) {persistent : Bool}
    (hGranted : Recorder.answer (Recorder.perform (.report (.tagNode node tag value) persistent)
      ((before.after renewal).afterAll later).recorder) = .ok .done) :
    let history := (before.after renewal).afterAll later
    .tagNode node tag value [] ∈ history.current.map (·.command) ∨
      (history.after (.report (.tagNode node tag value) persistent)).current
        = history.current ++ [⟨.tagNode node tag value [], persistent⟩] := by
  intro history
  have hRenewed := hReached.consistent.after renewal
  have hConsistent : history.Consistent := hRenewed.afterAll later
  have hTold : history.TagDestined node tag value :=
    (hReached.consistent.tagDestined_startsOver hStartsOver hCloses.1).afterAll hRenewed hCloses.2
  cases hPlan : history.recorder.planned (.tagNode node tag value) persistent with
  | error fault =>
      rw [Recorder.report_refused hConsistent.isOpen hPlan] at hGranted
      cases hGranted
  | ok plan =>
      rcases (Machine.accepts_of_plan hPlan).tagNode_cases with hRemembered | hDispatches
      · left
        rw [← hConsistent.destined_on hOn]
        exact hTold hRemembered
      · right
        rw [hConsistent.current_report hOn hPlan, hDispatches]
        rfl

end Codec

/-- A recorder that has set a tag in its first output, without storing it. -/
def tagged : History :=
  (start { text := true } {}).afterAll
    [.turnOn, .report (.newNode { name := "core" } (some 0)) true,
      .report (.tagNode 0 "state" (.int 1)) false, .turnOff]

/-- The tag is set again in another file, stored this time, and the file is
started over. -/
def retagged : History :=
  (tagged.after (.changeFile "late.ptr")).afterAll
    [.turnOn, .report (.tagNode 0 "state" (.int 1)) true, .close, .turnOn]

theorem tag_handed_anew_stored :
    retagged.recorder.on = true ∧
      retagged.recorder.dispatchesOf (.report (.tagNode 0 "state" (.int 1)) false) = [] ∧
      .tagNode 0 "state" (.int 1) [] ∈ retagged.current.map (·.command) := by
  have hReached : tagged.Reached := ⟨_, _, _, rfl⟩
  have hStartsOver : tagged.StartsOver (.changeFile "late.ptr") := by
    change tagged.recorder.on = false
    decide +kernel
  have hCloses : tagged.Allows (ClosesTagged 0 "state" (.int 1)) [.changeFile "late.ptr", .turnOn,
      .report (.tagNode 0 "state" (.int 1)) true, .close, .turnOn] :=
    ⟨nofun, nofun, nofun, fun _ _ => by decide +kernel, nofun, trivial⟩
  have hOn : retagged.recorder.on = true := by decide +kernel
  have hGranted : Recorder.answer (Recorder.perform
      (.report (.tagNode 0 "state" (.int 1)) false) retagged.recorder) = .ok .done := by
    decide +kernel
  have hUntold : (retagged.after (.report (.tagNode 0 "state" (.int 1)) false)).current
      ≠ retagged.current ++ [⟨.tagNode 0 "state" (.int 1) [], false⟩] := by decide +kernel
  have hTold := tag_handed_anew hReached hStartsOver hCloses hOn hGranted
  exact ⟨hOn, by decide +kernel, hTold.resolve_right hUntold⟩

/-- After the output is closed, the next one is not told of a tag that the last
one was told of. -/
theorem tag_lost_closed :
    let history := (tagged.after .close).after .turnOn
    let again := Call.report (.tagNode 0 "state" (.int 1)) false
    tagged.StartsOver .close ∧ history.recorder.on = true ∧
      Recorder.answer (Recorder.perform again history.recorder) = .ok .done ∧
      .tagNode 0 "state" (.int 1) [] ∉ history.current.map (·.command) ∧
      (history.after again).current = history.current :=
  ⟨trivial, by decide +kernel⟩

end History
end Recording
end CycleTrace
