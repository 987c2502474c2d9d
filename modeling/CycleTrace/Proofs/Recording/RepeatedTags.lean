/-
Tags of whole nodes that are left out as repetitions.

Where repetitions are suppressed, the values of a tag that an output is handed
are the values that were set and kept, with equal neighbors merged. This is
because the memory has the last value that was kept, be it handed over or
stored, and a value that is dropped is not remembered. The memory is emptied
only when another output is chosen, and no value is set past it at the empty
position.

A value that repeats the last kept one is always accepted: the tag and the node
of a remembered value have passed their checks, and no node is ever gone. So
every repetition is counted.
-/

import CycleTrace.Lz4.StoredBlocks
import CycleTrace.Proofs.Recording.ClockedCycles
import CycleTrace.Proofs.Recording.KnownStructure
import CycleTrace.Proofs.Recording.Tallies
import CycleTrace.Proofs.Recording.WholeNodeTags
import Mathlib.Data.List.Destutter

namespace CycleTrace

/-! ### Merging equal neighbors -/

section Merging

variable {α : Type} [DecidableEq α]

theorem destutter'_concat (first : α) (values : List α) (value : α) :
    (values ++ [value]).destutter' (· ≠ ·) first
      = if (first :: values).getLast? = some value then values.destutter' (· ≠ ·) first
        else values.destutter' (· ≠ ·) first ++ [value] := by
  -- `first` is the last value that was kept; a value that is merged with it equals it
  induction values generalizing first with
  | nil =>
      by_cases hSame : first = value
      · simp [hSame]
      · simp [hSame]
  | cons second values ih =>
      rw [List.cons_append, List.getLast?_cons_cons]
      by_cases hSame : first = second
      · rw [List.destutter'_cons_neg _ (not_not_intro hSame),
          List.destutter'_cons_neg _ (not_not_intro hSame), ih first, hSame]
      · rw [List.destutter'_cons_pos _ hSame, List.destutter'_cons_pos _ hSame, ih second]
        split
        · rfl
        · rfl

/-- One more value is merged if it equals the last one. -/
theorem destutter_concat (values : List α) (value : α) :
    (values ++ [value]).destutter (· ≠ ·)
      = if values.getLast? = some value then values.destutter (· ≠ ·)
        else values.destutter (· ≠ ·) ++ [value] := by
  cases values with
  | nil => rfl
  | cons first values => exact destutter'_concat first values value

theorem destutter_append_toList (values : List α) (value? : Option α) :
    (values ++ value?.toList).destutter (· ≠ ·)
      = values.destutter (· ≠ ·)
        ++ (value?.filter fun value => values.getLast? ≠ some value).toList := by
  cases value? with
  | none => simp
  | some value =>
      rw [Option.toList_some, destutter_concat]
      by_cases hSame : values.getLast? = some value
      · simp [hSame, Option.filter_some]
      · simp [hSame, Option.filter_some]

end Merging

namespace Recording

open Output (Directory stateAfter_of_ok)

/-- Whether an event sets a tag of a whole node to the value that is remembered. -/
def Event.repeats (event : Event) (memory : TagMemory) : Bool :=
  match event with
  | .tagNode node tag value => memory.repeats node tag value
  | _ => false

/-! ### Machines -/

namespace Machine

variable {machine : Machine} {circumstances : Circumstances} {event : Event} {plan : Plan}
  {node : NodeId} {tag : String}

/-- An accepted event tells of the value that it gives a tag, unless it is the
remembered one. -/
theorem Accepts.tells (hAccepts : machine.Accepts circumstances event plan)
    (hSuppresses : circumstances.suppressRepeatedTags = true)
    (hSlots : ∀ value, event ≠ .tagSlot node [] tag value) :
    (plan.dispatches.map (·.command)).filterMap (Command.tagValue? node tag)
      = ((event.tagValue? node tag).filter fun value =>
          machine.tagMemory.value? node tag ≠ some value).toList := by
  cases hValue : event.tagValue? node tag with
  | none =>
      refine List.filterMap_eq_nil_iff.mpr (List.forall_mem_map.mpr fun sent hSent => ?_)
      exact (hAccepts.tagValue?_dispatches node tag sent hSent).trans hValue
  | some value =>
      rcases tagValue?_eq_some hValue with rfl | rfl
      · cases hAccepts with
        | tagRepeated hTag hNode _ hRepeats =>
            have hKnown : machine.tagMemory.value? node tag = some value := beq_iff_eq.mp hRepeats
            simp [hKnown, Option.filter_some]
        | tagNode hTag hNode hNew =>
            have hOther : machine.tagMemory.value? node tag ≠ some value :=
              beq_eq_false_iff_ne.mp (hNew hSuppresses)
            simp [hOther, Command.tagValue?, Option.filter_some]
      · exact absurd rfl (hSlots value)

/-- The memory has the last value that was kept. -/
theorem Accepts.value?_after (hAccepts : machine.Accepts circumstances event plan)
    (hSuppresses : circumstances.suppressRepeatedTags = true)
    (hSlots : ∀ value, event ≠ .tagSlot node [] tag value) :
    plan.machine.tagMemory.value? node tag
      = (if circumstances.kept then event.tagValue? node tag else none).or
          (machine.tagMemory.value? node tag) := by
  cases hAccepts with
  | @tagRepeated other name value hTag hNode _ hRepeats =>
      have hKnown : machine.tagMemory.value? other name = some value := beq_iff_eq.mp hRepeats
      cases circumstances.kept with
      | false => rfl
      | true =>
          rw [if_pos rfl, Event.tagValue?]
          split
          · next hSame =>
              obtain ⟨rfl, rfl⟩ := hSame
              exact hKnown
          · rfl
  | @tagNode other name value hTag hNode hNew =>
      dsimp only
      rw [hSuppresses, Bool.and_true]
      cases circumstances.kept with
      | false => rfl
      | true =>
          rw [if_pos rfl, if_pos rfl, TagMemory.value?_update, Event.tagValue?]
          by_cases hSame : other = node ∧ name = tag
          · rw [if_pos hSame, if_pos hSame.symm]
            rfl
          · rw [if_neg hSame, if_neg (mt And.symm hSame)]
            rfl
  | @tagSlot other position name value hTag hPosition =>
      cases position with
      | cons first rest => exact (congrArg (Option.or · _) (ite_self none)).symm
      | nil =>
          have hOther : ¬ (other = node ∧ name = tag) := by
            rintro ⟨rfl, rfl⟩
            exact hSlots value rfl
          rw [Event.tagValue?, if_neg hOther, ite_self]
          rfl
  | clockedCycle hClock hNew hPlan =>
      subst hPlan
      exact (congrArg (Option.or · _) (ite_self none)).symm
  | _ => exact (congrArg (Option.or · _) (ite_self none)).symm

/-- An accepted event leaves out a tag exactly if it repeats what is remembered. -/
theorem Accepts.suppressedTags (hAccepts : machine.Accepts circumstances event plan)
    (hSuppresses : circumstances.suppressRepeatedTags = true) :
    plan.suppressedTags = if event.repeats machine.tagMemory then 1 else 0 := by
  cases hAccepts with
  | tagRepeated hTag hNode _ hRepeats => exact (if_pos hRepeats).symm
  | tagNode hTag hNode hNew =>
      exact (if_neg (Bool.eq_false_iff.mp (hNew hSuppresses))).symm
  | clockedCycle hClock hNew hPlan =>
      subst hPlan
      rfl
  | _ => rfl

/-- A remembered tag has passed the checks of its name, its value and its node. -/
def Vouched (machine : Machine) : Prop :=
  ∀ node tag value, machine.tagMemory.value? node tag = some value →
    checkTag tag value = .ok () ∧ machine.topology.requireNode node = .ok ()

theorem Accepts.vouched (hAccepts : machine.Accepts circumstances event plan)
    (hVouched : machine.Vouched) : plan.machine.Vouched := by
  intro node tag value hValue
  -- the value is checked before the event, and a node that is known stays known
  have hKept (hChecked : checkTag tag value = .ok () ∧
      machine.topology.requireNode node = .ok ()) :
      checkTag tag value = .ok () ∧ plan.machine.topology.requireNode node = .ok () := by
    have hContains := Structure.Topology.contains_of_requireNode hChecked.2
    exact ⟨hChecked.1, if_pos (hAccepts.grows.keeps.contains hContains)⟩
  apply hKept
  cases hAccepts with
  | @tagNode other name new hTag hNode hNew =>
      dsimp only at hValue
      split at hValue
      · rw [TagMemory.value?_update] at hValue
        split at hValue
        · next hSame =>
            obtain ⟨rfl, rfl⟩ := hSame
            cases hValue
            exact ⟨hTag, hNode⟩
        · exact hVouched node tag value hValue
      · exact hVouched node tag value hValue
  | clockedCycle hClock hNew hPlan =>
      subst hPlan
      exact hVouched node tag value hValue
  | _ => exact hVouched node tag value hValue

/-- An event that repeats what is remembered is accepted. -/
theorem Vouched.plan_of_repeats (hVouched : machine.Vouched)
    (hSuppresses : circumstances.suppressRepeatedTags = true)
    (hRepeats : event.repeats machine.tagMemory = true) :
    ∃ plan, machine.plan circumstances event = .ok plan := by
  cases event with
  | tagNode node tag value =>
      have hSame : machine.tagMemory.repeats node tag value = true := hRepeats
      obtain ⟨hTag, hNode⟩ := hVouched node tag value (beq_iff_eq.mp hSame)
      refine ⟨{ machine, suppressedTags := 1 }, ?_⟩
      simp only [Machine.plan, Machine.tagNode, hTag, hNode, hSuppresses, hSame]
      rfl
  | _ => cases hRepeats

end Machine

/-! ### The count -/

namespace Recorder

variable [Lz4.Codec]

/-- The number of tags that were left out. -/
def leftOut (recorder : Recorder) : Nat :=
  recorder.tally.suppressedTags

end Recorder

/-! ### Histories -/

namespace History

section Codec

variable [Lz4.Codec]

/-- The values of a tag of a whole node that calls in order set, but for those
that were dropped. -/
def keptTags (node : NodeId) (tag : String) (history : History) : List Call → List TagValue
  | [] => []
  | call :: calls =>
      (history.setsTag? node tag call).toList ++ (history.after call).keptTags node tag calls

/-- Whether a call sets a tag of a whole node to the last value of the tag that
was kept of the calls before. -/
def repeatsKept (origin : History) (before : List Call) : Call → Bool
  | .report (.tagNode node tag value) _ =>
      (origin.keptTags node tag before).getLast? == some value
  | _ => false

/-- How many calls in order do so, where others come before them. -/
def repetitions (origin : History) (before : List Call) : List Call → Nat
  | [] => 0
  | call :: calls =>
      (if origin.repeatsKept before call then 1 else 0)
        + origin.repetitions (before ++ [call]) calls

variable {history origin : History} {call : Call} {before : List Call} {node : NodeId}
  {tag : String}

theorem keptTags_concat (origin : History) (before : List Call) (call : Call) (node : NodeId)
    (tag : String) :
    origin.keptTags node tag (before ++ [call])
      = origin.keptTags node tag before
        ++ ((origin.afterAll before).setsTag? node tag call).toList := by
  induction before generalizing origin with
  | nil => exact List.append_nil _
  | cons first before ih =>
      rw [List.cons_append, keptTags, keptTags, ih, List.append_assoc]
      rfl

/-- What a call keeps of a tag is the value that it sets, unless that is the
remembered one. -/
theorem Consistent.filterMap_kept (hConsistent : history.Consistent)
    (hSuppresses : history.recorder.settings.suppressRepeatedTags = true)
    (hSlots : ∀ value persistent, call ≠ .report (.tagSlot node [] tag value) persistent) :
    (history.kept call).filterMap (Command.tagValue? node tag)
      = ((history.setsTag? node tag call).filter fun value =>
          history.remembered node tag ≠ some value).toList := by
  have hNothing (hSilent : history.recorder.dispatchesOf call = [])
      (hUnset : history.setsTag? node tag call = none) :
      (history.kept call).filterMap (Command.tagValue? node tag)
        = ((history.setsTag? node tag call).filter fun value =>
            history.remembered node tag ≠ some value).toList := by
    rw [kept_of_nothing hSilent, hUnset]
    rfl
  cases call with
  | report event persistent =>
      cases hPlan : history.recorder.planned event persistent with
      | error fault =>
          exact hNothing (Recorder.dispatchesOf_report_refused hPlan)
            (hConsistent.setsTag?_refused node tag hPlan)
      | ok plan =>
          have hAccepts := Machine.accepts_of_plan hPlan
          have hDispatches := Recorder.dispatchesOf_report hPlan
          have hTells := @Machine.Accepts.tells _ _ _ _ node tag hAccepts hSuppresses
            fun value hSame => hSlots value persistent (congrArg (Call.report · persistent) hSame)
          rw [hConsistent.setsTag?_report node tag hPlan]
          cases hValue : event.tagValue? node tag with
          | none =>
              rw [ite_self]
              refine List.filterMap_eq_nil_iff.mpr fun command hCommand => ?_
              obtain ⟨sent, hSent, rfl⟩ := List.mem_map.mp (kept_subset history _ hCommand)
              have hTold := hAccepts.tagValue?_dispatches node tag sent (hDispatches ▸ hSent)
              exact hTold.trans hValue
          | some value =>
              rw [hValue] at hTells
              have hCases : (history.remembered node tag = some value ∧ plan.dispatches = []) ∨
                  plan.dispatches = [⟨.tagNode node tag value [], persistent, false⟩] :=
                hAccepts.tagValue?_cases hValue
              rcases hCases with ⟨_, hSilent⟩ | hSingle
              · rw [hSilent] at hTells
                rw [kept_of_nothing (hDispatches.trans hSilent)]
                cases history.recorder.on || persistent with
                | true => exact hTells
                | false => rfl
              · rw [hSingle] at hTells
                rw [kept_of_single (hDispatches.trans hSingle)]
                cases history.recorder.on || persistent with
                | true => exact hTells
                | false => rfl
  | _ => exact hNothing rfl (setsTag?_of_other node tag fun _ _ => Call.noConfusion)

/-- As long as no other output is chosen, the memory has the last value that
was kept. -/
theorem Consistent.remembered_goesOn (hConsistent : history.Consistent)
    (hSuppresses : history.recorder.settings.suppressRepeatedTags = true)
    (hGoesOn : history.GoesOn call)
    (hSlots : ∀ value persistent, call ≠ .report (.tagSlot node [] tag value) persistent) :
    (history.after call).remembered node tag
      = (history.setsTag? node tag call).or (history.remembered node tag) := by
  have hQuiet (hOther : ∀ event persistent, call ≠ .report event persistent) :
      (history.after call).remembered node tag = history.remembered node tag := by
    have hStep := step_after hConsistent call
    generalize history.after call = next at hStep
    cases hStep with
    | recorded | noted => exact absurd rfl (hOther _ _)
    | renamed hOff => exact absurd hOff hGoesOn
    | reformed hOff hDifferent => exact absurd ⟨hOff, hDifferent⟩ hGoesOn
    | _ => rfl
  cases call with
  | report event persistent =>
      cases hPlan : history.recorder.planned event persistent with
      | error fault =>
          rw [hConsistent.setsTag?_refused node tag hPlan, Option.none_or,
            after_of_state (Recorder.stateAfter_refused hConsistent.isOpen hPlan)]
          rfl
      | ok plan =>
          obtain ⟨next, hReport, hMachine⟩ := hConsistent.answer_report hPlan
          have hAccepts := Machine.accepts_of_plan hPlan
          rw [hConsistent.setsTag?_report node tag hPlan,
            after_of_state (stateAfter_of_ok hReport)]
          unfold remembered
          rw [hMachine]
          exact hAccepts.value?_after hSuppresses fun value hSame =>
            hSlots value persistent (congrArg (Call.report · persistent) hSame)
  | _ =>
      rw [setsTag?_of_other node tag fun _ _ => Call.noConfusion, Option.none_or]
      exact hQuiet fun _ _ => Call.noConfusion

/-- Remembered tags stay good while no node is ever gone. -/
theorem Consistent.vouched_after (hConsistent : history.Consistent)
    (hVouched : history.recorder.machine.Vouched) (call : Call) :
    (history.after call).recorder.machine.Vouched := by
  have hStep := step_after hConsistent call
  generalize history.after call = next at hStep
  cases hStep with
  | recorded hPlan | noted hPlan => exact (Machine.accepts_of_plan hPlan).vouched hVouched
  | renamed | reformed =>
      intro node tag value hValue
      cases hValue
  | _ => exact hVouched

/-- A report is counted exactly if it repeats what is remembered. -/
theorem Consistent.leftOut_after (hConsistent : history.Consistent)
    (hSuppresses : history.recorder.settings.suppressRepeatedTags = true)
    (hVouched : history.recorder.machine.Vouched) {event : Event} {persistent : Bool} :
    (history.after (.report event persistent)).recorder.leftOut
      = history.recorder.leftOut
        + if event.repeats history.recorder.machine.tagMemory then 1 else 0 := by
  cases hPlan : history.recorder.planned event persistent with
  | error fault =>
      have hNew : ¬ event.repeats history.recorder.machine.tagMemory = true := by
        intro hRepeats
        obtain ⟨plan, hAccepted⟩ := @Machine.Vouched.plan_of_repeats _
          (history.recorder.circumstances persistent) event hVouched hSuppresses hRepeats
        cases hPlan.symm.trans hAccepted
      rw [if_neg hNew, after_of_state (Recorder.stateAfter_refused hConsistent.isOpen hPlan)]
      rfl
  | ok plan =>
      have hAccepts := Machine.accepts_of_plan hPlan
      unfold Recorder.leftOut
      rw [(hConsistent.counted_report hPlan).1, ← hAccepts.suppressedTags hSuppresses,
        Tally.carriedOut, Tally.dispatchedAll_eq]

/-- What a recorder knows of tags after calls that choose no other output. -/
structure Merges (origin : History) (before : List Call) (history : History) : Prop where
  reached : history = origin.afterAll before
  consistent : history.Consistent
  suppresses : history.recorder.settings.suppressRepeatedTags = true
  vouched : history.recorder.machine.Vouched
  destined : ∀ node tag, history.destined.filterMap (Command.tagValue? node tag)
    = (origin.keptTags node tag before).destutter (· ≠ ·)
  remembered : ∀ node tag,
    history.remembered node tag = (origin.keptTags node tag before).getLast?

theorem merges_start {settings : Settings} (directory : Directory)
    (hSuppresses : settings.suppressRepeatedTags = true) :
    (start settings directory).Merges [] (start settings directory) where
  reached := rfl
  consistent := consistent_start settings directory
  suppresses := hSuppresses
  vouched := fun _ _ _ hValue => nomatch hValue
  destined := fun _ _ => congrArg _ (destined_start settings directory)
  remembered := fun _ _ => rfl

theorem Merges.after (hMerges : origin.Merges before history) (hGoesOn : history.GoesOn call)
    (hSlots : ∀ node tag value persistent,
      call ≠ .report (.tagSlot node [] tag value) persistent) :
    origin.Merges (before ++ [call]) (history.after call) := by
  have hConsistent := hMerges.consistent
  refine ⟨?_, hConsistent.after call, suppresses_after call hConsistent hMerges.suppresses,
    hConsistent.vouched_after hMerges.vouched call, fun node tag => ?_, fun node tag => ?_⟩
  · rw [afterAll_append, ← hMerges.reached]
    rfl
  · cases hConsistent.destines call with
    | startsOver hStartsOver => exact absurd hStartsOver hGoesOn
    | adds opening items hOpening hItems hDestined =>
        rw [hDestined, filterMap_grown hOpening rfl fun _ => rfl, hMerges.destined node tag,
          hConsistent.filterMap_kept hMerges.suppresses (hSlots node tag), keptTags_concat,
          ← hMerges.reached, destutter_append_toList, hMerges.remembered node tag]
  · rw [hConsistent.remembered_goesOn hMerges.suppresses hGoesOn (hSlots node tag),
      keptTags_concat, ← hMerges.reached, List.getLast?_append, hMerges.remembered node tag]
    cases history.setsTag? node tag call <;> rfl

theorem Merges.leftOut_after (hMerges : origin.Merges before history) (call : Call) :
    (history.after call).recorder.leftOut
      = history.recorder.leftOut + if origin.repeatsKept before call then 1 else 0 := by
  have hQuiet (hOther : ∀ event persistent, call ≠ .report event persistent) :
      (history.after call).recorder.leftOut = history.recorder.leftOut :=
    (hMerges.consistent.accounted call).suppressedTags hOther
  cases call with
  | report event persistent =>
      rw [hMerges.consistent.leftOut_after hMerges.suppresses hMerges.vouched]
      cases event with
      | tagNode node tag value =>
          have hRepeats : origin.repeatsKept before (.report (.tagNode node tag value) persistent)
              = ((origin.keptTags node tag before).getLast? == some value) := rfl
          rw [hRepeats, ← hMerges.remembered node tag]
          rfl
      | _ => rfl
  | _ => exact hQuiet fun _ _ => Call.noConfusion

/-- The memory follows the calls, and so does the count. -/
theorem Merges.afterAll (hMerges : origin.Merges before history) {calls : List Call}
    (hGoesOn : history.Allows GoesOn calls)
    (hSlots : ∀ node tag value persistent,
      .report (.tagSlot node [] tag value) persistent ∉ calls) :
    origin.Merges (before ++ calls) (history.afterAll calls) ∧
      (history.afterAll calls).recorder.leftOut
        = history.recorder.leftOut + origin.repetitions before calls := by
  induction calls generalizing before history with
  | nil =>
      rw [List.append_nil]
      exact ⟨hMerges, rfl⟩
  | cons call calls ih =>
      have hNext := hMerges.after hGoesOn.1 fun node tag value persistent hSame =>
        hSlots node tag value persistent (hSame ▸ List.mem_cons_self)
      obtain ⟨hLast, hCount⟩ := ih hNext hGoesOn.2 fun node tag value persistent hMember =>
        hSlots node tag value persistent (List.mem_cons_of_mem _ hMember)
      rw [List.append_assoc] at hLast
      refine ⟨hLast, hCount.trans ?_⟩
      rw [hMerges.leftOut_after call, repetitions, Nat.add_assoc]

/-- Suppression merges equal neighbors and nothing else. As long as no other
output is chosen and no tag is set at the empty position, while recording the
output was handed, for every tag of every node, the values that were set while
recording or persistently, with equal neighbors merged. The count of tags that
were left out is at all times the number of calls that set a tag to the last
value of it that was kept. -/
theorem tags_destuttered {settings : Settings} (directory : Directory)
    (hSuppresses : settings.suppressRepeatedTags = true) {calls : List Call}
    (hGoesOn : (start settings directory).Allows GoesOn calls)
    (hSlots : ∀ node tag value persistent,
      .report (.tagSlot node [] tag value) persistent ∉ calls) :
    let history := (start settings directory).afterAll calls
    (history.recorder.on = true → ∀ node tag,
      (history.current.map (·.command)).filterMap (Command.tagValue? node tag)
        = ((start settings directory).keptTags node tag calls).destutter (· ≠ ·)) ∧
    history.recorder.tally.suppressedTags = (start settings directory).repetitions [] calls := by
  intro history
  obtain ⟨hMerges, hCount⟩ :=
    (merges_start directory hSuppresses).afterAll hGoesOn hSlots
  refine ⟨fun hOn node tag => ?_, hCount.trans (Nat.zero_add _)⟩
  rw [← hMerges.consistent.destined_on hOn]
  exact hMerges.destined node tag

end Codec

/-- Calls that repeat a tag while recording, and while off both a value that was
dropped and one that was stored. -/
def repeatedTags : List Call :=
  [.turnOn, .report (.newNode { name := "core" } none) true,
    .report (.tagNode 0 "state" (.int 1)) false, .report (.tagNode 0 "state" (.int 1)) true,
    .report (.tagNode 0 "mode" (.int 1)) false, .turnOff,
    .report (.tagNode 0 "state" (.int 2)) false, .report (.tagNode 0 "state" (.int 1)) false,
    .report (.tagNode 0 "state" (.int 3)) true, .turnOn,
    .report (.tagNode 0 "state" (.int 3)) false, .report (.tagNode 0 "state" (.int 1)) false]

theorem tags_destuttered_repeatedTags :
    let history := (start { text := true } {}).afterAll repeatedTags
    (history.current.map (·.command)).filterMap (Command.tagValue? 0 "state")
      = [.int 1, .int 3, .int 1] ∧
    (start { text := true } {}).keptTags 0 "state" repeatedTags
      = [.int 1, .int 1, .int 3, .int 3, .int 1] ∧
    history.recorder.tally.suppressedTags = 3 := by
  have hGoesOn : (start { text := true } {}).Allows GoesOn repeatedTags :=
    ⟨id, id, id, id, id, id, id, id, id, id, id, id, trivial⟩
  have hSlots : ∀ node tag value persistent,
      .report (.tagSlot node [] tag value) persistent ∉ repeatedTags := by
    simp [repeatedTags]
  have hKept : (start { text := true } {}).keptTags 0 "state" repeatedTags
      = [.int 1, .int 1, .int 3, .int 3, .int 1] := by decide +kernel
  have hCount : (start { text := true } {}).repetitions [] repeatedTags = 3 := by decide +kernel
  obtain ⟨hHanded, hLeftOut⟩ := tags_destuttered {} rfl hGoesOn hSlots
  refine ⟨(hHanded (by decide +kernel) 0 "state").trans ?_, hKept, hLeftOut.trans hCount⟩
  rw [hKept]
  rfl

end History
end Recording
end CycleTrace
