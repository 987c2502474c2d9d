/-
A report does what is planned for it.

A report takes its steps one by one and undoes none of them. For a recorder that
has an output while it is on, the steps come to what the plan says at once: a
report with a plan carries it out, and a report without one fails before it has
done anything. For the most part this is the order of the steps, for the checks
come first. Where a check comes after a dispatch, the dispatch has left alone
what the check looks at.
-/

import CycleTrace.Proofs.Recording.Dispatching
import CycleTrace.Proofs.Recording.Plans
import CycleTrace.Proofs.Structure.Topology
import CycleTrace.Recording.Reports

namespace CycleTrace
namespace Recording

open Output (bind_of_ok)
open Structure (Node NodeDeclaration EdgeDeclaration ClockDeclaration)

/-- The counts after an event that was accepted. -/
def Tally.carriedOut (tally : Tally) (on : Bool) (plan : Plan) : Tally :=
  { tally.dispatchedAll on plan.dispatches with
    suppressedTags :=
      (tally.dispatchedAll on plan.dispatches).suppressedTags + plan.suppressedTags }

namespace Recorder

variable [Lz4.Codec]

/-! ### Plans carried out -/

/-- The circumstances of an event reported now. -/
def circumstances (recorder : Recorder) (persistent : Bool) : Circumstances :=
  { recording := recorder.on
    persistent
    suppressRepeatedTags := recorder.settings.suppressRepeatedTags }

/-- What a report leads to for the machine as it is. -/
def planned (recorder : Recorder) (event : Event) (persistent : Bool) : Except Fault Plan :=
  recorder.machine.plan (recorder.circumstances persistent) event

/-- Carries out a plan. -/
def carryOut (plan : Plan) : Action Reply := do
  plan.dispatches.forM dispatch
  modifyMachine fun _ => plan.machine
  count fun tally => { tally with suppressedTags := tally.suppressedTags + plan.suppressedTags }
  return plan.reply

/-- Carries out a plan, where there is one. -/
def enact : Except Fault Plan → Action Reply
  | .ok plan => carryOut plan
  | .error fault => throw fault

section Steps

variable {recorder : Recorder}

theorem carryOut_eq (hOutput : recorder.HasOutput) (plan : Plan) :
    carryOut plan recorder = .ok plan.reply
      { recorder.afterDispatches plan.dispatches plan.machine with
        tally := recorder.tally.carriedOut recorder.on plan } :=
  (bind_of_ok (dispatchAll hOutput plan.dispatches)).trans rfl

/-- What ends as a plan does carries it out. -/
theorem enact_of_outcome (hOutput : recorder.HasOutput) {plan : Plan}
    {outcome : EStateM.Result Fault Recorder Reply}
    (hOutcome : outcome = .ok plan.reply
      { recorder.afterDispatches plan.dispatches plan.machine with
        tally := recorder.tally.carriedOut recorder.on plan }) :
    outcome = enact (.ok plan) recorder :=
  hOutcome.trans (carryOut_eq hOutput plan).symm

/-! ### Steps of a report -/

theorem get_bind (next : Recorder → Action α) :
    (get >>= next) recorder = next recorder recorder :=
  rfl

theorem ensure_of_ok {checked : Except Fault α} {value : α} (hChecked : checked = .ok value) :
    ensure checked recorder = .ok value recorder := by
  rw [hChecked]
  rfl

/-- A check that comes first is one that the plan makes first. -/
theorem ensure_enacts {checked : Except Fault α} {next : α → Action Reply}
    {plan : α → Except Fault Plan}
    (hNext : ∀ value, checked = .ok value →
      next value recorder = enact (plan value) recorder) :
    (ensure checked >>= next) recorder = enact (checked >>= plan) recorder := by
  cases hChecked : checked with
  | error fault => rfl
  | ok value => exact (bind_of_ok rfl).trans (hNext value hChecked)

/-- A choice is made as the plan makes it. -/
theorem choice_enacts {condition : Prop} [Decidable condition] {one other : Action Reply}
    {plan otherPlan : Except Fault Plan}
    (hOne : condition → one recorder = enact plan recorder)
    (hOther : ¬ condition → other recorder = enact otherPlan recorder) :
    (if condition then one else other) recorder
      = enact (if condition then plan else otherPlan) recorder := by
  split
  · exact hOne ‹_›
  · exact hOther ‹_›

/-- The machine may be changed on a condition. -/
theorem modifyIf_afterDispatches (sent : List Dispatch) (machine : Machine)
    (condition : Prop) [Decidable condition] (change : Machine → Machine) :
    (if condition then do modifyMachine change; return .done else return .done : Action Reply)
        (recorder.afterDispatches sent machine)
      = .ok .done
          (recorder.afterDispatches sent (if condition then change machine else machine)) := by
  split <;> rfl

/-- A plan with one dispatch, after which the machine is changed in one step or
in several. -/
theorem dispatch_enacts (hOutput : recorder.HasOutput) {sent : Dispatch}
    {next : Unit → Action Reply} {plan : Plan} (hSent : plan.dispatches = [sent])
    (hNext : next () (recorder.afterDispatches [sent] recorder.machine) = .ok plan.reply
      { recorder.afterDispatches [sent] plan.machine with
        tally := recorder.tally.carriedOut recorder.on plan }) :
    (dispatch sent >>= next) recorder = enact (.ok plan) recorder := by
  refine enact_of_outcome hOutput ((bind_of_ok (dispatch_first hOutput sent)).trans ?_)
  rw [hSent]
  exact hNext

/-! ### Structure -/

theorem newNode_enacts (hOutput : recorder.HasOutput) (persistent : Bool)
    (declaration : NodeDeclaration) (id? : Option NodeId) :
    newNode persistent declaration id? recorder
      = enact (recorder.machine.newNode persistent declaration id?) recorder :=
  ensure_enacts fun _ _ => dispatch_enacts hOutput rfl rfl

theorem newEdge_enacts (hOutput : recorder.HasOutput) (persistent : Bool)
    (declaration : EdgeDeclaration) (id? : Option EdgeId) :
    newEdge persistent declaration id? recorder
      = enact (recorder.machine.newEdge persistent declaration id?) recorder :=
  ensure_enacts fun _ _ => dispatch_enacts hOutput rfl rfl

theorem newClock_enacts (hOutput : recorder.HasOutput) (persistent : Bool)
    (declaration : ClockDeclaration) :
    newClock persistent declaration recorder
      = enact (recorder.machine.newClock persistent declaration) recorder :=
  ensure_enacts fun _ _ => dispatch_enacts hOutput rfl rfl

/-- The node is looked up again after the dispatch, and is still there. -/
theorem setLayout_enacts (hOutput : recorder.HasOutput) (persistent : Bool) (id : NodeId)
    (dimensions : List UInt32) :
    setLayout persistent id dimensions recorder
      = enact (recorder.machine.setLayout persistent id dimensions) recorder := by
  refine ensure_enacts fun layout hChecked => ?_
  obtain ⟨node, hNode, _⟩ := ok_of_bind hChecked
  rw [hNode]
  refine dispatch_enacts hOutput rfl ((bind_of_ok (ensure_of_ok hNode)).trans ?_)
  cases hAutoflush : node.autoflush with
  | true => rfl
  | false => rfl

/-- So is a node that is revised. -/
theorem reviseNode_afterDispatches (sent : List Dispatch) {id : NodeId}
    (hKnown : recorder.machine.topology.requireNode id = .ok ()) (change : Node → Node) :
    reviseNode id change (recorder.afterDispatches sent recorder.machine) = .ok ()
      (recorder.afterDispatches sent { recorder.machine with
        topology := recorder.machine.topology.modifyNode id change }) :=
  (bind_of_ok (ensure_of_ok hKnown)).trans rfl

theorem setClock_enacts (hOutput : recorder.HasOutput) (persistent : Bool) (id : NodeId)
    (clock : ClockId) :
    setClock persistent id clock recorder
      = enact (recorder.machine.setClock persistent id clock) recorder :=
  ensure_enacts fun _ hNode => ensure_enacts fun _ _ =>
    dispatch_enacts hOutput rfl ((bind_of_ok (reviseNode_afterDispatches _ hNode _)).trans rfl)

theorem setBandwidth_enacts (hOutput : recorder.HasOutput) (persistent : Bool) (id : NodeId)
    (command : Command) (change : Node → Node) :
    setBandwidth persistent id command change recorder
      = enact (recorder.machine.setBandwidth persistent id command change) recorder :=
  ensure_enacts fun _ hNode =>
    dispatch_enacts hOutput rfl ((bind_of_ok (reviseNode_afterDispatches _ hNode change)).trans rfl)

/-! ### Items -/

theorem newItem_enacts (hOutput : recorder.HasOutput) (persistent : Bool) (id? : Option ItemId) :
    newItem persistent id? recorder
      = enact (recorder.machine.newItem persistent id?) recorder := by
  cases id? with
  | none => exact dispatch_enacts hOutput rfl rfl
  | some id => exact ensure_enacts fun _ _ => dispatch_enacts hOutput rfl rfl

theorem deleteItem_enacts (hOutput : recorder.HasOutput) (persistent : Bool) (item : ItemId) :
    deleteItem persistent item recorder
      = enact (recorder.machine.deleteItem persistent item) recorder :=
  ensure_enacts fun _ _ => dispatch_enacts hOutput rfl rfl

theorem moveItems_enacts (hOutput : recorder.HasOutput) (persistent : Bool) (edge : EdgeId)
    (items : List ItemId) (positions : List UInt32) :
    moveItems persistent edge items positions recorder
      = enact (recorder.machine.moveItems persistent edge items positions) recorder := by
  refine ensure_enacts fun _ _ => choice_enacts (fun _ => rfl) fun _ => ?_
  exact dispatch_enacts hOutput rfl rfl

/-! ### Occupants -/

theorem tellArrival_eq (hOutput : recorder.HasOutput) (persistent : Bool) (node : NodeId)
    (item : ItemId) (position : List UInt32) (arrival : Arrival) :
    tellArrival persistent node item position arrival recorder
      = .ok (arrival == .stays || (recorder.circumstances persistent).kept)
          (recorder.afterDispatches
            (Machine.arrivalDispatches arrival persistent node item position)
            recorder.machine) := by
  cases arrival with
  | stays => exact congrArg (EStateM.Result.ok true) (afterDispatches_nil recorder).symm
  | enters => exact route_first hOutput _ _
  | replaces evicted evictedPersistent =>
      refine (bind_of_ok (dispatch_first hOutput _)).trans ?_
      exact route_afterDispatches _ _ hOutput _ _

theorem enterNode_enacts (hOutput : recorder.HasOutput) (persistent : Bool) (node : NodeId)
    (item : ItemId) (position : List UInt32) :
    enterNode persistent node item position recorder
      = enact (recorder.machine.enterNode (recorder.circumstances persistent) node item position)
          recorder := by
  refine ensure_enacts fun _ _ => ensure_enacts fun _ _ => (get_bind _).trans ?_
  cases hTracked : recorder.machine.occupancy.get? node with
  | none => exact dispatch_enacts hOutput rfl rfl
  | some occupancy =>
      refine (bind_of_ok (tellArrival_eq hOutput _ _ _ _ _)).trans ?_
      exact enact_of_outcome hOutput rfl

theorem exitNode_enacts (hOutput : recorder.HasOutput) (persistent : Bool) (node : NodeId)
    (item : ItemId) (position : List UInt32) :
    exitNode persistent node item position recorder
      = enact (recorder.machine.exitNode persistent node item position) recorder := by
  refine ensure_enacts fun _ _ => ensure_enacts fun _ _ => (get_bind _).trans ?_
  cases hTracked : recorder.machine.occupancy.get? node with
  | none => exact dispatch_enacts hOutput rfl rfl
  | some occupancy => exact ensure_enacts fun _ _ => dispatch_enacts hOutput rfl rfl

/-! ### Tags -/

theorem tagNode_enacts (hOutput : recorder.HasOutput) (persistent : Bool) (node : NodeId)
    (tag : String) (value : TagValue) :
    tagNode persistent node tag value recorder
      = enact (recorder.machine.tagNode (recorder.circumstances persistent) node tag value)
          recorder := by
  refine ensure_enacts fun _ _ => ensure_enacts fun _ _ => (get_bind _).trans ?_
  refine choice_enacts (fun _ => rfl) fun _ => ?_
  refine enact_of_outcome hOutput ((bind_of_ok (route_first hOutput _ _)).trans ?_)
  exact (modifyIf_afterDispatches _ _ _ _).trans rfl

theorem tagSlot_enacts (hOutput : recorder.HasOutput) (persistent : Bool) (node : NodeId)
    (position : List UInt32) (tag : String) (value : TagValue) :
    tagSlot persistent node position tag value recorder
      = enact (recorder.machine.tagSlot persistent node position tag value) recorder :=
  ensure_enacts fun _ _ => ensure_enacts fun _ _ => dispatch_enacts hOutput rfl rfl

theorem tagItem_enacts (hOutput : recorder.HasOutput) (persistent : Bool) (item : ItemId)
    (tag : String) (value : TagValue) :
    tagItem persistent item tag value recorder
      = enact (recorder.machine.tagItem persistent item tag value) recorder :=
  ensure_enacts fun _ _ => ensure_enacts fun _ _ => dispatch_enacts hOutput rfl rfl

theorem tagCycle_enacts (hOutput : recorder.HasOutput) (persistent : Bool) (tag : String)
    (value : TagValue) :
    tagCycle persistent tag value recorder
      = enact (recorder.machine.tagCycle persistent tag value) recorder :=
  ensure_enacts fun _ _ => dispatch_enacts hOutput rfl rfl

theorem describeTag_enacts (hOutput : recorder.HasOutput) (persistent : Bool)
    (tag description : String) :
    describeTag persistent tag description recorder
      = enact (recorder.machine.describeTag persistent tag description) recorder :=
  ensure_enacts fun _ _ => ensure_enacts fun _ _ => dispatch_enacts hOutput rfl rfl

/-! ### Cycles -/

/-- The slots are vacated before their exits are dispatched, and the traffic is
closed after them. -/
theorem endCycle_eq (hOutput : recorder.HasOutput) (accepts : NodeId → Bool) :
    endCycle accepts recorder = .ok ()
      (recorder.afterDispatches
        (Machine.departureDispatches (recorder.machine.occupancy.endCycle accepts).1)
        { recorder.machine with
          occupancy := (recorder.machine.occupancy.endCycle accepts).2
          traffic := recorder.machine.traffic.map (·.endCycle) }) := by
  unfold endCycle
  refine (get_bind _).trans ((bind_of_ok (modifyMachine_first _)).trans ?_)
  exact (bind_of_ok (dispatchAll_afterDispatches [] _ hOutput _)).trans rfl

theorem cycle_enacts (hOutput : recorder.HasOutput) (persistent : Bool) (number : UInt64) :
    cycle persistent number recorder
      = enact (.ok (recorder.machine.cycle persistent number)) recorder := by
  refine (bind_of_ok (endCycle_eq hOutput _)).trans ?_
  refine (bind_of_ok (dispatch_afterDispatches _ _ hOutput _)).trans ?_
  exact enact_of_outcome hOutput rfl

theorem clockedCycle_enacts (hOutput : recorder.HasOutput) (persistent : Bool)
    (reported : ClockedCycle) :
    clockedCycle persistent reported recorder
      = enact (recorder.machine.clockedCycle persistent reported) recorder := by
  refine ensure_enacts fun _ _ => choice_enacts (fun _ => rfl) fun _ => ?_
  refine (bind_of_ok (endCycle_eq hOutput _)).trans ?_
  refine (bind_of_ok (dispatch_afterDispatches _ _ hOutput _)).trans ?_
  exact enact_of_outcome hOutput rfl

/-! ### Comments -/

theorem comment_enacts (hOutput : recorder.HasOutput) (persistent : Bool) (magic : UInt32)
    (command : Command) :
    comment persistent magic command recorder
      = enact (recorder.machine.comment persistent magic command) recorder :=
  ensure_enacts fun _ _ => dispatch_enacts hOutput rfl rfl

theorem startActivity_enacts (hOutput : recorder.HasOutput) (persistent : Bool)
    (first : UInt64) :
    startActivity persistent first recorder
      = enact (.ok (recorder.machine.startActivity persistent first)) recorder := by
  cases hArchive : recorder.machine.archive with
  | none =>
      have hNothing : { recorder.machine with archive := none } = recorder.machine := by
        rw [← hArchive]
      unfold startActivity Machine.startActivity
      rw [hNothing]
      refine (get_bind _).trans ?_
      rw [hArchive]
      exact dispatch_enacts hOutput rfl rfl
  | some data =>
      unfold startActivity Machine.startActivity
      refine (get_bind _).trans ?_
      rw [hArchive]
      refine (bind_of_ok (dispatch_first hOutput _)).trans ?_
      refine (bind_of_ok (modifyMachine_afterDispatches _ _ _)).trans ?_
      refine (bind_of_ok (dispatch_afterDispatches _ _ hOutput _)).trans ?_
      exact enact_of_outcome hOutput rfl

/-! ### Any report -/

/-- A report does what is planned for it, and nothing where no plan is found. -/
theorem report_enacts (hOutput : recorder.HasOutput) (event : Event) (persistent : Bool) :
    report event persistent recorder
      = enact (recorder.planned event persistent) recorder := by
  cases event with
  | newNode declaration id? => exact newNode_enacts hOutput persistent declaration id?
  | newEdge declaration id? => exact newEdge_enacts hOutput persistent declaration id?
  | newClock declaration => exact newClock_enacts hOutput persistent declaration
  | setLayout node dimensions => exact setLayout_enacts hOutput persistent node dimensions
  | setClock node clock => exact setClock_enacts hOutput persistent node clock
  | setInputBandwidth node _ => exact setBandwidth_enacts hOutput persistent node _ _
  | setOutputBandwidth node _ => exact setBandwidth_enacts hOutput persistent node _ _
  | newItem id? => exact newItem_enacts hOutput persistent id?
  | deleteItem item => exact deleteItem_enacts hOutput persistent item
  | moveItems edge items positions =>
      exact moveItems_enacts hOutput persistent edge items positions
  | enterNode node item position => exact enterNode_enacts hOutput persistent node item position
  | exitNode node item position => exact exitNode_enacts hOutput persistent node item position
  | tagNode node tag value => exact tagNode_enacts hOutput persistent node tag value
  | tagSlot node position tag value =>
      exact tagSlot_enacts hOutput persistent node position tag value
  | tagItem item tag value => exact tagItem_enacts hOutput persistent item tag value
  | tagCycle tag value => exact tagCycle_enacts hOutput persistent tag value
  | describeTag tag description => exact describeTag_enacts hOutput persistent tag description
  | cycle number => exact cycle_enacts hOutput persistent number
  | clockedCycle reported => exact clockedCycle_enacts hOutput persistent reported
  | comment magic _ | commentBytes magic _ => exact comment_enacts hOutput persistent magic _
  | startActivity first => exact startActivity_enacts hOutput persistent first

end Steps

end Recorder
end Recording
end CycleTrace
