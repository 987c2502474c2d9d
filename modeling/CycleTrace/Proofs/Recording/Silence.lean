/-
A recorder never writes to an output that is not open, and not while it is off.

Six calls change whether the recorder is on or whether an output is open, in
different orders. Whatever they are and whichever of them fail, an output is open
while the recorder is on, so the writing of a report cannot be refused. What is
refused for another reason says so: a report breaks a rule of the recorder, and
turning on has no file to create. `Blames` states the first for the checks, from
which it follows for every event.

While off, a call leaves the output alone, flushes it or ends it. None of this
adds a command to what the output carries.
-/

import CycleTrace.Lz4.StoredBlocks
import CycleTrace.Proofs.Output.Buffering
import CycleTrace.Proofs.Recording.LiveItems
import CycleTrace.Proofs.Recording.Refusals

namespace CycleTrace

/-! ### Faults of the caller -/

/-- A rule of the recorder was broken. The other faults are those of an output or
of a file that is read. -/
def Fault.blamesCaller : Fault → Bool
  | .sinkClosed | .inputOutput _ | .compression _ | .truncated | .unknownCommand .. => false
  | .missingVersion | .unsupportedVersion .. | .invalidPhase .. => false
  | .undefinedTag _ | .undefinedText _ | .invalidUtf8 _ => false
  | _ => true

/-- A computation that fails by nothing but a fault of the caller. -/
def Blames (computed : Except Fault α) : Prop :=
  ∀ fault, computed = .error fault → fault.blamesCaller = true

theorem blames_ok (value : α) : Blames (.ok value) := by
  intro fault hFault
  cases hFault

theorem blames_error {fault : Fault} (hCaller : fault.blamesCaller = true) :
    Blames (.error fault : Except Fault α) := by
  intro other hOther
  cases hOther
  exact hCaller

theorem Blames.bind {first : Except Fault α} {rest : α → Except Fault β} (hFirst : Blames first)
    (hRest : ∀ value, Blames (rest value)) : Blames (first >>= rest) := by
  cases first with
  | ok value => exact hRest value
  | error fault => exact blames_error (hFirst fault rfl)

theorem blames_ite {condition : Prop} [Decidable condition] {first second : Except Fault α}
    (hFirst : Blames first) (hSecond : Blames second) :
    Blames (if condition then first else second) := by
  split
  · exact hFirst
  · exact hSecond

/-- A check of one condition. -/
theorem blames_unless {condition : Prop} [Decidable condition] {fault : Fault} {value : α}
    (hCaller : fault.blamesCaller = true) :
    Blames (if condition then .error fault else .ok value) :=
  blames_ite (blames_error hCaller) (blames_ok value)

theorem blames_tagName (name : String) : Blames (checkTagName name) :=
  blames_unless rfl

theorem blames_description (description : String) : Blames (checkDescription description) :=
  blames_unless rfl

theorem blames_tagValue (value : TagValue) : Blames value.check := by
  cases value with
  | int => exact blames_ok ()
  | set => exact blames_unless rfl
  | text => exact blames_unless rfl

namespace Structure

theorem blames_name (name : String) : Blames (checkName name) :=
  blames_unless rfl

namespace Layout

theorem blames_ofDimensions (node : NodeId) (dimensions : List UInt32) :
    Blames (ofDimensions node dimensions) :=
  blames_ite (blames_error rfl) (blames_ite (blames_error rfl) (blames_unless rfl))

theorem blames_checkCoordinates (node : NodeId) (dimension : Nat)
    (position dimensions : List UInt32) :
    Blames (checkCoordinates node dimension position dimensions) := by
  fun_induction checkCoordinates node dimension position dimensions with
  | case1 => exact blames_error rfl
  | case2 _ _ _ _ _ _ ih => exact ih
  | case3 => exact blames_ok ()

theorem blames_checkPosition (layout : Layout) (node : NodeId) (position : List UInt32) :
    Blames (layout.checkPosition node position) :=
  blames_ite (blames_error rfl) (blames_checkCoordinates node 0 position layout.dimensions)

end Layout

namespace Topology

variable (topology : Topology)

theorem blames_node (id : NodeId) : Blames (topology.node id) := by
  unfold node
  split
  · exact blames_ok _
  · exact blames_error rfl

theorem blames_edge (id : EdgeId) : Blames (topology.edge id) := by
  unfold edge
  split
  · exact blames_ok _
  · exact blames_error rfl

theorem blames_requireNode (id : NodeId) : Blames (topology.requireNode id) :=
  blames_ite (blames_ok ()) (blames_error rfl)

theorem blames_requireClock (id : ClockId) : Blames (topology.requireClock id) :=
  blames_ite (blames_ok ()) (blames_error rfl)

theorem blames_resolved (taken : UInt16 → Bool) (counter : Nat) (id? : Option UInt16)
    {duplicate : UInt16 → Fault} {exhausted : Fault}
    (hDuplicate : ∀ id, (duplicate id).blamesCaller = true)
    (hExhausted : exhausted.blamesCaller = true) :
    Blames (match id? with
      | some id => if taken id then throw (duplicate id) else pure id
      | none =>
          match firstFree? taken counter with
          | some id => pure id
          | none => throw exhausted : Except Fault UInt16) := by
  split
  · exact blames_ite (blames_error (hDuplicate _)) (blames_ok _)
  · split
    · exact blames_ok _
    · exact blames_error hExhausted

theorem blames_checkNode (declaration : NodeDeclaration) (id? : Option NodeId) :
    Blames (topology.checkNode declaration id?) := by
  refine (blames_name _).bind fun _ => ?_
  cases declaration.parent with
  | none => exact blames_resolved topology.nodes.contains _ id? (fun _ => rfl) rfl
  | some parent =>
      exact (topology.blames_requireNode parent).bind fun _ =>
        blames_resolved topology.nodes.contains _ id? (fun _ => rfl) rfl

theorem blames_checkEdge (declaration : EdgeDeclaration) (id? : Option EdgeId) :
    Blames (topology.checkEdge declaration id?) :=
  (blames_name _).bind fun _ => (topology.blames_requireNode _).bind fun _ =>
    (topology.blames_requireNode _).bind fun _ =>
      blames_resolved topology.edges.contains topology.nextEdge id? (fun _ => rfl) rfl

theorem blames_checkClock (declaration : ClockDeclaration) :
    Blames (topology.checkClock declaration) := by
  refine (blames_name _).bind fun _ => ?_
  split
  · exact blames_ok _
  · exact blames_error rfl

theorem blames_checkLayout (id : NodeId) (dimensions : List UInt32) :
    Blames (topology.checkLayout id dimensions) :=
  (topology.blames_node id).bind fun _ =>
    blames_ite (blames_error rfl) (Layout.blames_ofDimensions id dimensions)

theorem blames_checkPosition (id : NodeId) (position : List UInt32) :
    Blames (topology.checkPosition id position) := by
  refine (topology.blames_node id).bind fun node => ?_
  dsimp only
  split
  · next layout _ => exact layout.blames_checkPosition id position
  · exact blames_ite (blames_error rfl) (blames_unless rfl)

end Topology
end Structure

namespace Recording

open Output (Encoder stateAfter stateAfter_of_ok)

theorem blames_item (item : ItemId) : Blames (checkItem item) :=
  blames_unless rfl

theorem blames_magic (magic : UInt32) : Blames (checkMagic magic) :=
  blames_unless rfl

theorem blames_exit (occupancy : Occupancy) (node : NodeId) (slot : UInt64) (item : ItemId) :
    Blames (occupancy.checkExit node slot item) :=
  blames_ite (blames_error rfl) (blames_ite (blames_ok ()) (blames_error rfl))

namespace Machine

variable (machine : Machine) (circumstances : Circumstances)

theorem blames_tag (tag : String) (value : TagValue) : Blames (checkTag tag value) :=
  (blames_tagName tag).bind fun _ => blames_tagValue value

theorem blames_move (edge : EdgeId) (items : List ItemId) (positions : List UInt32) :
    Blames (machine.checkMove edge items positions) :=
  (machine.topology.blames_edge edge).bind fun _ =>
    blames_ite (blames_error rfl) (blames_ite (blames_error rfl)
      (blames_ite (blames_error rfl) (blames_unless rfl)))

theorem blames_moveItems (persistent : Bool) (edge : EdgeId) (items : List ItemId)
    (positions : List UInt32) : Blames (machine.moveItems persistent edge items positions) :=
  (machine.blames_move edge items positions).bind fun _ => blames_ite (blames_ok _) (blames_ok _)

theorem blames_enterNode (node : NodeId) (item : ItemId) (position : List UInt32) :
    Blames (machine.enterNode circumstances node item position) := by
  refine (blames_item item).bind fun _ => ?_
  refine (machine.topology.blames_checkPosition node position).bind fun _ => ?_
  dsimp only
  split
  · exact blames_ok _
  · exact blames_ok _

theorem blames_exitNode (persistent : Bool) (node : NodeId) (item : ItemId)
    (position : List UInt32) : Blames (machine.exitNode persistent node item position) := by
  refine (blames_item item).bind fun _ => ?_
  refine (machine.topology.blames_checkPosition node position).bind fun _ => ?_
  dsimp only
  split
  · exact blames_ok _
  · exact (blames_exit _ _ _ _).bind fun _ => blames_ok _

/-- The machine refuses an event for the caller's fault only. -/
theorem blames_plan (event : Event) : Blames (machine.plan circumstances event) := by
  cases event with
  | newNode declaration id? =>
      exact (machine.topology.blames_checkNode declaration id?).bind fun _ => blames_ok _
  | newEdge declaration id? =>
      exact (machine.topology.blames_checkEdge declaration id?).bind fun _ => blames_ok _
  | newClock declaration =>
      exact (machine.topology.blames_checkClock declaration).bind fun _ => blames_ok _
  | setLayout node dimensions =>
      exact (machine.topology.blames_checkLayout node dimensions).bind fun _ =>
        (machine.topology.blames_node node).bind fun _ => blames_ok _
  | setClock node clock =>
      exact (machine.topology.blames_requireNode node).bind fun _ =>
        (machine.topology.blames_requireClock clock).bind fun _ => blames_ok _
  | setInputBandwidth node bandwidth =>
      exact (machine.topology.blames_requireNode node).bind fun _ => blames_ok _
  | setOutputBandwidth node bandwidth =>
      exact (machine.topology.blames_requireNode node).bind fun _ => blames_ok _
  | newItem id? =>
      cases id? with
      | none => exact blames_ok _
      | some id => exact (blames_item id).bind fun _ => blames_ok _
  | deleteItem item => exact (blames_item item).bind fun _ => blames_ok _
  | moveItems edge items positions => exact machine.blames_moveItems _ edge items positions
  | enterNode node item position => exact machine.blames_enterNode _ node item position
  | exitNode node item position => exact machine.blames_exitNode _ node item position
  | tagNode node tag value =>
      exact (blames_tag tag value).bind fun _ =>
        (machine.topology.blames_requireNode node).bind fun _ =>
          blames_ite (blames_ok _) (blames_ok _)
  | tagSlot node position tag value =>
      exact (blames_tag tag value).bind fun _ =>
        (machine.topology.blames_checkPosition node position).bind fun _ => blames_ok _
  | tagItem item tag value =>
      exact (blames_item item).bind fun _ => (blames_tag tag value).bind fun _ => blames_ok _
  | tagCycle tag value => exact (blames_tag tag value).bind fun _ => blames_ok _
  | describeTag tag description =>
      exact (blames_tagName tag).bind fun _ =>
        (blames_description description).bind fun _ => blames_ok _
  | clockedCycle cycle =>
      exact (machine.topology.blames_requireClock cycle.clock).bind fun _ =>
        blames_ite (blames_ok _) (blames_ok _)
  | comment magic text => exact (blames_magic magic).bind fun _ => blames_ok _
  | commentBytes magic data => exact (blames_magic magic).bind fun _ => blames_ok _
  | cycle number => exact blames_ok _
  | startActivity cycle => exact blames_ok _

end Machine

/-! ### What becomes of the output while off -/

section Codec

variable [Lz4.Codec]

/-- An output takes no command. What the open file carries stays, or the file is
closed with it; no file is opened and no other file is touched. -/
structure AddsNothing (encoder after : Encoder) : Prop where
  carried : ∀ text name compressed commands, encoder.Carries text name compressed commands →
    after.Carries text name compressed commands ∨
    after.isOpen = false ∧ ∃ content, after.writer.directory.files[name]? = some content ∧
      Output.Writer.FileReads content.toList compressed (Output.streamBytes text commands)
  opened : after.isOpen = true → encoder.isOpen = true
  others : encoder.writer.Spares after.writer
  accepted : after.accepted ≤ encoder.accepted

theorem addsNothing_refl (encoder : Encoder) : AddsNothing encoder encoder :=
  ⟨fun _ _ _ _ => .inl, id, fun _ _ => rfl, Nat.le_refl _⟩

theorem addsNothing_flush (encoder : Encoder) : AddsNothing encoder encoder.flush where
  carried := fun _ _ _ _ hCarries => .inl hCarries.flush
  opened := fun hOpen => (Encoder.isOpen_flush encoder).symm.trans hOpen
  others := (Encoder.goesOn_flush encoder).spares
  accepted := by
    cases encoder with
    | text writer => exact Nat.le_of_eq writer.movesOnly_flush.accepted
    | binary encoder => exact Nat.le_of_eq encoder.writer.movesOnly_flush.accepted

/-- Another encoder may take over the directory of the closed one. -/
theorem addsNothing_of_closed {encoder after : Encoder} (hClosed : after.isOpen = false)
    (hDirectory : after.writer.directory = encoder.close.writer.directory)
    (hAccepted : after.accepted ≤ encoder.accepted) : AddsNothing encoder after := by
  refine ⟨fun text name compressed commands hCarries => .inr ⟨hClosed, ?_⟩, fun hOpen => ?_,
    fun name hOther => ?_, hAccepted⟩
  · rw [hDirectory]
    exact hCarries.close
  · rw [hClosed] at hOpen
    cases hOpen
  · rw [hDirectory]
    exact Encoder.spares_close encoder name hOther

theorem accepted_close (encoder : Encoder) : encoder.close.accepted = encoder.accepted := by
  cases encoder with
  | text writer => exact writer.movesOnly_close.accepted
  | binary encoder => exact encoder.writer.movesOnly_close.accepted

theorem addsNothing_close {encoder : Encoder} {text : Bool} (hReady : encoder.Ready text) :
    AddsNothing encoder encoder.close :=
  addsNothing_of_closed hReady.close.2 rfl (Nat.le_of_eq (accepted_close encoder))

end Codec

namespace Recorder

section Codec

variable [Lz4.Codec]

/-- While off, only a call that turns recording on writes a command. -/
theorem Reachable.addsNothing_off {recorder : Recorder} (hReachable : recorder.Reachable)
    (hOff : recorder.on = false) {call : Call} (hCall : recorder.turnsOn call = false) :
    AddsNothing recorder.encoder (stateAfter (perform call recorder)).encoder := by
  obtain ⟨history, hConsistent, hRecorder⟩ := hReachable.exists_history
  have hReady : recorder.encoder.Ready recorder.settings.text := hRecorder ▸ hConsistent.ready
  cases call with
  | report event persistent =>
      cases hPlan : recorder.planned event persistent with
      | error fault =>
          rw [stateAfter_refused (hasOutput_of_off hOff) hPlan]
          exact addsNothing_refl _
      | ok plan =>
          obtain ⟨tally, hReport⟩ := report_off hPlan hOff
          rw [stateAfter_of_ok hReport]
          exact addsNothing_refl _
  | turnOn =>
      cases hTurnOn : perform .turnOn recorder with
      | ok reply after => simp [turnsOn, hTurnOn] at hCall
      | error fault after =>
          obtain rfl := hReachable.refused hTurnOn
          exact addsNothing_refl _
  | turnOff =>
      rw [stateAfter_of_ok (turnOff_ignored hOff)]
      exact addsNothing_refl _
  | flush => exact addsNothing_flush _
  | close => exact addsNothing_close hReady
  | changeFile name =>
      rw [stateAfter_of_ok (changeFile_off hOff)]
      exact addsNothing_close hReady
  | setTextForm text =>
      by_cases hSame : recorder.settings.text = text
      · rw [stateAfter_of_ok (setTextForm_same hOff hSame)]
        exact addsNothing_refl _
      · rw [stateAfter_of_ok (setTextForm_other hOff hSame)]
        refine addsNothing_of_closed (Encoder.isOpen_ofForm _ _ _)
          (Encoder.directory_ofForm _ _ _) ?_
        cases text <;> exact Nat.zero_le _
  | attachArchive data => exact addsNothing_refl _

/-- Why a call is refused: a report breaks a rule, or there is no file to create. -/
theorem Reachable.reason {recorder after : Recorder} (hReachable : recorder.Reachable)
    {call : Call} {fault : Fault} (hRefused : perform call recorder = .error fault after) :
    fault.blamesCaller = true ∨ fault = .inputOutput "the file cannot be created" := by
  obtain ⟨history, hConsistent, rfl⟩ := hReachable.exists_history
  rcases refused_cases hRefused with ⟨event, persistent, rfl⟩ | rfl
  · have hPlan := (hConsistent.refused_report hRefused).1
    exact .inl (Machine.blames_plan _ _ event fault hPlan)
  · exact .inr (hConsistent.refused_turnOn hRefused).1

/-- Whatever a recorder was asked for, it has an open output while it is on. So no
call is refused because the output is closed, and while off no call but one that
turns recording on adds to what an output carries. -/
theorem never_writes_closed {recorder : Recorder} (hReachable : recorder.Reachable) :
    (recorder.on = true → recorder.encoder.isOpen = true) ∧
    (∀ call after, perform call recorder ≠ .error .sinkClosed after) ∧
    (recorder.encoder.isOpen = true → ∃ name commands,
      recorder.encoder.Carries recorder.settings.text name recorder.settings.compressed
        commands) ∧
    (recorder.on = false → ∀ call, recorder.turnsOn call = false →
      AddsNothing recorder.encoder (stateAfter (perform call recorder)).encoder) := by
  obtain ⟨history, hConsistent, hRecorder⟩ := hReachable.exists_history
  subst hRecorder
  refine ⟨hConsistent.isOpen, fun call after hRefused => ?_, fun hOpen => ?_,
    fun hOff call hCall => hReachable.addsNothing_off hOff hCall⟩
  · rcases hReachable.reason hRefused with hCaller | hNoFile
    · cases hCaller
    · cases hNoFile
  · obtain ⟨name, _, hCarries⟩ := hConsistent.carries hOpen
    exact ⟨name, _, hCarries⟩

end Codec

/-- A recorder that could not create its first file, was closed while on and is
reported to afterwards. -/
theorem never_writes_closed_after_close :
    let recorder := (ofSettings { fileName := "" } {}).afterCalls
      [.turnOn, .changeFile "run.ptr", .turnOn, .close, .setTextForm true]
    recorder.on = false ∧
    (∀ after, perform (.report (.cycle 1) false) recorder ≠ .error .sinkClosed after) ∧
    AddsNothing recorder.encoder
      (stateAfter (perform (.report (.cycle 1) false) recorder)).encoder := by
  intro recorder
  have hReachable : recorder.Reachable := ⟨_, _, _, rfl⟩
  obtain ⟨_, hOpen, _, hSilent⟩ := never_writes_closed hReachable
  exact ⟨rfl, hOpen _, hSilent rfl _ rfl⟩

end Recorder
end Recording
end CycleTrace
