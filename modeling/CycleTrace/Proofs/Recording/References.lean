/-
Every output declares what it refers to.

A command refers to parts of the machine by their identifiers. A report is
checked against the topology, which knows everything that was ever declared,
while an output knows what it was told. The two agree as long as declarations
are persistent: then what the topology has is in the store, what is in the
store is in every output or on its way to it, and a part is declared in an
output before the first command that refers to it.
-/

import CycleTrace.Lz4.StoredBlocks
import CycleTrace.Proofs.Recording.Acceptance
import CycleTrace.Proofs.Recording.Runs
import CycleTrace.Proofs.Recording.Steps

namespace CycleTrace

open Structure (Part Topology)

namespace Command

/-- The part that a command declares. -/
def declares? : Command → Option Part
  | newNode id .. => some (.node id)
  | newEdge id .. => some (.edge id)
  | newClock id .. => some (.clock id)
  | _ => none

/-- The clock domain that needs a declaration, if it is not the one that exists
without. -/
def clockPart (clock : ClockId) : List Part :=
  if clock = defaultClock then [] else [.clock clock]

/-- The parts that a command refers to. -/
def refersTo : Command → List Part
  | newNode _ _ parent _ => parent.toList.map .node
  | newEdge _ source destination _ _ _ => [.node source, .node destination]
  | setLayout node _ | setInputBandwidth node _ | setOutputBandwidth node _
  | tagNode node _ _ _ | enterNode node _ _ | exitNode node _ _ => [.node node]
  | setClock node clock => .node node :: clockPart clock
  | moveItems edge _ _ => [.edge edge]
  | clockedCycle clocked => clockPart clocked.clock
  | _ => []

/-- A command refers only to parts that are there. -/
def Known (topology : Topology) (command : Command) : Prop :=
  ∀ part ∈ command.refersTo, topology.Has part

end Command

/-- Some of the commands declares a part. -/
def Declares (commands : List Command) (part : Part) : Prop :=
  ∃ command ∈ commands, command.declares? = some part

/-- What a command refers to is declared before it. -/
def SelfContained (commands : List Command) : Prop :=
  ∀ before command after, commands = before ++ command :: after →
    ∀ part ∈ command.refersTo, Declares before part

section Lists

variable {commands others : List Command} {part : Part}

theorem Declares.mono (hDeclares : Declares commands part) (hSubset : commands ⊆ others) :
    Declares others part := by
  obtain ⟨command, hMember, hPart⟩ := hDeclares
  exact ⟨command, hSubset hMember, hPart⟩

theorem selfContained_nil : SelfContained [] := by
  intro before command after hSplit
  cases before with
  | nil => cases hSplit
  | cons first rest => cases hSplit

/-- Two lists in a row, when the second refers to what it declares before or to
what the first declares. -/
theorem SelfContained.append (hFirst : SelfContained commands)
    (hSecond : ∀ before command after, others = before ++ command :: after →
      ∀ part ∈ command.refersTo, Declares (commands ++ before) part) :
    SelfContained (commands ++ others) := by
  intro before command after hSplit part hRefers
  rcases List.append_eq_append_iff.mp hSplit with ⟨middle, rfl, hOthers⟩ |
    ⟨middle, hCommands, hRest⟩
  · exact hSecond middle command after hOthers part hRefers
  · cases middle with
    | nil =>
        rw [List.append_nil] at hCommands
        have hHere := hSecond [] command after hRest.symm part hRefers
        rwa [List.append_nil, hCommands] at hHere
    | cons first rest =>
        obtain ⟨rfl, _⟩ := List.cons.inj hRest
        exact hFirst before command rest hCommands part hRefers

theorem SelfContained.followed (hFirst : SelfContained commands)
    (hDeclared : ∀ command ∈ others, ∀ part ∈ command.refersTo, Declares commands part) :
    SelfContained (commands ++ others) := by
  apply hFirst.append
  rintro before command after rfl part hRefers
  have hMember : command ∈ before ++ command :: after :=
    List.mem_append_right before List.mem_cons_self
  exact (hDeclared command hMember part hRefers).mono (List.subset_append_left _ _)

theorem SelfContained.precede (hFirst : SelfContained commands)
    (hSecond : SelfContained others) : SelfContained (commands ++ others) := by
  apply hFirst.append
  intro before command after hSplit part hRefers
  exact (hSecond before command after hSplit part hRefers).mono (List.subset_append_right _ _)

theorem SelfContained.of_append (hBoth : SelfContained (commands ++ others)) :
    SelfContained commands := by
  rintro before command after rfl part hRefers
  exact hBoth before command (after ++ others) (List.append_assoc _ _ _) part hRefers

theorem selfContained_of_silent (hSilent : ∀ command ∈ commands, command.refersTo = []) :
    SelfContained commands := by
  have hFollows : ∀ command ∈ commands, ∀ part ∈ command.refersTo, Declares [] part := by
    intro command hMember part hRefers
    rw [hSilent command hMember] at hRefers
    cases hRefers
  exact selfContained_nil.followed hFollows

theorem selfContained_announced (items : List ItemId) :
    SelfContained (items.map .newItem) := by
  apply selfContained_of_silent
  intro command hMember
  obtain ⟨item, _, rfl⟩ := List.mem_map.mp hMember
  rfl

end Lists

namespace Recording

open Output (Directory openingVersion)

/-! ### Plans -/

/-- A report that declares a part. -/
def Event.isStructural : Event → Bool
  | .newNode .. | .newEdge .. | .newClock .. => true
  | _ => false

namespace Machine

variable {machine : Machine} {circumstances : Circumstances} {event : Event} {plan : Plan}

theorem Watching.has_node (hWatching : machine.Watching) {node : NodeId}
    {occupancy : Occupancy} (hWatched : machine.occupancy.get? node = some occupancy) :
    machine.topology.Has (.node node) := by
  obtain ⟨known, hKnown, _⟩ := hWatching.of_get? hWatched
  exact Topology.contains_of_node hKnown

theorem has_clockPart {clock : ClockId} (hClock : machine.topology.hasClock clock = true) :
    ∀ part ∈ Command.clockPart clock, machine.topology.Has part := by
  intro part hPart
  unfold Command.clockPart at hPart
  split at hPart
  · cases hPart
  · next hDeclared =>
      rw [List.mem_singleton.mp hPart]
      unfold Topology.hasClock at hClock
      rw [beq_eq_false_iff_ne.mpr hDeclared, Bool.false_or] at hClock
      exact hClock

/-- What an accepted event tells of is there before the event. -/
theorem Accepts.known (hWatching : machine.Watching)
    (hAccepts : machine.Accepts circumstances event plan) :
    ∀ sent ∈ plan.dispatches, sent.command.Known machine.topology := by
  have hNodeOnly {node : NodeId} (hNode : machine.topology.nodes.contains node = true) :
      ∀ part ∈ [Part.node node], machine.topology.Has part := List.forall_mem_singleton.mpr hNode
  have hNone : ∀ part ∈ ([] : List Part), machine.topology.Has part := List.forall_mem_nil _
  cases hAccepts with
  | @newNode declaration id? id hChecked =>
      apply forall_single
      intro part hRefers
      obtain ⟨parent, hParent, rfl⟩ := List.mem_map.mp hRefers
      exact (Topology.checkNode_eq_ok hChecked).2.1 parent (Option.mem_toList.mp hParent)
  | newEdge hChecked =>
      obtain ⟨_, hSource, hDestination, _⟩ := Topology.checkEdge_eq_ok hChecked
      apply forall_single
      intro part hRefers
      rcases List.mem_cons.mp hRefers with rfl | hLast
      · exact hSource
      · rw [List.mem_singleton.mp hLast]
        exact hDestination
  | newClock hChecked => exact forall_single hNone
  | setLayout hChecked hNode =>
      exact forall_single (hNodeOnly (Topology.checkLayout_dimensions hChecked).1)
  | setClock hNode hClock =>
      apply forall_single
      intro part hRefers
      rcases List.mem_cons.mp hRefers with rfl | hLast
      · exact Topology.contains_of_requireNode hNode
      · exact has_clockPart (Topology.hasClock_of_requireClock hClock) part hLast
  | setInputBandwidth hNode =>
      exact forall_single (hNodeOnly (Topology.contains_of_requireNode hNode))
  | setOutputBandwidth hNode =>
      exact forall_single (hNodeOnly (Topology.contains_of_requireNode hNode))
  | chosenItem => exact forall_single hNone
  | givenItem hItem => exact forall_single hNone
  | deleteItem hItem => exact forall_single hNone
  | moveNone hMove hItems => exact List.forall_mem_nil _
  | moveItems hMove hItems =>
      apply forall_single
      intro part hRefers
      rw [List.mem_singleton.mp hRefers]
      obtain ⟨edge, hEdge, _⟩ := ok_of_bind hMove
      exact Topology.contains_of_edge hEdge
  | enterUnwatched hItem hPosition hUnwatched =>
      exact forall_single (hNodeOnly (Topology.checkPosition_length hPosition).1)
  | enterSlot hItem hPosition hWatched hSlot hAnnounced =>
      have hNode := hNodeOnly (Topology.checkPosition_length hPosition).1
      exact forall_arrivalDispatches hNode fun _ _ _ => hNode
  | exitUnwatched hItem hPosition hUnwatched =>
      exact forall_single (hNodeOnly (Topology.checkPosition_length hPosition).1)
  | exitSlot hItem hPosition hWatched hSlot hExit =>
      exact forall_single (hNodeOnly (Topology.checkPosition_length hPosition).1)
  | tagRepeated hTag hNode hSuppresses hRepeats => exact List.forall_mem_nil _
  | tagNode hTag hNode hNew =>
      exact forall_single (hNodeOnly (Topology.contains_of_requireNode hNode))
  | tagSlot hTag hPosition =>
      exact forall_single (hNodeOnly (Topology.checkPosition_length hPosition).1)
  | tagItem hItem hTag => exact forall_single hNone
  | tagCycle hTag => exact forall_single hNone
  | describeTag hTag hDescription => exact forall_single hNone
  | @cycle number =>
      exact forall_beginCycle number hNone fun hWatched _ => hNodeOnly (hWatching.has_node hWatched)
  | repeatedCycle hClock hRepeated => exact List.forall_mem_nil _
  | @clockedCycle cycle plan hClock hNew hPlan =>
      subst hPlan
      exact forall_beginCycle cycle.cycle
        (has_clockPart (Topology.hasClock_of_requireClock hClock))
        fun hWatched _ => hNodeOnly (hWatching.has_node hWatched)
  | comment hMagic => exact forall_single hNone
  | commentBytes hMagic => exact forall_single hNone
  | startActivity => exact forall_startActivity (fun _ _ => hNone) hNone

/-- A part that an accepted event brings is declared by its only command. -/
theorem Accepts.declares (hAccepts : machine.Accepts circumstances event plan) {part : Part}
    (hHas : plan.machine.topology.Has part) :
    machine.topology.Has part ∨ (event.isStructural = true ∧
      ∃ command, plan.dispatches = [⟨command, circumstances.persistent, false⟩] ∧
        command.declares? = some part) := by
  cases hAccepts with
  | newNode hChecked =>
      rcases Topology.has_insertNode.mp hHas with rfl | hBefore
      · exact .inr ⟨rfl, _, rfl, rfl⟩
      · exact .inl hBefore
  | newEdge hChecked =>
      rcases Topology.has_insertEdge.mp hHas with rfl | hBefore
      · exact .inr ⟨rfl, _, rfl, rfl⟩
      · exact .inl hBefore
  | newClock hChecked =>
      rcases Topology.has_insertClock.mp hHas with rfl | hBefore
      · exact .inr ⟨rfl, _, rfl, rfl⟩
      · exact .inl hBefore
  | setLayout hChecked hNode => exact .inl (Topology.has_modifyNode.mp hHas)
  | setClock hNode hClock => exact .inl (Topology.has_modifyNode.mp hHas)
  | setInputBandwidth hNode => exact .inl (Topology.has_modifyNode.mp hHas)
  | setOutputBandwidth hNode => exact .inl (Topology.has_modifyNode.mp hHas)
  | tagNode hTag hNode hNew =>
      dsimp only at hHas
      split at hHas
      · exact .inl hHas
      · exact .inl hHas
  | clockedCycle hClock hNew hPlan =>
      subst hPlan
      exact .inl hHas
  | _ => exact .inl hHas

end Machine

/-! ### Histories -/

/-- A report that declares a part is persistent. -/
def Call.KeepsStructure : Call → Prop
  | .report event persistent => event.isStructural = true → persistent = true
  | _ => True

instance : (call : Call) → Decidable call.KeepsStructure
  | .report event persistent =>
      inferInstanceAs (Decidable (event.isStructural = true → persistent = true))
  | .turnOn | .turnOff | .flush | .close | .changeFile _ | .setTextForm _ | .attachArchive _ =>
      isTrue trivial

namespace History

section Codec

variable [Lz4.Codec]

/-- The store declares what the topology has, and neither the store nor what is
destined for an output refers to anything else. -/
structure Referenced (history : History) : Prop where
  declared : ∀ part, history.topology.Has part →
    Declares history.recorder.store.all.toList part
  stored : SelfContained history.recorder.store.all.toList
  destined : SelfContained history.destined

variable {history : History}

theorem Sound.known (hSound : history.Sound) (call : Call) :
    ∀ command ∈ (history.recorder.dispatchesOf call).map (·.command),
      command.Known history.topology := by
  intro command hCommand
  obtain ⟨sent, hSent, rfl⟩ := List.mem_map.mp hCommand
  obtain ⟨event, persistent, plan, _, hPlan, hDispatched⟩ := Recorder.mem_dispatchesOf hSent
  exact (Machine.accepts_of_plan hPlan).known hSound.watching sent hDispatched

/-- A part that the machine has after a call was there before, or its declaration
is stored. -/
theorem Consistent.declares_after (hConsistent : history.Consistent) {call : Call}
    (hStructure : call.KeepsStructure) {part : Part}
    (hHas : (history.after call).topology.Has part) :
    history.topology.Has part ∨
      Declares (persistentCommands (history.recorder.dispatchesOf call)) part := by
  cases moves hConsistent call with
  | @reports event persistent plan hCall hPlan hMachine =>
      subst hCall
      unfold topology at hHas
      rw [hMachine] at hHas
      rcases (Machine.accepts_of_plan hPlan).declares hHas with hBefore |
        ⟨hStructural, command, hDispatches, hPart⟩
      · exact .inl hBefore
      · right
        rw [Recorder.dispatchesOf_report hPlan, hDispatches]
        have hPersistent : persistent = true := hStructure hStructural
        exact ⟨command, mem_persistentCommands.mpr ⟨_, List.mem_singleton_self _, hPersistent, rfl⟩,
          hPart⟩
  | begins _ _ hTopology _ => exact .inl (hTopology ▸ hHas)
  | rests _ hTopology _ => exact .inl (hTopology ▸ hHas)

theorem Referenced.after (hReferenced : history.Referenced) (hSound : history.Sound)
    {call : Call} (hStructure : call.KeepsStructure) : (history.after call).Referenced := by
  have hConsistent := hSound.consistent
  have hDeclared : ∀ command ∈ (history.recorder.dispatchesOf call).map (·.command),
      ∀ part ∈ command.refersTo, Declares history.recorder.store.all.toList part :=
    fun command hCommand part hRefers =>
      hReferenced.declared part (hSound.known call command hCommand part hRefers)
  have hStored : SelfContained (history.after call).recorder.store.all.toList := by
    rw [hConsistent.toList_all_after]
    exact hReferenced.stored.followed fun command hCommand =>
      hDeclared command (persistentCommands_subset _ hCommand)
  refine ⟨?_, hStored, ?_⟩
  · intro part hHas
    rw [hConsistent.toList_all_after]
    rcases hConsistent.declares_after hStructure hHas with hBefore | hNew
    · exact (hReferenced.declared part hBefore).mono (List.subset_append_left _ _)
    · exact hNew.mono (List.subset_append_right _ _)
  · cases hConsistent.destines call with
    | startsOver hStartsOver hClosed =>
        rw [destined_closed hClosed]
        exact hStored
    | adds opening items hOpening hItems hDestined =>
        -- neither the version nor an item refers to a part, and what is kept refers to parts
        -- that are stored and so destined already
        have hOpens : SelfContained opening := by
          apply selfContained_of_silent
          intro command hCommand
          rw [List.mem_singleton.mp (hOpening hCommand)]
          rfl
        have hKept : SelfContained (history.destined ++ history.kept call) := by
          apply hReferenced.destined.followed
          intro command hCommand part hRefers
          exact (hDeclared command (kept_subset history call hCommand) part hRefers).mono
            hConsistent.all_subset_destined
        rw [hDestined]
        exact hOpens.precede (hKept.precede (selfContained_announced items))

theorem referenced_start (settings : Settings) (directory : Directory) :
    (start settings directory).Referenced := by
  refine ⟨?_, selfContained_nil, ?_⟩
  · intro part hHas
    cases part with
    | node id => cases hHas
    | edge id => cases hHas
    | clock id => cases hHas
  · rw [destined_start]
    exact selfContained_nil

theorem Referenced.afterAll (hReferenced : history.Referenced) (hSound : history.Sound)
    {calls : List Call} (hStructure : ∀ call ∈ calls, call.KeepsStructure) :
    (history.afterAll calls).Referenced := by
  induction calls generalizing history with
  | nil => exact hReferenced
  | cons call calls ih =>
      rw [List.forall_mem_cons] at hStructure
      exact ih (hReferenced.after hSound hStructure.1) (hSound.after call) hStructure.2

/-- Every output describes its structure on its own. As long as all
declarations are persistent, whatever else is called, an open output has been
handed the declaration of a part before any command that refers to the part.
What it was handed is what its file holds. -/
theorem current_selfContained (settings : Settings) (directory : Directory)
    {calls : List Call} (hStructure : ∀ call ∈ calls, call.KeepsStructure)
    (hOpen : ((start settings directory).afterAll calls).recorder.encoder.isOpen = true) :
    let history := (start settings directory).afterAll calls
    SelfContained (history.current.map (·.command)) ∧
    ∃ name, Directory.fileName? history.recorder.settings.fileName = some name ∧
      history.recorder.encoder.Carries history.recorder.settings.text name
        history.recorder.settings.compressed (history.current.map (·.command)) := by
  intro history
  have hReferenced : history.Referenced :=
    (referenced_start settings directory).afterAll (sound_start settings directory) hStructure
  have hConsistent : history.Consistent :=
    (consistent_start settings directory).afterAll calls
  have hDestined := hReferenced.destined
  rw [destined_open hOpen] at hDestined
  exact ⟨hDestined.of_append, hConsistent.carries hOpen⟩

end Codec

/-- Calls that declare a node before the first file, a node and an edge in it,
and move an item over the edge in a second file. -/
def twoFiles : List Call :=
  [.report (.newNode { name := "core" } (some 0)) true, .turnOn,
    .report (.newNode { name := "alu", parent := some 0 } (some 1)) true,
    .report (.newEdge { source := 0, destination := 1, name := "bus" } (some 0)) true, .turnOff,
    .changeFile "second.ptr", .report (.newItem none) false, .turnOn,
    .report (.moveItems 0 [1] [0]) false]

theorem current_selfContained_twoFiles :
    ((start {} {}).afterAll twoFiles).current.map (·.command)
      = [openingVersion, .newNode 0 "core" none 0, .newNode 1 "alu" (some 0) 0,
        .newEdge 0 0 1 1 1 "bus", .newItem 1, .moveItems 0 [1] [0]] ∧
    SelfContained (((start {} {}).afterAll twoFiles).current.map (·.command)) := by
  have hStructure : ∀ call ∈ twoFiles, call.KeepsStructure := by decide
  have hOpen : ((start {} {}).afterAll twoFiles).recorder.encoder.isOpen = true := by
    decide +kernel
  exact ⟨by decide +kernel, (current_selfContained {} {} hStructure hOpen).1⟩

end History
end Recording
end CycleTrace
