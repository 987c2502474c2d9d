/-
What an output that is begun late knows of the occupants.

A new output is told what was stored, and the table of occupants forgets the
rest. The table decides by the flag of an occupant whether its entry was
stored. It is right as long as nobody changes the flag of an announced
occupant: such a report is noted in the table and stores nothing, and from
then on the flag tells of another entry than the one in the store.
-/

import CycleTrace.Lz4.StoredBlocks
import CycleTrace.Proofs.Recording.Runs

namespace CycleTrace
namespace Recording

open Output (Directory)

/-- The last stored change is an entry exactly if its item is there, persistent
and announced. -/
def Mirrored (entries : List SlotEntry) (occupant : Option Occupant) : Prop :=
  ∀ item, (storedChanges entries).getLast? = some (.enters item) ↔
    occupant = some ⟨item, true, true⟩

section Mirrored

variable {entries : List SlotEntry} {occupant after : Option Occupant} {entry : SlotEntry}

theorem Mirrored.congr (hMirrored : Mirrored entries occupant)
    (hSame : ∀ item, after = some ⟨item, true, true⟩ ↔ occupant = some ⟨item, true, true⟩) :
    Mirrored entries after := by
  intro item
  rw [hSame item]
  exact hMirrored item

theorem Mirrored.stored (hPersistent : entry.persistent = true)
    (hSame : ∀ item, entry.change = .enters item ↔ after = some ⟨item, true, true⟩) :
    Mirrored (entries ++ [entry]) after := by
  intro item
  rw [storedChanges_snoc, if_pos hPersistent, List.getLast?_concat, Option.some_inj]
  exact hSame item

theorem Mirrored.unstored (hMirrored : Mirrored entries occupant)
    (hTransient : entry.persistent = false)
    (hBefore : ∀ item, occupant ≠ some ⟨item, true, true⟩)
    (hAfter : ∀ item, after ≠ some ⟨item, true, true⟩) :
    Mirrored (entries ++ [entry]) after := by
  intro item
  rw [storedChanges_snoc, if_neg (Bool.eq_false_iff.mp hTransient), List.append_nil,
    hMirrored item, iff_false_intro (hBefore item), iff_false_intro (hAfter item)]

theorem Mirrored.entered (hMirrored : Mirrored entries occupant)
    (hUnknown : ∀ present, occupant = some present → present.announced = false)
    (circumstances : Circumstances) (item : ItemId) :
    Mirrored
      (entries ++ [⟨.enters item, circumstances.persistent, false, circumstances.recording⟩])
      (some ⟨item, circumstances.persistent, circumstances.kept⟩) := by
  cases hPersistent : circumstances.persistent with
  | true =>
      have hKept : circumstances.kept = true := by
        unfold Circumstances.kept
        rw [hPersistent, Bool.or_true]
      apply Mirrored.stored rfl
      intro other
      rw [hKept]
      simp
  | false =>
      apply hMirrored.unstored rfl
      · intro other hOther
        cases hUnknown _ hOther
      · intro other hOther
        cases hOther

theorem Mirrored.left {item : ItemId} {persistent : Bool}
    (hMirrored : Mirrored entries (some ⟨item, persistent, true⟩)) (synthesized recording : Bool) :
    Mirrored (entries ++ [⟨.exits item, persistent, synthesized, recording⟩]) none := by
  cases persistent with
  | true =>
      apply Mirrored.stored rfl
      intro other
      simp
  | false =>
      apply hMirrored.unstored rfl
      · intro other hOther
        cases hOther
      · intro other hOther
        cases hOther

theorem Mirrored.step {circumstances : Circumstances} {event : Event} {node : NodeId}
    {position : List UInt32} {added : List SlotEntry} (hMirrored : Mirrored entries occupant)
    (hFlag : ∀ item, event = .enterNode node item position →
      occupant ≠ some ⟨item, !circumstances.persistent, true⟩)
    (hStaying : ∀ item, event = .exitNode node item position → occupant = none)
    (hStep : SlotStep circumstances event node position occupant added after) :
    Mirrored (entries ++ added) after := by
  cases hStep with
  | untouched =>
      rw [List.append_nil]
      exact hMirrored
  | enters item hUnknown => exact hMirrored.entered hUnknown circumstances item
  | @stays item persistent hEvent =>
      rw [List.append_nil, ← flag_of_ne (hFlag item hEvent)]
      exact hMirrored
  | replaces evicted item persistent =>
      rw [List.append_cons]
      exact (hMirrored.left true circumstances.recording).entered (fun _ hNone => nomatch hNone)
        circumstances item
  -- an exit on request can drop what a stored entry told of
  | leaves occupant hEvent => cases hStaying occupant.item hEvent
  | departs item persistent => exact hMirrored.left true circumstances.recording
  | departsUnseen item persistent =>
      rw [List.append_nil]
      apply hMirrored.congr
      intro other
      simp

end Mirrored

namespace History

section Codec

variable [Lz4.Codec]

/-- A call changes no flag of an announced occupant, and takes no item from an
autoflush node by request. -/
def Faithful (history : History) (call : Call) : Prop :=
  ¬ history.Reflags call ∧ ∀ node item position persistent,
    call = .report (.exitNode node item position) persistent → ¬ history.topology.Autoflush node

variable {settings : Settings} {directory : Directory} {history : History} {log : List Entry}

theorem Faithful.touch {call : Call} {node : NodeId} {position : List UInt32}
    {entries added : List SlotEntry} {before after : Option Occupant}
    (hFaithful : history.Faithful call) (hSound : history.Sound)
    (hBefore : history.occupantAt node position = before) (hMirrored : Mirrored entries before)
    (hTouch : history.Touch call node position before added after) :
    Mirrored (entries ++ added) after := by
  cases hTouch with
  | @step event persistent _ _ _ hCall hStep =>
      subst hCall
      refine hMirrored.step ?_ ?_ hStep
      · rintro item rfl hReflagged
        exact hFaithful.1 (hBefore.trans hReflagged)
      · rintro item rfl
        rw [← hBefore]
        exact hSound.occupantAt_eq_none (hFaithful.2 node item position persistent rfl) position
  | forget hClosed =>
      rw [List.append_nil]
      apply hMirrored.congr
      intro item
      constructor
      · intro hForgotten
        exact (announced_of_forget hForgotten).1
      · rintro rfl
        rfl
  | rest =>
      rw [List.append_nil]
      exact hMirrored

theorem Run.mirrored (hRun : Run Faithful (start settings directory) history log)
    {node : NodeId} (hNode : history.topology.Autoflush node) (position : List UInt32) :
    Mirrored (slotLog node position log) (history.occupantAt node position) := by
  refine hRun.invariant (motive := fun _ => Mirrored) (sound_start settings directory)
    (Structure.Topology.not_unwatched hNode) ?_ ?_
  · intro item
    constructor
    · intro hLast
      cases hLast
    · intro hNone
      cases hNone
  · intro history call entries added before after hSound hFaithful hBefore hMirrored hTouch
    exact hFaithful.touch hSound hBefore hMirrored hTouch

/-- If no report ever changed the flag of an announced occupant, a new output
is told last that an item entered a slot exactly if the item is announced there. -/
theorem fresh_output_agrees (hRun : Run Faithful (start settings directory) history log)
    (hClosed : history.recorder.encoder.isOpen = false)
    (hGranted : Recorder.answer (Recorder.perform .turnOn history.recorder) = .ok .done)
    {node : NodeId} (hNode : history.topology.Autoflush node) (position : List UInt32) :
    let next := history.after .turnOn
    let stored := changesAt node position next.recorder.store.all.toList
    changesAt node position (next.current.map (·.command)) = stored ∧
    ∀ item, stored.getLast? = some (.enters item) ↔
      ∃ persistent, next.occupantAt node position = some ⟨item, persistent, true⟩ := by
  have hSound := hRun.sound (sound_start settings directory)
  obtain ⟨hOn, hForgotten⟩ := begun_of_granted hSound.consistent hClosed hGranted
  have hStore : (history.after .turnOn).recorder.store.all.toList
      = history.recorder.store.all.toList :=
    (hSound.consistent.toList_all_after .turnOn).trans (List.append_nil _)
  have hTold := hSound.consistent.destined_after (keepsOutput_of_closed hClosed .turnOn) node
    position
  rw [(hSound.after .turnOn).consistent.destined_on hOn, destined_closed hClosed] at hTold
  have hStored := hRun.stored_eq (sound_start settings directory) node position
  have hMirrored := hRun.mirrored hNode position
  refine ⟨?_, ?_⟩
  · rw [hTold, hStore]
    exact List.append_nil _
  · intro item
    rw [hStore, hStored, hForgotten]
    change (storedChanges _).getLast? = _ ↔ _
    rw [hMirrored item]
    constructor
    · intro hPresent
      rw [hPresent]
      exact ⟨true, rfl⟩
    · rintro ⟨persistent, hAnnounced⟩
      obtain ⟨hPresent, rfl⟩ := announced_of_forget hAnnounced
      exact hPresent

end Codec

/-- An item reported twice to be in the one slot of a node, each time with its
own persistence, before the output is changed. -/
def reentered (first second : Bool) : List Call :=
  [.turnOn, .report (.newNode { name := "queue", autoflush := true } (some 0)) true,
    .report (.setLayout 0 [1]) true, .report (.enterNode 0 1 [0]) first,
    .report (.enterNode 0 1 [0]) second, .turnOff, .changeFile "late.ptr"]

theorem fresh_output_agrees_reentered :
    Recorder.answer
        (Recorder.perform .turnOn ((start {} {}).afterAll (reentered true true)).recorder)
      = .ok .done ∧
    ∃ persistent, (((start {} {}).afterAll (reentered true true)).after .turnOn).occupantAt 0 [0]
      = some ⟨1, persistent, true⟩ := by
  have hAllows : (start {} {}).Allows Faithful (reentered true true) :=
    ⟨⟨id, nofun⟩, ⟨id, nofun⟩, ⟨id, nofun⟩, ⟨nofun, nofun⟩, ⟨nofun, nofun⟩, ⟨id, nofun⟩,
      ⟨id, nofun⟩, trivial⟩
  have hRun : Run Faithful (start {} {}) _ _ := Run.idle.afterAll (reentered true true) hAllows
  have hGranted : Recorder.answer
      (Recorder.perform .turnOn ((start {} {}).afterAll (reentered true true)).recorder)
      = .ok .done := by decide +kernel
  have hNode : ((start {} {}).afterAll (reentered true true)).topology.Autoflush 0 :=
    ⟨_, rfl, rfl⟩
  have hAgrees := (fresh_output_agrees hRun rfl hGranted hNode [0]).2 1
  exact ⟨hGranted, hAgrees.mp (by decide +kernel)⟩

/-- Where the flag was changed, a new output was never told of an occupant that
the table takes for announced, and goes on not being told; or it was told of an
occupant that the table takes for new, and will be told again. -/
theorem fresh_output_disagrees_reflagged :
    let unseen := ((start {} {}).afterAll (reentered false true)).after .turnOn
    let seen := ((start {} {}).afterAll (reentered true false)).after .turnOn
    let again := Call.report (.enterNode 0 1 [0]) false
    ((start {} {}).afterAll (reentered false true)).topology.Autoflush 0 ∧
    (Recorder.answer
          (Recorder.perform .turnOn ((start {} {}).afterAll (reentered false true)).recorder)
        = .ok .done ∧
      changesAt 0 [0] unseen.recorder.store.all.toList = [] ∧
      unseen.occupantAt 0 [0] = some ⟨1, true, true⟩ ∧
      unseen.recorder.dispatchesOf again = []) ∧
    Recorder.answer
          (Recorder.perform .turnOn ((start {} {}).afterAll (reentered true false)).recorder)
        = .ok .done ∧
      changesAt 0 [0] seen.recorder.store.all.toList = [.enters 1] ∧
      seen.occupantAt 0 [0] = some ⟨1, false, false⟩ ∧
      seen.recorder.dispatchesOf again = [⟨.enterNode 0 1 [0], false, false⟩] :=
  ⟨⟨_, rfl, rfl⟩, by decide +kernel⟩

end History
end Recording
end CycleTrace
