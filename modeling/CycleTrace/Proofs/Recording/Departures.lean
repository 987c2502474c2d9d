/-
Entries and the exits that answer them.

An occupant that was announced entered last at its slot, as far as the output
knows or will know. So an exit that is synthesized always answers an entry.
The other way round an entry that was kept is answered before anything else is
dispatched for the slot, but the answer itself can be lost: the exit of an
occupant that was not entered as persistent is dropped while off.
-/

import CycleTrace.Lz4.StoredBlocks
import CycleTrace.Proofs.Recording.Runs
import Mathlib.Data.List.Chain

namespace CycleTrace
namespace Recording

open Output (Directory)

/-! ### Exits answer entries -/

/-- Each synthesized exit comes directly after the entry of its item. -/
def Preceded (kept : List SlotEntry) : Prop :=
  ∀ before entry after, kept = before ++ entry :: after → entry.synthesized = true →
    ∃ item, entry.change = .exits item ∧
      (before.map (·.change)).getLast? = some (.enters item)

theorem Preceded.snoc {kept : List SlotEntry} {entry : SlotEntry} (hKept : Preceded kept)
    (hEntry : entry.synthesized = true → ∃ item, entry.change = .exits item ∧
      (kept.map (·.change)).getLast? = some (.enters item)) : Preceded (kept ++ [entry]) := by
  intro before other after hSplit hSynthesized
  rcases List.eq_nil_or_concat' after with rfl | ⟨rest, last, rfl⟩
  · obtain ⟨rfl, hSame⟩ := List.append_inj' hSplit rfl
    cases hSame
    exact hEntry hSynthesized
  · rw [← List.cons_append, ← List.append_assoc] at hSplit
    obtain ⟨hEarlier, _⟩ := List.append_inj' hSplit rfl
    exact hKept before other rest hEarlier hSynthesized

/-- The output knows, or will know, the announced occupant as the last to enter,
and every synthesized exit before answered an entry. -/
structure Told (entries : List SlotEntry) (occupant : Option Occupant) : Prop where
  preceded : Preceded (entries.filter (·.kept))
  last : ∀ item persistent, occupant = some ⟨item, persistent, true⟩ →
    (keptChanges entries).getLast? = some (.enters item)

section Told

variable {entries : List SlotEntry} {occupant after : Option Occupant} {entry : SlotEntry}

theorem told_nil : Told [] none := by
  constructor
  · intro before entry after hSplit
    exact absurd hSplit.symm (by simp)
  · intro item persistent hOccupant
    cases hOccupant

/-- Nothing new in the log, and nobody else in the slot. -/
theorem Told.congr (hTold : Told entries occupant)
    (hSame : ∀ item persistent, after = some ⟨item, persistent, true⟩ →
      ∃ before, occupant = some ⟨item, before, true⟩) : Told entries after := by
  refine ⟨hTold.preceded, ?_⟩
  intro item persistent hAfter
  obtain ⟨before, hBefore⟩ := hSame item persistent hAfter
  exact hTold.last item before hBefore

theorem Told.snoc (hTold : Told entries occupant)
    (hExit : entry.synthesized = true → ∃ item persistent, entry.change = .exits item ∧
      occupant = some ⟨item, persistent, true⟩)
    (hAfter : ∀ item persistent, after = some ⟨item, persistent, true⟩ →
      entry.kept = true ∧ entry.change = .enters item) : Told (entries ++ [entry]) after := by
  constructor
  · rw [List.filter_append]
    cases hKept : entry.kept with
    | true =>
        rw [List.filter_cons_of_pos hKept, List.filter_nil]
        apply hTold.preceded.snoc
        intro hSynthesized
        obtain ⟨item, persistent, hChange, hOccupant⟩ := hExit hSynthesized
        exact ⟨item, hChange, hTold.last item persistent hOccupant⟩
    | false =>
        rw [List.filter_cons_of_neg (Bool.eq_false_iff.mp hKept), List.filter_nil,
          List.append_nil]
        exact hTold.preceded
  · intro item persistent hOccupant
    obtain ⟨hKept, hChange⟩ := hAfter item persistent hOccupant
    rw [keptChanges_snoc, if_pos hKept, hChange]
    exact List.getLast?_concat

theorem Told.asked (hTold : Told entries none) (added : List SlotEntry)
    (hAsked : ∀ entry ∈ added, entry.synthesized = false) : Told (entries ++ added) none := by
  induction added generalizing entries with
  | nil =>
      rw [List.append_nil]
      exact hTold
  | cons first rest ih =>
      rw [List.forall_mem_cons] at hAsked
      obtain ⟨hFirst, hRest⟩ := hAsked
      have hSnoc : Told (entries ++ [first]) none := by
        apply hTold.snoc
        · intro hSynthesized
          rw [hFirst] at hSynthesized
          cases hSynthesized
        · intro item persistent hOccupant
          cases hOccupant
      rw [List.append_cons]
      exact ih hSnoc hRest

theorem Told.step {circumstances : Circumstances} {event : Event} {node : NodeId}
    {position : List UInt32} {added : List SlotEntry} (hTold : Told entries occupant)
    (hStep : SlotStep circumstances event node position occupant added after) :
    Told (entries ++ added) after := by
  have hEnters {earlier : List SlotEntry} {before : Option Occupant} (item : ItemId)
      (hEarlier : Told earlier before) :
      Told (earlier ++ [⟨.enters item, circumstances.persistent, false, circumstances.recording⟩])
        (some ⟨item, circumstances.persistent, circumstances.kept⟩) := by
    apply hEarlier.snoc
    · intro hSynthesized
      cases hSynthesized
    · intro entered persistent hEntered
      obtain ⟨rfl, _, hKept⟩ := Occupant.mk.inj (Option.some.inj hEntered)
      exact ⟨hKept, rfl⟩
  have hExits (item : ItemId) (persistent flag synthesized : Bool)
      (hBefore : synthesized = true → occupant = some ⟨item, persistent, true⟩) :
      Told (entries ++ [⟨.exits item, flag, synthesized, circumstances.recording⟩]) none := by
    apply hTold.snoc
    · intro hSynthesized
      exact ⟨item, persistent, rfl, hBefore hSynthesized⟩
    · intro entered kept hEntered
      cases hEntered
  cases hStep with
  | untouched =>
      rw [List.append_nil]
      exact hTold
  | enters item hUnknown => exact hEnters item hTold
  | stays persistent hEvent =>
      rw [List.append_nil]
      apply hTold.congr
      intro item known hOccupant
      cases hOccupant
      exact ⟨persistent, rfl⟩
  | replaces evicted item persistent =>
      rw [List.append_cons]
      exact hEnters item (hExits evicted persistent persistent true fun _ => rfl)
  | leaves occupant hEvent => exact hExits occupant.item true _ false (by simp)
  | departs item persistent => exact hExits item persistent persistent true fun _ => rfl
  | departsUnseen item persistent =>
      rw [List.append_nil]
      apply hTold.congr
      intro other known hOccupant
      cases hOccupant

theorem Told.touch [Lz4.Codec] {history : History} {call : Call} {node : NodeId}
    {position : List UInt32} {added : List SlotEntry} (hTold : Told entries occupant)
    (hTouch : history.Touch call node position occupant added after) :
    Told (entries ++ added) after := by
  cases hTouch with
  | step _ hStep => exact hTold.step hStep
  | forget _ =>
      rw [List.append_nil]
      apply hTold.congr
      intro item persistent hForgotten
      exact ⟨persistent, (announced_of_forget hForgotten).1⟩
  | rest =>
      rw [List.append_nil]
      exact hTold

end Told

/-! ### Entries are answered by exits -/

/-- What comes after an entry that was kept is the exit of its item. -/
def Answers (entry next : SlotEntry) : Prop :=
  ∀ item, entry.kept = true → entry.change = .enters item → next.change = .exits item

/-- Every kept entry was answered next, but for the last one, whose item is the
announced occupant. -/
structure Followed (entries : List SlotEntry) (occupant : Option Occupant) : Prop where
  answered : entries.IsChain Answers
  present : ∀ entry item, entries.getLast? = some entry → entry.kept = true →
    entry.change = .enters item → ∃ persistent, occupant = some ⟨item, persistent, true⟩

section Followed

variable {entries : List SlotEntry} {occupant after : Option Occupant} {entry : SlotEntry}

theorem followed_nil : Followed [] none := by
  constructor
  · exact .nil
  · intro entry item hLast
    cases hLast

theorem Followed.congr (hFollowed : Followed entries occupant)
    (hStays : ∀ item persistent, occupant = some ⟨item, persistent, true⟩ →
      ∃ now, after = some ⟨item, now, true⟩) : Followed entries after := by
  refine ⟨hFollowed.answered, ?_⟩
  intro entry item hLast hKept hChange
  obtain ⟨persistent, hOccupant⟩ := hFollowed.present entry item hLast hKept hChange
  exact hStays item persistent hOccupant

theorem Followed.snoc (hFollowed : Followed entries occupant)
    (hExit : ∀ item persistent, occupant = some ⟨item, persistent, true⟩ →
      entry.change = .exits item)
    (hAfter : ∀ item, entry.kept = true → entry.change = .enters item →
      ∃ persistent, after = some ⟨item, persistent, true⟩) :
    Followed (entries ++ [entry]) after := by
  constructor
  · rw [List.isChain_append]
    refine ⟨hFollowed.answered, .singleton entry, ?_⟩
    intro last hLast next hNext item hKept hChange
    cases hNext
    obtain ⟨persistent, hOccupant⟩ := hFollowed.present last item hLast hKept hChange
    exact hExit item persistent hOccupant
  · intro last item hLast hKept hChange
    rw [List.getLast?_concat] at hLast
    cases hLast
    exact hAfter item hKept hChange

theorem Followed.step {circumstances : Circumstances} {event : Event} {node : NodeId}
    {position : List UInt32} {added : List SlotEntry} (hFollowed : Followed entries occupant)
    (hStep : SlotStep circumstances event node position occupant added after) :
    Followed (entries ++ added) after := by
  have hEnters {earlier : List SlotEntry} {before : Option Occupant} (item : ItemId)
      (hEarlier : Followed earlier before)
      (hUnknown : ∀ present, before = some present → present.announced = false) :
      Followed
        (earlier ++ [⟨.enters item, circumstances.persistent, false, circumstances.recording⟩])
        (some ⟨item, circumstances.persistent, circumstances.kept⟩) := by
    apply hEarlier.snoc
    · intro present persistent hPresent
      cases hUnknown _ hPresent
    · intro entered hKept hEntered
      cases hEntered
      have hAnnounced : circumstances.kept = true := hKept
      exact ⟨circumstances.persistent, by rw [hAnnounced]⟩
  have hExits {present : Occupant} (hPresent : occupant = some present)
      (persistent synthesized : Bool) :
      Followed
        (entries ++ [⟨.exits present.item, persistent, synthesized, circumstances.recording⟩])
        none := by
    apply hFollowed.snoc
    · intro item known hKnown
      rw [hPresent] at hKnown
      cases hKnown
      rfl
    · intro item _ hEntered
      cases hEntered
  cases hStep with
  | untouched =>
      rw [List.append_nil]
      exact hFollowed
  | enters item hUnknown => exact hEnters item hFollowed hUnknown
  | stays persistent hEvent =>
      rw [List.append_nil]
      apply hFollowed.congr
      intro item known hOccupant
      cases hOccupant
      exact ⟨circumstances.persistent, rfl⟩
  | replaces evicted item persistent =>
      rw [List.append_cons]
      exact hEnters item (hExits rfl persistent true) fun _ hNone => nomatch hNone
  | leaves occupant hEvent => exact hExits rfl circumstances.persistent false
  | departs item persistent => exact hExits rfl persistent true
  | departsUnseen item persistent =>
      rw [List.append_nil]
      apply hFollowed.congr
      intro other known hOccupant
      cases hOccupant

/-- The kept entry that is the last of all kept changes is either the last
change of all or followed by its exit, which was dropped as all changes since. -/
theorem Followed.last_kept (hFollowed : Followed entries occupant) {item : ItemId}
    (hLast : (keptChanges entries).getLast? = some (.enters item)) :
    (∃ persistent, occupant = some ⟨item, persistent, true⟩) ∨
      ∃ earlier entry exit later, entries = earlier ++ entry :: exit :: later ∧
        entry.kept = true ∧ entry.change = .enters item ∧ exit.change = .exits item ∧
        ∀ other ∈ exit :: later, other.kept = false := by
  have hSplit : ∃ earlier entry later, entries = earlier ++ entry :: later ∧
      entry.kept = true ∧ entry.change = .enters item ∧
      ∀ other ∈ later, other.kept = false := by
    unfold keptChanges at hLast
    rw [List.getLast?_map, Option.map_eq_some_iff] at hLast
    obtain ⟨entry, hEntry, hChange⟩ := hLast
    obtain ⟨front, hFront⟩ := List.getLast?_eq_some_iff.mp hEntry
    obtain ⟨before, rest, rfl, _, hRest⟩ := List.filter_eq_append_iff.mp hFront
    obtain ⟨dropped, later, rfl, _, hKept, hLater⟩ := List.filter_eq_cons_iff.mp hRest
    refine ⟨before ++ dropped, entry, later, (List.append_assoc _ _ _).symm, hKept, hChange, ?_⟩
    intro other hOther
    exact Bool.eq_false_iff.mpr (List.filter_eq_nil_iff.mp hLater other hOther)
  obtain ⟨earlier, entry, later, rfl, hKept, hChange, hLater⟩ := hSplit
  cases later with
  | nil => exact .inl (hFollowed.present entry item List.getLast?_concat hKept hChange)
  | cons exit later =>
      have hAnswered := (List.isChain_append.mp hFollowed.answered).2.1
      rw [List.isChain_cons_cons] at hAnswered
      exact .inr ⟨earlier, entry, exit, later, rfl, hKept, hChange,
        hAnswered.1 item hKept hChange, hLater⟩

/-- An occupant that is announced without an output is known from the replay. -/
def Lasting (occupant : Option Occupant) : Prop :=
  ∀ item persistent, occupant = some ⟨item, persistent, true⟩ → persistent = true

theorem Lasting.step {circumstances : Circumstances} {event : Event} {node : NodeId}
    {position : List UInt32} {added : List SlotEntry} (hLasting : Lasting occupant)
    (hOff : circumstances.recording = false)
    (hFlag : ∀ item, event = .enterNode node item position →
      occupant ≠ some ⟨item, !circumstances.persistent, true⟩)
    (hStep : SlotStep circumstances event node position occupant added after) :
    Lasting after := by
  have hEntered (item : ItemId) :
      Lasting (some ⟨item, circumstances.persistent, circumstances.kept⟩) := by
    intro entered persistent hOccupant
    obtain ⟨_, rfl, hKept⟩ := Occupant.mk.inj (Option.some.inj hOccupant)
    unfold Circumstances.kept at hKept
    rw [hOff] at hKept
    exact hKept
  cases hStep with
  | untouched => exact hLasting
  | enters item => exact hEntered item
  | @stays item persistent hEvent =>
      rw [← flag_of_ne (hFlag item hEvent)]
      exact hLasting
  | replaces evicted item => exact hEntered item
  | leaves => exact fun _ _ hNone => nomatch hNone
  | departs => exact fun _ _ hNone => nomatch hNone
  | departsUnseen => exact fun _ _ hNone => nomatch hNone

end Followed

namespace History

section Runs

variable [Lz4.Codec] {allowed : History → Call → Prop} {settings : Settings} {directory : Directory}
  {history : History} {log : List Entry}

theorem Run.told (hRun : Run allowed (start settings directory) history log) (node : NodeId)
    (position : List UInt32) :
    Told (slotLog node position log) (history.occupantAt node position) := by
  induction hRun with
  | idle => exact told_nil
  | @after history log hRun call _ ih =>
      have hSound := hRun.sound (sound_start settings directory)
      rw [slotLog_append]
      by_cases hNode : (history.after call).topology.Unwatched node
      · have hPlain := fun hAutoflush => Structure.Topology.not_unwatched hAutoflush hNode
        -- a node without slots after the call had none before it either
        have hNone : history.occupantAt node position = none :=
          hSound.occupantAt_eq_none
            (fun hAutoflush => hPlain (hSound.marked_after call hAutoflush)) position
        have hNoneAfter : (history.after call).occupantAt node position = none :=
          (hSound.after call).occupantAt_eq_none hPlain position
        rw [hNone] at ih
        rw [hNoneAfter]
        exact ih.asked _ (hSound.asked_after call hNode position)
      · exact ih.touch (hSound.touch_after call hNode position)

/-- Every synthesized exit that an output was handed comes directly after the
entry of its item into the same slot, whether it was written at once or
replayed. -/
theorem synthesized_exit_after_entry
    (hRun : Run KeepsOutput (start settings directory) history log)
    (hOpen : history.recorder.encoder.isOpen = true) (node : NodeId) (position : List UInt32) :
    let kept := (slotLog node position log).filter (·.kept)
    changesAt node position (history.current.map (·.command))
        ++ changesAt node position history.recorder.store.partialReplay.toList
      = kept.map (·.change) ∧
    ∀ before entry after, kept = before ++ entry :: after → entry.synthesized = true →
      ∃ item, entry.change = .exits item ∧
        (before.map (·.change)).getLast? = some (.enters item) := by
  have hDestined := hRun.destined_eq (sound_start settings directory) (fun _ => id) node
    position
  rw [destined_start, History.destined, waiting, if_pos hOpen, if_pos hOpen, changesAt_append]
    at hDestined
  exact ⟨hDestined, (hRun.told node position).preceded⟩

end Runs

/-- An item entered once, with its persistence, into the one slot of a node that is recorded
until two cycles end it off the record. -/
def unrecordedEnd (persistent : Bool) : List Call :=
  [.turnOn, .report (.newNode { name := "queue", autoflush := true } (some 0)) true,
    .report (.setLayout 0 [1]) true, .report (.enterNode 0 1 [0]) persistent, .turnOff,
    .report (.cycle 1) false, .report (.cycle 2) false, .turnOn]

theorem synthesized_exit_after_entry_replayed :
    ((start {} {}).afterAll (unrecordedEnd true)).recorder.encoder.isOpen = true ∧
      changesAt 0 [0] (((start {} {}).afterAll (unrecordedEnd true)).current.map (·.command))
        = [.enters 1, .exits 1] ∧
      ∃ item, Change.exits 1 = .exits item ∧ [Change.enters 1].getLast? = some (.enters item) := by
  have hRun : Run KeepsOutput (start {} {}) _ _ :=
    Run.idle.afterAll (unrecordedEnd true)
      ⟨fun _ => rfl, fun _ => rfl, fun _ => rfl, fun _ => rfl, fun _ => rfl, fun _ => rfl,
        fun _ => rfl, fun _ => rfl, trivial⟩
  have hExit := (synthesized_exit_after_entry hRun rfl 0 [0]).2
    [⟨.enters 1, true, false, true⟩] ⟨.exits 1, true, true, false⟩ [] rfl rfl
  exact ⟨rfl, rfl, hExit⟩

section Runs

variable [Lz4.Codec] {settings : Settings} {directory : Directory}
  {history : History} {log : List Entry}

/-- A call keeps the output, and before there is one it changes no flag that
the first replay depends on. -/
def Steady (history : History) (call : Call) : Prop :=
  history.KeepsOutput call ∧
    (history.recorder.encoder.isOpen = false → ¬ history.Reflags call)

theorem Steady.touch {call : Call} {node : NodeId} {position : List UInt32}
    {entries added : List SlotEntry} {before after : Option Occupant}
    (hSteady : history.Steady call) (hConsistent : history.Consistent)
    (hBefore : history.occupantAt node position = before)
    (hHolds : Followed entries before ∧
      (history.recorder.encoder.isOpen = false → Lasting before))
    (hTouch : history.Touch call node position before added after) :
    Followed (entries ++ added) after ∧
      ((history.after call).recorder.encoder.isOpen = false → Lasting after) := by
  obtain ⟨hFollowed, hLasting⟩ := hHolds
  cases hTouch with
  | @step event persistent _ _ _ hCall hStep =>
      refine ⟨hFollowed.step hStep, ?_⟩
      intro hClosed
      have hBeforeClosed := hSteady.1.closed_before hClosed
      refine (hLasting hBeforeClosed).step (hConsistent.off_of_closed hBeforeClosed) ?_ hStep
      rintro item rfl hReflagged
      subst hCall
      exact hSteady.2 hBeforeClosed (hBefore.trans hReflagged)
  | forget hClosed =>
      rw [List.append_nil]
      refine ⟨hFollowed.congr ?_, ?_⟩
      · intro item persistent hOccupant
        -- its entry is stored, so the next output will be told of it
        refine ⟨persistent, ?_⟩
        have hPersistent := hLasting hClosed item persistent hOccupant
        rw [hOccupant, hPersistent]
        rfl
      · intro _ item persistent hForgotten
        exact (announced_of_forget hForgotten).2
  | rest =>
      rw [List.append_nil]
      exact ⟨hFollowed, fun hClosed => hLasting (hSteady.1.closed_before hClosed)⟩

theorem Run.followed (hRun : Run Steady (start settings directory) history log)
    {node : NodeId} (hNode : history.topology.Autoflush node) (position : List UInt32) :
    Followed (slotLog node position log) (history.occupantAt node position) := by
  have hHolds : Followed (slotLog node position log) (history.occupantAt node position) ∧
      (history.recorder.encoder.isOpen = false → Lasting (history.occupantAt node position)) :=
    hRun.invariant
      (motive := fun history entries occupant => Followed entries occupant ∧
        (history.recorder.encoder.isOpen = false → Lasting occupant))
      (sound_start settings directory) (Structure.Topology.not_unwatched hNode) ?_ ?_
  · exact hHolds.1
  · exact ⟨followed_nil, fun _ _ _ hNone => nomatch hNone⟩
  · intro history call entries added before after hSound hSteady hBefore hHolds hTouch
    exact hSteady.touch hSound.consistent hBefore hHolds hTouch

/-- An item that the output saw entering a slot last is still announced there,
or its exit was the next command dispatched for the slot, not persistent and
made while off, and so it was dropped; then nothing that was dispatched for the
slot since that exit was handed to the output either. No other entry comes
between the entry that the output saw and the exit. -/
theorem entered_stays_or_exit_dropped (hRun : Run Steady (start settings directory) history log)
    (hOn : history.recorder.on = true) {node : NodeId} (hNode : history.topology.Autoflush node)
    (position : List UInt32) :
    let entries := slotLog node position log
    let handed := changesAt node position (history.current.map (·.command))
    handed = keptChanges entries ∧
    (∀ item, handed.getLast? = some (.enters item) →
      (∃ persistent, history.occupantAt node position = some ⟨item, persistent, true⟩) ∨
        ∃ earlier entry exit later, entries = earlier ++ entry :: exit :: later ∧
          entry.kept = true ∧ entry.change = .enters item ∧ exit.change = .exits item ∧
          exit.persistent = false ∧ exit.recording = false ∧
          ∀ other ∈ later, other.kept = false) ∧
    entries.IsChain fun entry next => ∀ item, entry.kept = true →
      entry.change = .enters item → next.change = .exits item := by
  have hConsistent := (hRun.sound (sound_start settings directory)).consistent
  have hDestined := hRun.destined_eq (sound_start settings directory) (fun _ => And.left)
    node position
  rw [destined_start, hConsistent.destined_on hOn] at hDestined
  have hFollowed := hRun.followed hNode position
  refine ⟨hDestined, ?_, hFollowed.answered⟩
  intro item hLast
  rcases hFollowed.last_kept (hDestined ▸ hLast) with hPresent |
    ⟨earlier, entry, exit, later, hEntries, hKept, hEnters, hExits, hDropped⟩
  · exact .inl hPresent
  · rw [List.forall_mem_cons] at hDropped
    obtain ⟨hExitDropped, hLaterDropped⟩ := hDropped
    obtain ⟨hRecording, hPersistent⟩ := Bool.or_eq_false_iff.mp hExitDropped
    exact .inr ⟨earlier, entry, exit, later, hEntries, hKept, hEnters, hExits, hPersistent,
      hRecording, hLaterDropped⟩

end Runs

theorem steady_unrecordedEnd :
    (start {} {}).Allows Steady (unrecordedEnd false) :=
  ⟨⟨fun _ => rfl, fun _ => id⟩, ⟨fun _ => rfl, fun _ => id⟩, ⟨fun _ => rfl, fun _ => id⟩,
    ⟨fun _ => rfl, fun hClosed => nomatch hClosed⟩, ⟨fun _ => rfl, fun _ => id⟩,
    ⟨fun _ => rfl, fun _ => id⟩, ⟨fun _ => rfl, fun _ => id⟩, ⟨fun _ => rfl, fun _ => id⟩,
    trivial⟩

theorem autoflush_unrecordedEnd :
    ((start {} {}).afterAll (unrecordedEnd false)).topology.Autoflush 0 :=
  ⟨_, rfl, rfl⟩

theorem entered_stays_or_exit_dropped_unrecorded :
    ((start {} {}).afterAll (unrecordedEnd false)).recorder.on = true ∧
      ∃ earlier entry exit later,
        slotLog 0 [0] ((start {} {}).logAll (unrecordedEnd false))
          = earlier ++ entry :: exit :: later ∧
        entry.kept = true ∧ entry.change = .enters 1 ∧ exit.change = .exits 1 ∧
        exit.persistent = false ∧ exit.recording = false ∧
        ∀ other ∈ later, other.kept = false := by
  have hRun : Run Steady (start {} {}) _ _ :=
    Run.idle.afterAll (unrecordedEnd false) steady_unrecordedEnd
  have hLast := (entered_stays_or_exit_dropped hRun rfl autoflush_unrecordedEnd [0]).2.1 1 rfl
  rcases hLast with ⟨persistent, hPresent⟩ | hDropped
  · cases hPresent
  · exact ⟨rfl, hDropped⟩

/-- The output is one, and it saw the item enter; but the slot is empty, and
the exit will not be told. -/
theorem entered_gone_unrecorded :
    (start {} {}).Allows Steady (unrecordedEnd false) ∧
      ((start {} {}).afterAll (unrecordedEnd false)).recorder.on = true ∧
      ((start {} {}).afterAll (unrecordedEnd false)).topology.Autoflush 0 ∧
      (changesAt 0 [0]
        (((start {} {}).afterAll (unrecordedEnd false)).current.map (·.command))).getLast?
        = some (.enters 1) ∧
      ((start {} {}).afterAll (unrecordedEnd false)).occupantAt 0 [0] = none :=
  ⟨steady_unrecordedEnd, rfl, autoflush_unrecordedEnd, rfl, rfl⟩

end History
end Recording
end CycleTrace
