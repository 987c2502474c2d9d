/-
What dispatching does.

Writing to an open output cannot fail. So a recorder that has an output open
while it is on carries out any dispatches, and `Recorder.afterDispatches` is the
recorder that they lead to. The machine is neither looked at nor touched on the
way, which is why it can be named apart.
-/

import CycleTrace.Proofs.Output.Encoder
import CycleTrace.Recording.Dispatching

namespace CycleTrace
namespace Recording

open Output (Encoder Encoding bind_of_ok stateAfter stateAfter_of_ok)

namespace ReplayStore

/-- Keeps commands in order. -/
def storeAll (kept : ReplayStore) (commands : List Command) (alsoPartial : Bool) : ReplayStore :=
  commands.foldl (fun kept command => kept.store command alsoPartial) kept

theorem storeAll_append (kept : ReplayStore) (commands others : List Command)
    (alsoPartial : Bool) :
    kept.storeAll (commands ++ others) alsoPartial
      = (kept.storeAll commands alsoPartial).storeAll others alsoPartial :=
  List.foldl_append

theorem toList_all_storeAll (kept : ReplayStore) (commands : List Command) (alsoPartial : Bool) :
    (kept.storeAll commands alsoPartial).all.toList = kept.all.toList ++ commands := by
  induction commands generalizing kept with
  | nil => simp [storeAll]
  | cons command commands ih =>
      have hLater := ih (kept.store command alsoPartial)
      simp only [storeAll, List.foldl_cons] at hLater ⊢
      rw [hLater]
      simp [store]

theorem partialReplay_storeAll_false (kept : ReplayStore) (commands : List Command) :
    (kept.storeAll commands false).partialReplay = kept.partialReplay := by
  induction commands generalizing kept with
  | nil => rfl
  | cons command commands ih =>
      have hLater := ih (kept.store command false)
      simp only [storeAll, List.foldl_cons] at hLater ⊢
      rw [hLater]
      simp [store]

theorem toList_partialReplay_storeAll_true (kept : ReplayStore) (commands : List Command) :
    (kept.storeAll commands true).partialReplay.toList
      = kept.partialReplay.toList ++ commands := by
  induction commands generalizing kept with
  | nil => simp [storeAll]
  | cons command commands ih =>
      have hLater := ih (kept.store command true)
      simp only [storeAll, List.foldl_cons] at hLater ⊢
      rw [hLater]
      simp [store]

end ReplayStore

/-- The commands of dispatches that are kept for replay, in order. -/
def persistentCommands (dispatches : List Dispatch) : List Command :=
  (dispatches.filter (·.persistent)).map (·.command)

theorem persistentCommands_append (sent others : List Dispatch) :
    persistentCommands (sent ++ others)
      = persistentCommands sent ++ persistentCommands others := by
  unfold persistentCommands
  rw [List.filter_append, List.map_append]

theorem mem_persistentCommands {sent : List Dispatch} {command : Command} :
    command ∈ persistentCommands sent
      ↔ ∃ entry ∈ sent, entry.persistent = true ∧ entry.command = command := by
  simp only [persistentCommands, List.mem_map, List.mem_filter, and_assoc]

theorem persistentCommands_subset (sent : List Dispatch) :
    persistentCommands sent ⊆ sent.map (·.command) := by
  intro command hCommand
  obtain ⟨entry, hEntry, _, rfl⟩ := mem_persistentCommands.mp hCommand
  exact List.mem_map_of_mem hEntry

namespace Tally

/-- The counts after a dispatch. -/
def dispatched (tally : Tally) (on : Bool) (sent : Dispatch) : Tally :=
  { tally with
    encoded := tally.encoded + if on then 1 else 0
    stored := tally.stored + if sent.persistent then 1 else 0
    dropped := tally.dropped + if on || sent.persistent then 0 else 1
    synthesizedExits := tally.synthesizedExits + if sent.synthesized then 1 else 0 }

/-- The counts after dispatches in order. -/
def dispatchedAll (tally : Tally) (on : Bool) (sent : List Dispatch) : Tally :=
  sent.foldl (fun tally sent => tally.dispatched on sent) tally

theorem dispatchedAll_append (tally : Tally) (on : Bool) (sent others : List Dispatch) :
    tally.dispatchedAll on (sent ++ others)
      = (tally.dispatchedAll on sent).dispatchedAll on others :=
  List.foldl_append

end Tally

namespace Recorder

variable [Lz4.Codec]

/-! ### Writing -/

theorem withEncoder_of_ok {action : Encoding α} {recorder : Recorder} {encoder : Encoder}
    {value : α} (hAction : action recorder.encoder = .ok value encoder) :
    withEncoder action recorder = .ok value { recorder with encoder } := by
  unfold withEncoder
  dsimp only
  rw [hAction]

theorem withEncoder_of_error {action : Encoding α} {recorder : Recorder} {encoder : Encoder}
    {fault : Fault} (hAction : action recorder.encoder = .error fault encoder) :
    withEncoder action recorder = .error fault { recorder with encoder } := by
  unfold withEncoder
  dsimp only
  rw [hAction]

/-! ### One dispatch -/

theorem route_on {recorder : Recorder} {encoder : Encoder} {sent : Dispatch}
    (hOn : recorder.on = true)
    (hEncode : Encoder.encode sent.command recorder.encoder = .ok () encoder) :
    route sent recorder = .ok true
      { recorder with
        encoder
        store := recorder.store.storeAll (persistentCommands [sent]) false
        tally := recorder.tally.dispatched true { sent with synthesized := false } } := by
  obtain ⟨settings, machine, before, store, live, on, tally⟩ := recorder
  obtain ⟨command, persistent, synthesized⟩ := sent
  cases hOn
  have hWrite : write command ⟨settings, machine, before, store, live, true, tally⟩
      = .ok () ⟨settings, machine, encoder, store, live, true,
          { tally with encoded := tally.encoded + 1 }⟩ :=
    (bind_of_ok (withEncoder_of_ok hEncode)).trans rfl
  have hDispatch : dispatchOn ⟨command, persistent, synthesized⟩
      ⟨settings, machine, before, store, live, true, tally⟩
      = .ok () ⟨settings, machine, encoder,
          store.storeAll (persistentCommands [⟨command, persistent, synthesized⟩]) false, live,
          true, tally.dispatched true ⟨command, persistent, false⟩⟩ := by
    cases persistent with
    | false => exact (bind_of_ok hWrite).trans rfl
    | true => exact (bind_of_ok hWrite).trans rfl
  exact (bind_of_ok hDispatch).trans rfl

theorem route_off {recorder : Recorder} (hOff : recorder.on = false) (sent : Dispatch) :
    route sent recorder = .ok sent.persistent
      { recorder with
        store := recorder.store.storeAll (persistentCommands [sent]) true
        live := trackItem recorder.live sent
        tally := recorder.tally.dispatched false { sent with synthesized := false } } := by
  obtain ⟨settings, machine, before, store, live, on, tally⟩ := recorder
  obtain ⟨command, persistent, synthesized⟩ := sent
  cases hOff
  cases persistent <;> rfl

theorem dispatch_on {recorder : Recorder} {encoder : Encoder} {sent : Dispatch}
    (hOn : recorder.on = true)
    (hEncode : Encoder.encode sent.command recorder.encoder = .ok () encoder) :
    dispatch sent recorder = .ok ()
      { recorder with
        encoder
        store := recorder.store.storeAll (persistentCommands [sent]) false
        tally := recorder.tally.dispatched true sent } := by
  obtain ⟨command, persistent, synthesized⟩ := sent
  have hRoute : route ⟨command, persistent, synthesized⟩ recorder = .ok true _ :=
    route_on hOn hEncode
  cases synthesized with
  | false => exact (bind_of_ok hRoute).trans rfl
  | true => exact (bind_of_ok hRoute).trans rfl

theorem dispatch_off {recorder : Recorder} (hOff : recorder.on = false) (sent : Dispatch) :
    dispatch sent recorder = .ok ()
      { recorder with
        store := recorder.store.storeAll (persistentCommands [sent]) true
        live := trackItem recorder.live sent
        tally := recorder.tally.dispatched false sent } := by
  obtain ⟨command, persistent, synthesized⟩ := sent
  have hRoute := route_off hOff ⟨command, persistent, synthesized⟩
  cases synthesized with
  | false => exact (bind_of_ok hRoute).trans rfl
  | true => exact (bind_of_ok hRoute).trans rfl

/-! ### Dispatches in order -/

/-- While it is on, a recorder has an open output. -/
def HasOutput (recorder : Recorder) : Prop :=
  recorder.on = true → recorder.encoder.isOpen = true

theorem hasOutput_of_off {recorder : Recorder} (hOff : recorder.on = false) :
    recorder.HasOutput :=
  fun hOn => absurd hOn (Bool.eq_false_iff.mp hOff)

/-- A recorder after dispatches in order, with the machine as it is then. -/
def afterDispatches (recorder : Recorder) (sent : List Dispatch) (machine : Machine) :
    Recorder :=
  { recorder with
    machine
    encoder :=
      if recorder.on then
        stateAfter (Encoder.encodeAll (sent.map (·.command)) recorder.encoder)
      else recorder.encoder
    store := recorder.store.storeAll (persistentCommands sent) (!recorder.on)
    live := if recorder.on then recorder.live else sent.foldl trackItem recorder.live
    tally := recorder.tally.dispatchedAll recorder.on sent }

section Dispatches

variable {recorder : Recorder} (sent : List Dispatch) (machine : Machine)

theorem afterDispatches_nil (recorder : Recorder) :
    recorder.afterDispatches [] recorder.machine = recorder := by
  obtain ⟨settings, machine, encoder, store, live, on, tally⟩ := recorder
  cases on <;> rfl

theorem on_afterDispatches : (recorder.afterDispatches sent machine).on = recorder.on :=
  rfl

theorem modifyMachine_afterDispatches (change : Machine → Machine) :
    modifyMachine change (recorder.afterDispatches sent machine)
      = .ok () (recorder.afterDispatches sent (change machine)) :=
  rfl

/-- While on, the commands are written and the persistent ones kept. -/
theorem afterDispatches_on (hOn : recorder.on = true) (hOpen : recorder.encoder.isOpen = true) :
    ∃ encoder, recorder.afterDispatches sent machine
        = { recorder with
            machine
            encoder
            store := recorder.store.storeAll (persistentCommands sent) false
            tally := recorder.tally.dispatchedAll true sent } ∧
      Encoder.encodeAll (sent.map (·.command)) recorder.encoder = .ok () encoder ∧
      encoder.isOpen = true := by
  obtain ⟨encoder, hEncode, hStaysOpen⟩ :=
    Encoder.encodeAll_of_isOpen hOpen (sent.map (·.command))
  refine ⟨encoder, ?_, hEncode, hStaysOpen⟩
  unfold afterDispatches
  rw [hOn, if_pos rfl, if_pos rfl, stateAfter_of_ok hEncode]
  rfl

/-- While off, the persistent commands are kept and the items followed. -/
theorem afterDispatches_off (hOff : recorder.on = false) :
    recorder.afterDispatches sent machine
      = { recorder with
          machine
          store := recorder.store.storeAll (persistentCommands sent) true
          live := sent.foldl trackItem recorder.live
          tally := recorder.tally.dispatchedAll false sent } := by
  unfold afterDispatches
  rw [hOff]
  rfl

/-- While on, one more command is written and kept if it is persistent. -/
theorem afterDispatches_concat_on (hOn : recorder.on = true)
    (hOpen : recorder.encoder.isOpen = true) (next : Dispatch) :
    ∃ encoder,
      Encoder.encode next.command (recorder.afterDispatches sent machine).encoder
        = .ok () encoder ∧
      recorder.afterDispatches (sent ++ [next]) machine
        = { recorder.afterDispatches sent machine with
            encoder
            store := (recorder.afterDispatches sent machine).store.storeAll
              (persistentCommands [next]) false
            tally := (recorder.afterDispatches sent machine).tally.dispatched true next } := by
  obtain ⟨middle, hBefore, hFirst, hStaysOpen⟩ := afterDispatches_on sent machine hOn hOpen
  obtain ⟨encoder, hEncode, _⟩ := Encoder.encode_of_isOpen hStaysOpen next.command
  obtain ⟨last, hAfter, hAll, _⟩ := afterDispatches_on (sent ++ [next]) machine hOn hOpen
  have hLast : encoder = last := by
    rw [List.map_append, Encoder.encodeAll_append hFirst ((bind_of_ok hEncode).trans rfl)] at hAll
    exact (EStateM.Result.ok.inj hAll).2
  refine ⟨encoder, ?_, ?_⟩
  · rw [hBefore]
    exact hEncode
  · rw [hAfter, hBefore, hLast, persistentCommands_append, ReplayStore.storeAll_append,
      Tally.dispatchedAll_append]
    rfl

/-- While off, one more command is kept if it is persistent. -/
theorem afterDispatches_concat_off (hOff : recorder.on = false) (next : Dispatch) :
    recorder.afterDispatches (sent ++ [next]) machine
      = { recorder.afterDispatches sent machine with
          store := (recorder.afterDispatches sent machine).store.storeAll
            (persistentCommands [next]) true
          live := trackItem (recorder.afterDispatches sent machine).live next
          tally := (recorder.afterDispatches sent machine).tally.dispatched false next } := by
  rw [afterDispatches_off sent machine hOff, afterDispatches_off (sent ++ [next]) machine hOff,
    persistentCommands_append, ReplayStore.storeAll_append, Tally.dispatchedAll_append,
    List.foldl_append]
  rfl

/-- A dispatch goes behind the others. -/
theorem dispatch_afterDispatches (hOutput : recorder.HasOutput) (next : Dispatch) :
    dispatch next (recorder.afterDispatches sent machine)
      = .ok () (recorder.afterDispatches (sent ++ [next]) machine) := by
  cases hOn : recorder.on with
  | true =>
      obtain ⟨encoder, hEncode, hAfter⟩ :=
        afterDispatches_concat_on sent machine hOn (hOutput hOn) next
      rw [hAfter]
      exact dispatch_on ((on_afterDispatches sent machine).trans hOn) hEncode
  | false =>
      rw [afterDispatches_concat_off sent machine hOn]
      exact dispatch_off ((on_afterDispatches sent machine).trans hOn) next

/-- So does one whose fate is asked for: it is kept while on or if it is persistent. -/
theorem route_afterDispatches (hOutput : recorder.HasOutput) (command : Command)
    (persistent : Bool) :
    route ⟨command, persistent, false⟩ (recorder.afterDispatches sent machine)
      = .ok (recorder.on || persistent)
          (recorder.afterDispatches (sent ++ [⟨command, persistent, false⟩]) machine) := by
  cases hOn : recorder.on with
  | true =>
      obtain ⟨encoder, hEncode, hAfter⟩ :=
        afterDispatches_concat_on sent machine hOn (hOutput hOn) ⟨command, persistent, false⟩
      rw [hAfter]
      exact route_on ((on_afterDispatches sent machine).trans hOn) hEncode
  | false =>
      rw [afterDispatches_concat_off sent machine hOn]
      exact route_off ((on_afterDispatches sent machine).trans hOn) _

theorem dispatchAll_afterDispatches (hOutput : recorder.HasOutput) (more : List Dispatch) :
    more.forM dispatch (recorder.afterDispatches sent machine)
      = .ok () (recorder.afterDispatches (sent ++ more) machine) := by
  induction more generalizing sent with
  | nil =>
      rw [List.append_nil]
      rfl
  | cons next more ih =>
      rw [List.append_cons]
      exact (bind_of_ok (dispatch_afterDispatches sent machine hOutput next)).trans (ih _)

end Dispatches

/-! ### From the recorder as it is -/

section First

variable {recorder : Recorder}

theorem modifyMachine_first (change : Machine → Machine) :
    modifyMachine change recorder
      = .ok () (recorder.afterDispatches [] (change recorder.machine)) := by
  have hFirst := @modifyMachine_afterDispatches _ recorder [] recorder.machine change
  rwa [afterDispatches_nil] at hFirst

theorem dispatch_first (hOutput : recorder.HasOutput) (sent : Dispatch) :
    dispatch sent recorder = .ok () (recorder.afterDispatches [sent] recorder.machine) := by
  have hFirst := dispatch_afterDispatches [] recorder.machine hOutput sent
  rwa [afterDispatches_nil] at hFirst

theorem route_first (hOutput : recorder.HasOutput) (command : Command) (persistent : Bool) :
    route ⟨command, persistent, false⟩ recorder
      = .ok (recorder.on || persistent)
          (recorder.afterDispatches [⟨command, persistent, false⟩] recorder.machine) := by
  have hFirst := route_afterDispatches [] recorder.machine hOutput command persistent
  rwa [afterDispatches_nil] at hFirst

/-- What is dispatched leads to the recorder after it, and the machine stays as it is. -/
theorem dispatchAll (hOutput : recorder.HasOutput) (sent : List Dispatch) :
    sent.forM dispatch recorder = .ok () (recorder.afterDispatches sent recorder.machine) := by
  have hAll := dispatchAll_afterDispatches [] recorder.machine hOutput sent
  rwa [afterDispatches_nil] at hAll

end First

end Recorder
end Recording
end CycleTrace
