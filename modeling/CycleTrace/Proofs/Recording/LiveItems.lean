/-
Which items are announced when recording is turned on.

An output that was not recorded to has missed the dispatches made since
recording was last turned on. The last creation or deletion of an item among
them decides whether the item is announced; a creation that was stored decides
nothing, for it is replayed. The set of live items is what these dispatches make
of the empty set, and turning on hands over what was stored and one new item
for each of its members.
-/

import CycleTrace.Lz4.StoredBlocks
import CycleTrace.Proofs.Recording.Steps

namespace CycleTrace
namespace Recording

open Output (Directory Encoder Encoding openingVersion stateAfter stateAfter_of_ok
  stateAfter_of_error bind_of_ok bind_of_error)

/-! ### The last word about an item -/

/-- What a dispatch says of an item: it came into being without being stored, or
it ended. -/
def Dispatch.liveness? (item : ItemId) : Dispatch → Option Bool
  | { command := .newItem id, persistent := false, .. } => if id = item then some true else none
  | { command := .deleteItem id, .. } => if id = item then some false else none
  | _ => none

/-- The last that dispatches say of an item. -/
def lastLiveness? (item : ItemId) (sent : List Dispatch) : Option Bool :=
  (sent.filterMap (Dispatch.liveness? item)).getLast?

theorem lastLiveness?_cons (item : ItemId) (first : Dispatch) (rest : List Dispatch) :
    lastLiveness? item (first :: rest)
      = (lastLiveness? item rest).or (first.liveness? item) := by
  unfold lastLiveness?
  rw [List.filterMap_cons]
  cases first.liveness? item with
  | none => rw [Option.or_none]
  | some alive =>
      dsimp only
      rw [List.getLast?_cons]
      cases (rest.filterMap (Dispatch.liveness? item)).getLast? <;> rfl

namespace Recorder

/-- A dispatch that says nothing of an item leaves it as it was. -/
theorem mem_trackItem (live : Std.TreeSet ItemId) (sent : Dispatch) (item : ItemId) :
    item ∈ trackItem live sent
      ↔ (sent.liveness? item).getD (decide (item ∈ live)) = true := by
  obtain ⟨command, persistent, synthesized⟩ := sent
  cases command with
  | newItem id =>
      cases persistent with
      | true => simp [trackItem, Dispatch.liveness?]
      | false =>
          change item ∈ live.insert id ↔ _
          rw [Std.TreeSet.mem_insert, Std.LawfulEqCmp.compare_eq_iff_eq]
          by_cases hSame : id = item <;> simp [Dispatch.liveness?, hSame]
  | deleteItem id =>
      change item ∈ live.erase id ↔ _
      rw [Std.TreeSet.mem_erase, ne_eq, Std.LawfulEqCmp.compare_eq_iff_eq]
      by_cases hSame : id = item <;> simp [Dispatch.liveness?, hSame]
  | _ => simp [trackItem, Dispatch.liveness?]

theorem mem_foldl_trackItem (live : Std.TreeSet ItemId) (sent : List Dispatch) (item : ItemId) :
    item ∈ sent.foldl trackItem live
      ↔ (lastLiveness? item sent).getD (decide (item ∈ live)) = true := by
  -- what a later dispatch says wins over the set so far
  induction sent generalizing live with
  | nil => simp [lastLiveness?]
  | cons first rest ih =>
      rw [List.foldl_cons, ih, lastLiveness?_cons]
      cases hRest : lastLiveness? item rest with
      | some alive => rfl
      | none =>
          have hFirst := mem_trackItem live first item
          cases hSaid : first.liveness? item <;> simp [hSaid] at hFirst ⊢ <;> exact hFirst

theorem toList_live_ascending (live : Std.TreeSet ItemId) : live.toList.Pairwise (· < ·) := by
  refine (Std.TreeSet.ordered_toList (t := live)).imp ?_
  intro item other hBelow
  exact Std.compare_eq_lt.mp hBelow

/-! ### What was missed -/

variable [Lz4.Codec]

/-- A call turns recording on. -/
def turnsOn (recorder : Recorder) : Call → Bool
  | .turnOn =>
      match perform .turnOn recorder with
      | .ok .. => true
      | .error .. => false
  | _ => false

/-- The dispatches that no output was handed as they were made, after a call. -/
def missedAfter (recorder : Recorder) (earlier : List Dispatch) (call : Call) : List Dispatch :=
  if recorder.turnsOn call then []
  else if recorder.on then earlier
  else earlier ++ recorder.dispatchesOf call

/-- The dispatches made while off, as far as they came after the last call that
turned recording on. -/
def missedBy (recorder : Recorder) (earlier : List Dispatch) : List Call → List Dispatch
  | [] => earlier
  | call :: calls =>
      (stateAfter (perform call recorder)).missedBy (recorder.missedAfter earlier call) calls

end Recorder

namespace History

variable [Lz4.Codec]

/-- The live items are what the dispatches that were missed make of no items. -/
structure Follows (missed : List Dispatch) (history : History) : Prop where
  live : history.recorder.live = missed.foldl Recorder.trackItem {}
  nothing : history.recorder.on = true → missed = []

section Follows

variable {history : History} {missed : List Dispatch}

theorem follows_nothing (hLive : history.recorder.live = {}) : history.Follows [] :=
  ⟨hLive, fun _ => rfl⟩

theorem Follows.after_turnOn (hFollows : history.Follows missed)
    (hConsistent : history.Consistent) :
    (history.after .turnOn).Follows (history.recorder.missedAfter missed .turnOn) := by
  have hGranted {reply : Reply} {next : Recorder}
      (hTurnOn : Recorder.perform .turnOn history.recorder = .ok reply next)
      (hLive : next.live = {}) :
      (history.after .turnOn).Follows (history.recorder.missedAfter missed .turnOn) := by
    have hTurnsOn : history.recorder.turnsOn .turnOn = true := by
      unfold Recorder.turnsOn
      rw [hTurnOn]
    rw [Recorder.missedAfter, if_pos hTurnsOn, after_of_state (stateAfter_of_ok hTurnOn)]
    exact follows_nothing hLive
  rcases Recorder.turnOn_cases hConsistent.ready with hOn | ⟨hOff, hOpen⟩ |
    ⟨hOff, hClosed, name, opened, hName, hBegin, hOpened⟩ | ⟨hOff, hClosed, fault, hNoFile⟩
  · -- ignored while on, when nothing is live anyway
    exact hGranted (Recorder.turnOn_ignored hOn) (hConsistent.nothingLive hOn)
  · obtain ⟨encoder, tally, hTurnOn, hEncode⟩ := Recorder.turnOn_open hOff hOpen
    exact hGranted hTurnOn rfl
  · obtain ⟨encoder, tally, hTurnOn, hEncode⟩ :=
      Recorder.turnOn_begin hOff hClosed hBegin hOpened.isOpen
    exact hGranted hTurnOn rfl
  · -- refused, so what was missed before is missed still
    have hTurnsOn : history.recorder.turnsOn .turnOn = false := by
      unfold Recorder.turnsOn
      rw [hNoFile]
    rw [Recorder.missedAfter, hTurnsOn, hOff, if_neg Bool.false_ne_true,
      if_neg Bool.false_ne_true, show history.recorder.dispatchesOf .turnOn = [] from rfl,
      List.append_nil, after_of_state (stateAfter_of_error hNoFile)]
    exact ⟨hFollows.live, hFollows.nothing⟩

theorem missedAfter_of_nothing {call : Call} (hGranted : history.recorder.turnsOn call = false)
    (hNothing : history.recorder.dispatchesOf call = []) :
    history.recorder.missedAfter missed call = missed := by
  rw [Recorder.missedAfter, hGranted, if_neg Bool.false_ne_true, hNothing, List.append_nil]
  exact ite_self missed

theorem Follows.after (hFollows : history.Follows missed) (hConsistent : history.Consistent)
    (call : Call) :
    (history.after call).Follows (history.recorder.missedAfter missed call) := by
  by_cases hTurnOn : call = .turnOn
  · subst hTurnOn
    exact hFollows.after_turnOn hConsistent
  · have hGranted : history.recorder.turnsOn call = false := by
      cases call with
      | turnOn => exact absurd rfl hTurnOn
      | _ => rfl
    have hQuiet {next : History} (hNothing : history.recorder.dispatchesOf call = [])
        (hLive : next.recorder.live = history.recorder.live)
        (hOn : next.recorder.on = true → history.recorder.on = true) :
        next.Follows (history.recorder.missedAfter missed call) := by
      rw [missedAfter_of_nothing hGranted hNothing]
      exact ⟨hLive.trans hFollows.live, fun hNext => hFollows.nothing (hOn hNext)⟩
    have hStep := step_after hConsistent call
    generalize history.after call = next at hStep
    cases hStep with
    | recorded hPlan hOn hEncode =>
        rw [Recorder.missedAfter, hGranted, if_neg Bool.false_ne_true, if_pos hOn]
        exact ⟨hFollows.live, hFollows.nothing⟩
    | noted hPlan hOff =>
        rw [Recorder.missedAfter, hGranted, if_neg Bool.false_ne_true, hOff,
          if_neg Bool.false_ne_true, Recorder.dispatchesOf_report hPlan]
        refine ⟨?_, fun hOn => absurd hOn (by simp [hOff])⟩
        rw [List.foldl_append, ← hFollows.live]
    | idle hNothing => exact hQuiet hNothing rfl id
    | resumed | begun => exact absurd rfl hTurnOn
    | stopped hOn => exact hQuiet rfl rfl fun hOff => nomatch hOff
    | flushed => exact hQuiet rfl rfl id
    | closed => exact hQuiet rfl rfl fun hOff => nomatch hOff
    | renamed hOff => exact hQuiet rfl rfl id
    | reformed hOff hOther => exact hQuiet rfl rfl id
    | attached => exact hQuiet rfl rfl id

theorem Follows.afterAll (hFollows : history.Follows missed) (hConsistent : history.Consistent)
    (calls : List Call) :
    (history.afterAll calls).Follows (history.recorder.missedBy missed calls) := by
  induction calls generalizing history missed with
  | nil => exact hFollows
  | cons call calls ih => exact ih (hFollows.after hConsistent call) (hConsistent.after call)

end Follows
end History

/-! ### Turning on -/

namespace Recorder

section Codec

variable [Lz4.Codec]

theorem granted_of_bind {act : Action α} {next : α → Action β} {before after : Recorder}
    {result : β} (hBound : (act >>= next) before = .ok result after) :
    ∃ value middle, act before = .ok value middle ∧ next value middle = .ok result after := by
  cases hAct : act before with
  | ok value middle => exact ⟨value, middle, rfl, (bind_of_ok hAct).symm.trans hBound⟩
  | error fault middle =>
      rw [bind_of_error hAct] at hBound
      cases hBound

theorem granted_withEncoder {action : Encoding α} {recorder after : Recorder} {value : α}
    (hGranted : withEncoder action recorder = .ok value after) :
    after = { recorder with encoder := after.encoder } := by
  unfold withEncoder at hGranted
  dsimp only at hGranted
  split at hGranted
  · cases hGranted
    rfl
  · cases hGranted

theorem replayedItems_announceAll {recorder after : Recorder} {items : List ItemId}
    (hGranted : items.forM announceItem recorder = .ok () after) :
    after.tally.replayedItems = recorder.tally.replayedItems + items.length := by
  induction items generalizing recorder with
  | nil =>
      cases hGranted
      rfl
  | cons item items ih =>
      obtain ⟨_, counted, hFirst, hRest⟩ := granted_of_bind hGranted
      obtain ⟨_, written, hWrite, hCount⟩ := granted_of_bind hFirst
      obtain ⟨_, encoded, hEncode, hWritten⟩ := granted_of_bind hWrite
      have hEncoded := granted_withEncoder hEncode
      cases hWritten
      cases hCount
      rw [ih hRest, hEncoded, List.length_cons]
      dsimp only
      omega

theorem granted_replayStored {recorder after : Recorder} {replayed : Nat}
    (hGranted : replayStored recorder = .ok replayed after) :
    after.tally = recorder.tally ∧ after.live = recorder.live := by
  obtain ⟨_, _, hGet, hReplay⟩ := granted_of_bind hGranted
  cases hGet
  dsimp only at hReplay
  split at hReplay
  · rw [granted_withEncoder hReplay]
    exact ⟨rfl, rfl⟩
  · obtain ⟨_, begun, hBegin, hRest⟩ := granted_of_bind hReplay
    obtain ⟨_, forgotten, hForget, hAll⟩ := granted_of_bind hRest
    have hBegun := granted_withEncoder hBegin
    cases hForget
    rw [granted_withEncoder hAll, hBegun]
    exact ⟨rfl, rfl⟩

theorem replayedItems_turnOn {recorder after : Recorder} {reply : Reply}
    (hOff : recorder.on = false) (hGranted : perform .turnOn recorder = .ok reply after) :
    after.tally.replayedItems = recorder.tally.replayedItems + recorder.live.toList.length := by
  change turnOn recorder = .ok reply after at hGranted
  obtain ⟨_, _, hGet, hTurnOn⟩ := granted_of_bind hGranted
  cases hGet
  rw [hOff, if_neg Bool.false_ne_true] at hTurnOn
  obtain ⟨replayed, written, hReplay, hRest⟩ := granted_of_bind hTurnOn
  obtain ⟨_, counted, hCount, hCleared⟩ := granted_of_bind hRest
  obtain ⟨_, cleared, hClear, hFound⟩ := granted_of_bind hCleared
  obtain ⟨_, _, hGet, hAnnounced⟩ := granted_of_bind hFound
  obtain ⟨_, announced, hAnnounce, hSwitched⟩ := granted_of_bind hAnnounced
  obtain ⟨hTally, hLive⟩ := granted_replayStored hReplay
  cases hCount
  cases hClear
  cases hGet
  have hItems := replayedItems_announceAll hAnnounce
  cases hSwitched
  dsimp only at hItems
  rw [hTally, hLive] at hItems
  exact hItems

/-- What turning on hands to the output. A new output is given the version and
everything stored, an open one what was stored while off; new items follow. -/
theorem turnOn_handsOver {recorder after : Recorder} {reply : Reply}
    (hReady : recorder.encoder.Ready recorder.settings.text) (hOff : recorder.on = false)
    (hGranted : perform .turnOn recorder = .ok reply after) :
    reply = .done ∧ after.on = true ∧ after.live = {} ∧
    (recorder.encoder.isOpen = true →
      Encoder.encodeAll
        (recorder.store.partialReplay.toList ++ recorder.live.toList.map .newItem)
        recorder.encoder = .ok () after.encoder) ∧
    (recorder.encoder.isOpen = false →
      (do
        Encoder.openStream recorder.settings.fileName recorder.settings.compressed
        Encoder.encodeAll (openingVersion
          :: (recorder.store.all.toList ++ recorder.live.toList.map .newItem)) : Encoding Unit)
        recorder.encoder = .ok () after.encoder) := by
  rcases turnOn_cases hReady with hOn | ⟨_, hOpen⟩ |
    ⟨_, hClosed, name, opened, hName, hBegin, hOpened⟩ | ⟨_, hClosed, fault, hNoFile⟩
  · rw [hOff] at hOn
    cases hOn
  · obtain ⟨encoder, tally, hTurnOn, hEncode⟩ := turnOn_open hOff hOpen
    rw [hTurnOn] at hGranted
    cases hGranted
    exact ⟨rfl, rfl, rfl, fun _ => hEncode, fun hClosed => by simp [hOpen] at hClosed⟩
  · obtain ⟨encoder, tally, hTurnOn, hEncode⟩ := turnOn_begin hOff hClosed hBegin hOpened.isOpen
    rw [hTurnOn] at hGranted
    cases hGranted
    refine ⟨rfl, rfl, rfl, fun hOpen => by simp [hClosed] at hOpen, fun _ => ?_⟩
    have hAll : (do
        Encoder.beginFile recorder.settings.fileName recorder.settings.compressed
        Encoder.encodeAll (recorder.store.all.toList ++ recorder.live.toList.map .newItem) :
          Encoding Unit) recorder.encoder = .ok () encoder :=
      (bind_of_ok hBegin).trans hEncode
    unfold Encoder.beginFile at hAll
    rw [bind_assoc] at hAll
    exact hAll
  · rw [hNoFile] at hGranted
    cases hGranted

/-- The live items are those of which the dispatches that were missed say last that
they came into being. Turning on announces each of them once, in ascending order
and after the replay, counts them and leaves none. -/
theorem live_announced (settings : Settings) (directory : Directory) (calls : List Call) :
    let recorder := (ofSettings settings directory).afterCalls calls
    let missed := (ofSettings settings directory).missedBy [] calls
    (∀ item, item ∈ recorder.live ↔ lastLiveness? item missed = some true) ∧
    ∀ reply after, recorder.on = false → perform .turnOn recorder = .ok reply after →
      reply = .done ∧ after.on = true ∧ after.live = {} ∧
      ∃ items : List ItemId, items.Pairwise (· < ·) ∧
        (∀ item, item ∈ items ↔ lastLiveness? item missed = some true) ∧
        after.tally.replayedItems = recorder.tally.replayedItems + items.length ∧
        (recorder.encoder.isOpen = true →
          Encoder.encodeAll (recorder.store.partialReplay.toList ++ items.map .newItem)
            recorder.encoder = .ok () after.encoder) ∧
        (recorder.encoder.isOpen = false →
          (do
            Encoder.openStream recorder.settings.fileName recorder.settings.compressed
            Encoder.encodeAll (openingVersion
              :: (recorder.store.all.toList ++ items.map .newItem)) : Encoding Unit)
            recorder.encoder = .ok () after.encoder) := by
  intro recorder missed
  have hStart := History.consistent_start settings directory
  have hConsistent := hStart.afterAll calls
  have hNothing : (History.start settings directory).Follows [] := History.follows_nothing rfl
  have hFollows := hNothing.afterAll hStart calls
  have hRecorder : ((History.start settings directory).afterAll calls).recorder = recorder :=
    History.recorder_afterAll (History.start settings directory) calls
  have hLive : recorder.live = missed.foldl trackItem {} := hRecorder ▸ hFollows.live
  have hReady : recorder.encoder.Ready recorder.settings.text := hRecorder ▸ hConsistent.ready
  have hMember (item : ItemId) : item ∈ recorder.live ↔ lastLiveness? item missed = some true := by
    rw [hLive, mem_foldl_trackItem]
    cases lastLiveness? item missed <;> simp
  refine ⟨hMember, fun reply after hOff hGranted => ?_⟩
  obtain ⟨hReply, hOn, hNone, hHands⟩ := turnOn_handsOver hReady hOff hGranted
  refine ⟨hReply, hOn, hNone, recorder.live.toList, toList_live_ascending _, fun item => ?_,
    replayedItems_turnOn hOff hGranted, hHands⟩
  rw [Std.TreeSet.mem_toList]
  exact hMember item

end Codec

/-- Items that came into being while off, one of them stored and one deleted since,
across a file that could not be begun and a change of the file. -/
def createdWhileOff : List Call :=
  [.report (.newItem none) false, .report (.newItem (some 9)) false, .turnOn,
    .report (.newItem (some 4)) true, .changeFile "run.ptr", .report (.deleteItem 1) true,
    .report (.newItem (some 3)) false]

theorem live_announced_createdWhileOff :
    let recorder := (ofSettings { fileName := "" } {}).afterCalls createdWhileOff
    (9 ∈ recorder.live ∧ 3 ∈ recorder.live ∧ 1 ∉ recorder.live ∧ 4 ∉ recorder.live) ∧
    ∃ after, perform .turnOn recorder = .ok .done after ∧ after.live = {} ∧
      ∃ items : List ItemId, items.Pairwise (· < ·) ∧ 3 ∈ items ∧ 9 ∈ items ∧
        after.tally.replayedItems = items.length := by
  intro recorder
  obtain ⟨hMember, hTurnOn⟩ := live_announced { fileName := "" } {} createdWhileOff
  have hOff : recorder.on = false := rfl
  have hGranted : ∃ after, perform .turnOn recorder = .ok .done after := ⟨_, rfl⟩
  obtain ⟨after, hGranted⟩ := hGranted
  obtain ⟨_, _, hNone, items, hAscending, hItems, hCount, _⟩ := hTurnOn .done after hOff hGranted
  refine ⟨⟨(hMember 9).mpr rfl, (hMember 3).mpr rfl, fun hOne => ?_, fun hFour => ?_⟩, after,
    hGranted, hNone, items, hAscending, (hItems 3).mpr rfl, (hItems 9).mpr rfl, ?_⟩
  · cases (hMember 1).mp hOne
  · cases (hMember 4).mp hFour
  · exact hCount.trans (Nat.zero_add _)

end Recorder
end Recording
end CycleTrace
