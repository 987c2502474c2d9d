/-
The highest traffic of an edge.

The cycles that are granted divide a run into windows, the last of which is
still under way. A clocked cycle that repeats the one before it begins no
window. The mark of an edge is the most that moved over it in one window, or the
largest 32-bit number where more did; an edge that nothing moved over has none.
Moves over other edges do not count, and it makes no difference in which order
the counts of a window are taken into the marks.
-/

import CycleTrace.Lz4.StoredBlocks
import CycleTrace.Proofs.Recording.Permitted
import Mathlib.Algebra.GroupWithZero.Nat

namespace CycleTrace
namespace Recording

open Output (Directory stateAfter)

/-! ### Windows -/

/-- Items that moved over an edge together, at least one. -/
structure Move where
  edge : EdgeId
  count : Nat
deriving DecidableEq, Repr

/-- The moves of a run by windows, and the clocked cycle that was granted last. -/
structure Windows where
  ended : List (List Move) := []
  running : List Move := []
  lastCycle : Option ClockedCycle := none

namespace Windows

/-- All windows, the one under way at the end. -/
def all (windows : Windows) : List (List Move) :=
  windows.ended ++ [windows.running]

/-- A window ends and another begins. -/
def next (windows : Windows) : Windows :=
  { windows with ended := windows.ended ++ [windows.running], running := [] }

/-- The windows after an event that was granted. -/
def note (windows : Windows) : Event → Windows
  | .moveItems edge items _ =>
      if items.isEmpty then windows
      else { windows with running := windows.running ++ [⟨edge, items.length⟩] }
  | .cycle _ => windows.next
  | .clockedCycle cycle =>
      if windows.lastCycle = some cycle then windows
      else { windows.next with lastCycle := some cycle }
  | _ => windows

end Windows

namespace History

variable [Lz4.Codec]

/-- The windows after a call. -/
def noteCall (history : History) (windows : Windows) : Call → Windows
  | .report event persistent =>
      match Recorder.answer (Recorder.perform (.report event persistent) history.recorder) with
      | .ok _ => windows.note event
      | .error _ => windows
  | _ => windows

/-- The windows after calls in order. -/
def windowsAfter (history : History) (windows : Windows) : List Call → Windows
  | [] => windows
  | call :: calls => (history.after call).windowsAfter (history.noteCall windows call) calls

end History

/-! ### Marks of windows -/

/-- The items that moved over an edge. -/
def itemsMoved (edge : EdgeId) (window : List Move) : Nat :=
  ((window.filter (·.edge == edge)).map (·.count)).sum

/-- The items that moved over an edge, as far as they are counted. -/
def countedItems (edge : EdgeId) (window : List Move) : Nat :=
  min (UInt32.size - 1) (itemsMoved edge window)

/-- Whether something moved over an edge. -/
def carries (edge : EdgeId) (window : List Move) : Bool :=
  window.any (·.edge == edge)

/-- The mark that a window sets for an edge. -/
def windowMark (edge : EdgeId) (window : List Move) : Option Nat :=
  if carries edge window then some (countedItems edge window) else none

/-- The highest mark that windows set for an edge. -/
def highestMark (edge : EdgeId) (windows : List (List Move)) : Option Nat :=
  windows.foldl (fun mark window => mark.merge max (windowMark edge window)) none

section Marks

variable {edge other : EdgeId} {window : List Move} {count : Nat}

theorem windowMark_other (hOther : other ≠ edge) :
    windowMark edge (window ++ [⟨other, count⟩]) = windowMark edge window := by
  simp [windowMark, carries, countedItems, itemsMoved, hOther]

theorem windowMark_self :
    windowMark edge (window ++ [⟨edge, count⟩])
      = some (min (UInt32.size - 1) (itemsMoved edge window + count)) := by
  simp [windowMark, carries, countedItems, itemsMoved]

theorem itemsMoved_of_not_carries (hNothing : carries edge window = false) :
    itemsMoved edge window = 0 := by
  have hFilter : window.filter (·.edge == edge) = [] := by
    rw [List.filter_eq_nil_iff]
    intro move hMove
    rw [carries, List.any_eq_false] at hNothing
    exact hNothing move hMove
  rw [itemsMoved, hFilter]
  rfl

theorem getD_windowMark (edge : EdgeId) (window : List Move) :
    (windowMark edge window).getD 0 = countedItems edge window := by
  unfold windowMark
  cases hCarries : carries edge window with
  | true => rfl
  | false =>
      rw [countedItems, itemsMoved_of_not_carries hCarries]
      rfl

theorem highestMark_snoc (edge : EdgeId) (windows : List (List Move)) (window : List Move) :
    highestMark edge (windows ++ [window])
      = (highestMark edge windows).merge max (windowMark edge window) := by
  unfold highestMark
  rw [List.foldl_append]
  rfl

/-- The highest mark is the maximum of what the windows carried, if one of them
carried something. -/
theorem highestMark_eq (edge : EdgeId) (windows : List (List Move)) :
    highestMark edge windows
      = if windows.any (carries edge) then (windows.map (countedItems edge)).max? else none := by
  -- a mark so far counts like one more window in front
  have hFold (mark : Option Nat) :
      (windows.foldl (fun mark window => mark.merge max (windowMark edge window)) mark).getD 0
        = (windows.map (countedItems edge)).foldl max (mark.getD 0) ∧
      (windows.foldl (fun mark window => mark.merge max (windowMark edge window)) mark).isSome
        = (mark.isSome || windows.any (carries edge)) := by
    induction windows generalizing mark with
    | nil => exact ⟨rfl, (Bool.or_false _).symm⟩
    | cons window windows ih =>
        obtain ⟨hValue, hSome⟩ := ih (mark.merge max (windowMark edge window))
        rw [List.foldl_cons, List.map_cons, List.foldl_cons, List.any_cons, hValue, hSome,
          ← getD_windowMark]
        have hMark : (windowMark edge window).isSome = carries edge window := by
          unfold windowMark
          split <;> simp_all
        rw [← hMark]
        cases mark <;> cases windowMark edge window <;> simp
  obtain ⟨hValue, hSome⟩ := hFold none
  rw [Option.isSome_none, Bool.false_or] at hSome
  unfold highestMark
  cases hCarries : windows.any (carries edge) with
  | false =>
      rw [hCarries] at hSome
      exact Option.isNone_iff_eq_none.mp (by simpa using hSome)
  | true =>
      rw [hCarries] at hSome
      obtain ⟨mark, hMark⟩ := Option.isSome_iff_exists.mp hSome
      rw [hMark] at hValue ⊢
      cases windows with
      | nil => cases hCarries
      | cons window windows =>
          rw [if_pos rfl, List.map_cons, List.max?_cons']
          simpa using hValue

end Marks

/-! ### Counts of traffic -/

theorem toNat_saturatingAdd (counted : UInt32) {count : Nat} (hFits : count < UInt32.size) :
    (saturatingAdd counted (UInt32.ofNat count)).toNat
      = min (UInt32.size - 1) (counted.toNat + count) := by
  have hCount : (UInt32.ofNat count).toNat = count := UInt32.toNat_ofNat_of_lt' hFits
  have hSum : min (counted.toNat + count) (UInt32.size - 1) < UInt32.size :=
    Nat.lt_of_le_of_lt (Nat.min_le_right _ _) (by decide)
  unfold saturatingAdd
  rw [hCount, UInt32.toNat_ofNat_of_lt' hSum, Nat.min_comm]

namespace Traffic

variable {traffic : Traffic} {edge other : EdgeId} {count : Nat}

theorem current_add (traffic : Traffic) (edge other : EdgeId) (count : Nat) :
    (traffic.add edge count).current[other]?
      = if edge = other then
          some (saturatingAdd (traffic.current[edge]?.getD 0) (UInt32.ofNat count))
        else traffic.current[other]? := by
  simp only [add, Std.TreeMap.getElem?_insert, Std.compare_eq_iff_eq,
    Std.TreeMap.getD_eq_getD_getElem?]

/-- Counts taken into the marks one after the other, each of another edge. -/
theorem getElem?_raised {counts : List (EdgeId × UInt32)}
    (hDistinct : counts.Pairwise fun first second => ¬ compare first.1 second.1 = .eq)
    (marks : Std.TreeMap EdgeId UInt32) (edge : EdgeId) :
    ((∀ count, (edge, count) ∉ counts) →
      (counts.foldl (fun marks entry =>
        marks.insert entry.1 (max (marks.getD entry.1 0) entry.2)) marks)[edge]?
        = marks[edge]?) ∧
    (∀ count, (edge, count) ∈ counts →
      (counts.foldl (fun marks entry =>
        marks.insert entry.1 (max (marks.getD entry.1 0) entry.2)) marks)[edge]?
        = some (max (marks[edge]?.getD 0) count)) := by
  induction counts generalizing marks with
  | nil => exact ⟨fun _ => rfl, fun _ hMember => nomatch hMember⟩
  | cons entry counts ih =>
      obtain ⟨hFirst, hRest⟩ := List.pairwise_cons.mp hDistinct
      obtain ⟨hKept, hRaised⟩ :=
        ih hRest (marks.insert entry.1 (max (marks.getD entry.1 0) entry.2))
      rw [Std.TreeMap.getElem?_insert] at hKept hRaised
      simp only [Std.compare_eq_iff_eq] at hFirst hKept hRaised
      constructor
      · intro hNone
        have hOther : entry.1 ≠ edge := by
          rintro rfl
          exact hNone entry.2 List.mem_cons_self
        rw [if_neg hOther] at hKept
        exact hKept fun count hMember => hNone count (List.mem_cons_of_mem _ hMember)
      · intro count hMember
        rcases List.mem_cons.mp hMember with hHead | hTail
        · subst hHead
          rw [if_pos rfl, Std.TreeMap.getD_eq_getD_getElem?] at hKept
          rw [List.foldl_cons, Std.TreeMap.getD_eq_getD_getElem?]
          exact hKept fun other hOther => hFirst (edge, other) hOther rfl
        · have hOther : entry.1 ≠ edge := hFirst _ hTail
          rw [if_neg hOther] at hRaised
          exact hRaised count hTail

/-- The end of a cycle raises the mark of an edge to its count. -/
theorem highest_endCycle (traffic : Traffic) (edge : EdgeId) :
    traffic.endCycle.highest[edge]?
      = traffic.highest[edge]?.merge max traffic.current[edge]? := by
  obtain ⟨hKept, hRaised⟩ := getElem?_raised traffic.current.distinct_keys_toList
    traffic.highest edge
  unfold endCycle
  dsimp only
  rw [Std.TreeMap.foldl_eq_foldl_toList]
  cases hCount : traffic.current[edge]? with
  | none =>
      rw [hKept ?_, Option.merge_none_right]
      intro count hMember
      rw [Std.TreeMap.mem_toList_iff_getElem?_eq_some, hCount] at hMember
      cases hMember
  | some count =>
      rw [hRaised count (Std.TreeMap.mem_toList_iff_getElem?_eq_some.mpr hCount)]
      cases traffic.highest[edge]? with
      | none => exact congrArg some (UInt32.toFin_inj.mp rfl)
      | some mark => rfl

theorem highest?_eq (traffic : Traffic) (edge : EdgeId) :
    traffic.highest? edge = traffic.highest[edge]?.merge max traffic.current[edge]? := by
  unfold highest?
  cases traffic.highest[edge]? <;> cases traffic.current[edge]? <;> rfl

end Traffic

theorem map_toNat_merge (mark other : Option UInt32) :
    (mark.merge max other).map UInt32.toNat
      = (mark.map UInt32.toNat).merge max (other.map UInt32.toNat) := by
  cases mark <;> cases other <;> simp [UInt32.toNat_max]

/-! ### The counts of a machine -/

/-- The counts of an edge tell of the windows what there is to tell. -/
structure Traffic.Marks (traffic : Traffic) (windows : Windows) (edge : EdgeId) : Prop where
  running : traffic.current[edge]?.map UInt32.toNat = windowMark edge windows.running
  ended : traffic.highest[edge]?.map UInt32.toNat = highestMark edge windows.ended

/-- A machine that counts traffic, with the windows it has counted. -/
structure Machine.Counts (machine : Machine) (windows : Windows) : Prop where
  traffic : ∃ traffic, machine.traffic = some traffic ∧ ∀ edge, traffic.Marks windows edge
  lastCycle : windows.lastCycle = machine.lastClockedCycle

namespace Traffic.Marks

variable {traffic : Traffic} {windows : Windows} {edge : EdgeId}

theorem highest? (hMarks : traffic.Marks windows edge) :
    (traffic.highest? edge).map UInt32.toNat = highestMark edge windows.all := by
  rw [highest?_eq, map_toNat_merge, hMarks.ended, hMarks.running, Windows.all, highestMark_snoc]

theorem add (hMarks : traffic.Marks windows edge) (other : EdgeId) {count : Nat}
    (hFits : count < UInt32.size) :
    (traffic.add other count).Marks
      { windows with running := windows.running ++ [⟨other, count⟩] } edge := by
  refine ⟨?_, hMarks.ended⟩
  rw [current_add]
  by_cases hSame : other = edge
  · subst hSame
    have hCounted : (traffic.current[other]?.getD 0).toNat
        = countedItems other windows.running := by
      rw [← getD_windowMark, ← hMarks.running]
      cases traffic.current[other]? <;> rfl
    rw [if_pos rfl, Option.map_some, toNat_saturatingAdd _ hFits, hCounted, windowMark_self,
      countedItems]
    congr 1
    omega
  · rw [if_neg hSame, windowMark_other hSame]
    exact hMarks.running

theorem endCycle (hMarks : traffic.Marks windows edge) :
    traffic.endCycle.Marks windows.next edge := by
  refine ⟨rfl, ?_⟩
  rw [highest_endCycle, map_toNat_merge, hMarks.ended, hMarks.running, Windows.next,
    highestMark_snoc]

end Traffic.Marks

namespace Machine

variable {machine : Machine} {windows : Windows}

theorem Counts.beginCycle (hCounts : machine.Counts windows) (persistent : Bool)
    (accepts : NodeId → Bool) (command : Command) (number : UInt64) :
    (machine.beginCycle persistent accepts command number).machine.Counts windows.next := by
  obtain ⟨traffic, hTraffic, hMarks⟩ := hCounts.traffic
  refine ⟨⟨traffic.endCycle, ?_, fun edge => (hMarks edge).endCycle⟩, hCounts.lastCycle⟩
  unfold Machine.beginCycle
  dsimp only
  rw [hTraffic]
  rfl

/-- An accepted event is counted as the windows note it. -/
theorem Counts.accepts (hCounts : machine.Counts windows) {circumstances : Circumstances}
    {event : Event} {plan : Plan} (hAccepts : machine.Accepts circumstances event plan) :
    plan.machine.Counts (windows.note event) := by
  have hLast := hCounts.lastCycle
  cases hAccepts with
  | moveNone hMove hNone =>
      unfold Windows.note
      dsimp only
      rw [if_pos hNone]
      exact hCounts
  | @moveItems edge items positions hMove hSome =>
      obtain ⟨traffic, hTraffic, hMarks⟩ := hCounts.traffic
      have hFits : items.length < UInt32.size :=
        Nat.lt_of_le_of_lt (checkMove_permitted hMove).1.1 (by decide)
      unfold Windows.note
      dsimp only
      rw [hSome, if_neg Bool.false_ne_true]
      refine ⟨⟨traffic.add edge items.length, ?_, fun other => (hMarks other).add edge hFits⟩,
        hLast⟩
      rw [hTraffic]
      rfl
  | cycle => exact hCounts.beginCycle _ _ _ _
  | @repeatedCycle cycle hClock hRepeated =>
      unfold Windows.note
      dsimp only
      rw [if_pos (hLast.trans hRepeated)]
      exact hCounts
  | @clockedCycle cycle plan hClock hNew hPlan =>
      unfold Windows.note
      dsimp only
      rw [if_neg (hLast ▸ hNew)]
      subst hPlan
      obtain ⟨traffic, hTraffic, hMarks⟩ := (hCounts.beginCycle circumstances.persistent
        (machine.inDomain cycle.clock) (.clockedCycle cycle) cycle.cycle).traffic
      exact ⟨⟨traffic, hTraffic, fun edge => { hMarks edge with }⟩, rfl⟩
  | tagNode hTag hNode hNew =>
      dsimp only
      split <;> exact ⟨hCounts.traffic, hLast⟩
  | _ => exact ⟨hCounts.traffic, hLast⟩

end Machine

/-! ### All runs -/

namespace History

section Codec

variable [Lz4.Codec] {history : History} {windows : Windows}

/-- Only reports are counted. -/
theorem Step.counts {call : Call} {next : History} (hStep : history.Step call next)
    (hOther : ∀ event persistent, call ≠ .report event persistent)
    (hCounts : history.recorder.machine.Counts windows) :
    next.recorder.machine.Counts windows := by
  cases hStep with
  | recorded hPlan hOn hEncode => exact absurd rfl (hOther _ _)
  | noted hPlan hOff => exact absurd rfl (hOther _ _)
  | _ => exact { hCounts with }

theorem Consistent.counts_after (hConsistent : history.Consistent)
    (hCounts : history.recorder.machine.Counts windows) (call : Call) :
    (history.after call).recorder.machine.Counts (history.noteCall windows call) := by
  cases call with
  | report event persistent =>
      unfold noteCall
      dsimp only
      rw [hConsistent.answer_planned]
      cases hPlan : history.recorder.planned event persistent with
      | error fault =>
          change (stateAfter (Recorder.perform _ history.recorder)).machine.Counts windows
          rw [Recorder.report_refused hConsistent.isOpen hPlan]
          exact hCounts
      | ok plan =>
          obtain ⟨next, hReport, hMachine⟩ := hConsistent.answer_report hPlan
          change (stateAfter (Recorder.perform _ history.recorder)).machine.Counts
            (windows.note event)
          rw [hReport]
          exact hMachine ▸ hCounts.accepts (Machine.accepts_of_plan hPlan)
  | _ => exact (step_after hConsistent _).counts nofun hCounts

theorem Consistent.counts_afterAll (hConsistent : history.Consistent)
    (hCounts : history.recorder.machine.Counts windows) (calls : List Call) :
    (history.afterAll calls).recorder.machine.Counts (history.windowsAfter windows calls) := by
  induction calls generalizing history windows with
  | nil => exact hCounts
  | cons call calls ih => exact ih (hConsistent.after call) (hConsistent.counts_after hCounts call)

theorem counts_start {settings : Settings} (hTracks : settings.trackTraffic = true)
    (directory : Directory) : (start settings directory).recorder.machine.Counts {} := by
  refine ⟨⟨{}, if_pos hTracks, fun edge => ⟨?_, ?_⟩⟩, rfl⟩
  · rfl
  · rfl

/-- Where traffic is counted, an edge has a mark just if items were moved over it,
and the mark is the most items that moved over it in one window, the one under way
included, or the largest 32-bit number. Nothing else has a part in it. -/
theorem highestTraffic_eq {settings : Settings} (hTracks : settings.trackTraffic = true)
    (directory : Directory) (calls : List Call) (edge : EdgeId) :
    let windows := ((start settings directory).windowsAfter {} calls).all
    (((start settings directory).afterAll calls).recorder.highestTraffic edge).map UInt32.toNat
      = if ∃ window ∈ windows, ∃ move ∈ window, move.edge = edge then
          (windows.map fun window => min (UInt32.size - 1) (itemsMoved edge window)).max?
        else none := by
  have hCounts := (consistent_start settings directory).counts_afterAll
    (counts_start hTracks directory) calls
  obtain ⟨traffic, hTraffic, hMarks⟩ := hCounts.traffic
  have hMoved (windows : List (List Move)) :
      windows.any (carries edge) = true
        ↔ ∃ window ∈ windows, ∃ move ∈ window, move.edge = edge := by
    simp only [carries, List.any_eq_true, beq_iff_eq]
  have hHighest := (hMarks edge).highest?
  rw [highestMark_eq] at hHighest
  simp only [hMoved] at hHighest
  unfold Recorder.highestTraffic
  rw [hTraffic]
  exact hHighest

end Codec

/-- A run with two edges. A move of no item, a move over an unknown edge and the
repetition of a clocked cycle are among its calls, and the recorder is off when
its last window is under way. -/
def sharedWindows : List Call :=
  [.report (.newNode { name := "core" } none) true,
    .report (.newEdge { source := 0, destination := 0, name := "bus" } none) true,
    .report (.newEdge { source := 0, destination := 0, name := "ring" } none) true, .turnOn,
    .report (.moveItems 0 [1, 2] []) false, .report (.moveItems 1 [9] []) false,
    .report (.clockedCycle ⟨0, 5, .high⟩) false, .report (.moveItems 0 [3, 4] []) false,
    .report (.moveItems 0 [] []) false, .report (.moveItems 7 [1] []) false,
    .report (.clockedCycle ⟨0, 5, .high⟩) false, .turnOff,
    .report (.moveItems 0 [5] []) false]

theorem highestTraffic_eq_shared :
    let run := (start { trackTraffic := true } {}).afterAll sharedWindows
    ((start { trackTraffic := true } {}).windowsAfter {} sharedWindows).all
      = [[⟨0, 2⟩, ⟨1, 1⟩], [⟨0, 2⟩, ⟨0, 1⟩]] ∧
    (run.recorder.highestTraffic 0).map UInt32.toNat = some 3 ∧
    (run.recorder.highestTraffic 1).map UInt32.toNat = some 1 ∧
    (run.recorder.highestTraffic 7).map UInt32.toNat = none := by
  have hWindows : ((start { trackTraffic := true } {}).windowsAfter {} sharedWindows).all
      = [[⟨0, 2⟩, ⟨1, 1⟩], [⟨0, 2⟩, ⟨0, 1⟩]] := by
    decide +kernel
  have hTracks : ({ trackTraffic := true } : Settings).trackTraffic = true := rfl
  have hHighest := highestTraffic_eq hTracks {} sharedWindows
  rw [hWindows] at hHighest
  exact ⟨hWindows, (hHighest 0).trans rfl, (hHighest 1).trans rfl,
    (hHighest 7).trans rfl⟩

end History
end Recording
end CycleTrace
