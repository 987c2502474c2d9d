/-
Buffering is not seen from outside.

A ledger is what is left of a writer without its buffer. It notes the open file
with the data accepted for it, what the files closed before have to hold, and
how much was accepted in all. No capacity plays a part in it. Whatever a writer
is asked for, one call after another, its open file and its buffer together hold
what the ledger notes, and a file that is closed holds it alone. Two writers with
buffers of different capacities keep to the same ledger, and so leave the same
files.
-/

import CycleTrace.Lz4.StoredBlocks
import CycleTrace.Proofs.Output.Neighbors

namespace CycleTrace
namespace Output
namespace Writer

/-! ### Calls -/

/-- What a writer can be asked for. -/
inductive Call where
  | openFile (path : String) (compressed : Bool)
  | write (data : List UInt8)
  | flush
  | close
deriving DecidableEq, Repr

variable [Lz4.Codec]

/-- A writer after a call, granted or refused. -/
def afterCall (writer : Writer) : Call → Writer
  | .openFile path compressed => stateAfter (openFile path compressed writer)
  | .write data => stateAfter (write data writer)
  | .flush => writer.flush
  | .close => writer.close

def afterCalls (writer : Writer) (calls : List Call) : Writer :=
  calls.foldl afterCall writer

variable {writer : Writer}

/-! ### Capacity and count -/

/-- The buffer has its size, and nothing more was accepted. -/
structure MovesOnly (before after : Writer) : Prop where
  capacity : after.capacity = before.capacity
  accepted : after.accepted = before.accepted

theorem movesOnly_deliver (writer : Writer) (sink : Sink) (bytes : List UInt8) :
    writer.MovesOnly (writer.deliver sink bytes) := by
  unfold deliver
  split <;> exact ⟨rfl, rfl⟩

theorem movesOnly_spill (writer : Writer) : writer.MovesOnly writer.spill := by
  unfold spill
  split
  · exact ⟨rfl, rfl⟩
  · next sink hSink =>
      have hDelivered := movesOnly_deliver writer sink writer.buffer.toList
      split
      · exact ⟨rfl, rfl⟩
      · exact ⟨hDelivered.capacity, hDelivered.accepted⟩

theorem movesOnly_flush (writer : Writer) : writer.MovesOnly writer.flush := by
  have hSpilled := movesOnly_spill writer
  unfold flush
  dsimp only
  split
  · exact ⟨hSpilled.capacity, hSpilled.accepted⟩
  · exact hSpilled

theorem movesOnly_close (writer : Writer) : writer.MovesOnly writer.close := by
  have hFlushed := movesOnly_flush writer
  unfold close
  dsimp only
  split
  · exact hFlushed
  · exact ⟨hFlushed.capacity, hFlushed.accepted⟩

/-- Where a file is open the buffer can be emptied. -/
theorem buffer_spill (hOpen : writer.isOpen = true) : writer.spill.buffer = #[] := by
  obtain ⟨sink, hSink⟩ := Option.isSome_iff_exists.mp hOpen
  unfold spill
  rw [hSink]
  dsimp only
  split
  · next hEmpty => simpa using hEmpty
  · rfl

/-- Data that is accepted is counted, and what waits of it fits the buffer. -/
theorem accept_fits (hOpen : writer.isOpen = true) (data : List UInt8) :
    (writer.accept data).capacity = writer.capacity ∧
    (writer.accept data).accepted = writer.accepted + data.length ∧
    (writer.accept data).buffer.size ≤ writer.capacity := by
  have hSpilled := movesOnly_spill { writer with accepted := writer.accepted + data.length }
  have hEmpty : ({ writer with accepted := writer.accepted + data.length } : Writer).spill.buffer
      = #[] := buffer_spill hOpen
  unfold accept
  dsimp only
  split
  · next hFits =>
      refine ⟨rfl, rfl, ?_⟩
      rw [← Array.length_toList, Array.toList_appendList, List.length_append]
      exact hFits
  · split
    · next hSmall =>
        refine ⟨hSpilled.capacity, hSpilled.accepted, ?_⟩
        rw [hEmpty, ← Array.length_toList, Array.toList_appendList]
        simpa [hSpilled.capacity] using hSmall
    · split
      · refine ⟨hSpilled.capacity, hSpilled.accepted, ?_⟩
        rw [hEmpty]
        exact Nat.zero_le _
      · next sink hSink =>
          have hDelivered := movesOnly_deliver
            ({ writer with accepted := writer.accepted + data.length } : Writer).spill sink data
          refine ⟨hDelivered.capacity.trans hSpilled.capacity,
            hDelivered.accepted.trans hSpilled.accepted, ?_⟩
          rw [buffer_deliver, hEmpty]
          exact Nat.zero_le _

/-! ### Calls that are repeated -/

theorem spill_of_empty (hEmpty : writer.buffer = #[]) : writer.spill = writer := by
  unfold spill
  split
  · rfl
  · rw [hEmpty]
    rfl

/-- The open file, if there is one, is no frame. -/
def Plain (writer : Writer) : Prop :=
  ∀ sink, writer.sink = some sink → sink.frame = none

theorem plain_of_closed (hClosed : writer.isOpen = false) : writer.Plain := by
  intro sink hSink
  rw [sink_of_closed hClosed] at hSink
  cases hSink

theorem Holds.plain {name : String} {data : List UInt8} (hHolds : writer.Holds name false data) :
    writer.Plain := by
  obtain ⟨_, ⟨opened, _, hOpened, _, hFrame, _⟩, _⟩ := hHolds
  intro sink hSink
  rw [hOpened] at hSink
  cases hSink
  simpa using hFrame

theorem Plain.sink_spill (hPlain : writer.Plain) : writer.spill.sink = writer.sink := by
  unfold spill
  split
  · rfl
  · next sink hSink =>
      split
      · rfl
      · unfold deliver
        rw [hPlain sink hSink]

/-- To flush a plain file is to hand on the buffer. -/
theorem Plain.flush_eq (hPlain : writer.Plain) : writer.flush = writer.spill := by
  unfold flush
  dsimp only
  rw [hPlain.sink_spill]
  split
  · next hSink => cases hPlain _ hSink
  · rfl

theorem Accounted.buffer_flush (hAccounted : writer.Accounted) : writer.flush.buffer = #[] := by
  rcases hAccounted with ⟨hClosed, hNone⟩ | ⟨name, compressed, data, hHolds⟩
  · rw [flush_of_closed hClosed]
    exact hNone
  · exact hHolds.flush.2

/-- A plain file that was flushed has nothing more to be flushed. -/
theorem Plain.flush_flush (hPlain : writer.Plain) (hAccounted : writer.Accounted) :
    writer.flush.flush = writer.flush := by
  have hFlushed : writer.flush.Plain := by
    unfold Plain
    rw [hPlain.flush_eq, hPlain.sink_spill]
    exact hPlain
  exact hFlushed.flush_eq.trans (spill_of_empty hAccounted.buffer_flush)

theorem capacity_afterCall (writer : Writer) (call : Call) :
    (writer.afterCall call).capacity = writer.capacity := by
  have hClose := writer.movesOnly_close.capacity
  unfold afterCall
  cases call with
  | openFile path compressed =>
      dsimp only
      cases hName : Directory.fileName? path with
      | none =>
          rw [openFile_of_none hName]
          exact hClose
      | some name =>
          rw [openFile_of_fileName? hName]
          exact hClose
  | write data =>
      dsimp only
      cases hOpen : writer.isOpen with
      | false =>
          rw [write_of_closed hOpen]
          rfl
      | true =>
          rw [write_of_isOpen hOpen]
          exact (accept_fits hOpen data).1
  | flush => exact writer.movesOnly_flush.capacity
  | close => exact hClose

theorem capacity_afterCalls (writer : Writer) (calls : List Call) :
    (writer.afterCalls calls).capacity = writer.capacity := by
  induction calls generalizing writer with
  | nil => rfl
  | cons call calls ih => exact (ih _).trans (writer.capacity_afterCall call)

end Writer

/-! ### Ledgers -/

/-- A file as it has to be: the data itself or a frame that reads as it. -/
structure Record where
  compressed : Bool
  data : List UInt8
deriving DecidableEq, Repr

/-- The open file with what was accepted for it, the files that were closed, and
the number of bytes accepted so far. -/
structure Ledger where
  opened : Option (String × Record) := none
  closed : String → Option Record := fun _ => none
  accepted : Nat := 0

namespace Ledger

/-- The open file is closed, if there is one. -/
def close (ledger : Ledger) : Ledger :=
  match ledger.opened with
  | none => ledger
  | some (name, record) =>
      { ledger with
        opened := none
        closed := fun other => if other = name then some record else ledger.closed other }

/-- A ledger after a call. Data is accepted while a file is open. -/
def afterCall (ledger : Ledger) : Writer.Call → Ledger
  | .openFile path compressed =>
      match Directory.fileName? path with
      | none => ledger.close
      | some name => { ledger.close with opened := some (name, ⟨compressed, []⟩) }
  | .write data =>
      match ledger.opened with
      | none => ledger
      | some (name, record) =>
          { ledger with
            opened := some (name, { record with data := record.data ++ data })
            accepted := ledger.accepted + data.length }
  | .flush => ledger
  | .close => ledger.close

def afterCalls (ledger : Ledger) (calls : List Writer.Call) : Ledger :=
  calls.foldl afterCall ledger

theorem opened_close (ledger : Ledger) : ledger.close.opened = none := by
  unfold Ledger.close
  split
  · next hNone => exact hNone
  · rfl

variable [Lz4.Codec]

/-- What a ledger says of a file that is not open: it is as it was at the start
or as it was closed. -/
def Tells (ledger : Ledger) (start : Directory) (name : String) (file : Option (Array UInt8)) :
    Prop :=
  match ledger.closed name with
  | none => file = start.files[name]?
  | some record => ∃ content, file = some content ∧
      Writer.FileReads content.toList record.compressed record.data

/-- A writer that keeps to a ledger. -/
structure Covers (ledger : Ledger) (start : Directory) (writer : Writer) : Prop where
  opened : ∀ name record, ledger.opened = some (name, record) →
    writer.Holds name record.compressed record.data
  unopened : ledger.opened = none → writer.isOpen = false ∧ writer.buffer = #[]
  fits : writer.buffer.size ≤ writer.capacity
  accepted : writer.accepted = ledger.accepted
  closed : ∀ name, writer.openName? ≠ some name →
    ledger.Tells start name writer.directory.files[name]?

variable {ledger : Ledger} {start : Directory} {writer : Writer}

theorem covers_start (capacity : Nat) (start : Directory) :
    ({} : Ledger).Covers start { capacity, directory := start } where
  opened := fun _ _ hNone => nomatch hNone
  unopened := fun _ => ⟨rfl, rfl⟩
  fits := Nat.zero_le _
  accepted := rfl
  closed := fun _ _ => rfl

theorem Covers.accounted (hCovers : ledger.Covers start writer) : writer.Accounted := by
  cases hOpened : ledger.opened with
  | none => exact .inl (hCovers.unopened hOpened)
  | some opened => exact .inr ⟨_, _, _, hCovers.opened opened.1 opened.2 hOpened⟩

theorem Covers.isOpen_eq (hCovers : ledger.Covers start writer) :
    writer.isOpen = ledger.opened.isSome := by
  cases hOpened : ledger.opened with
  | none => exact (hCovers.unopened hOpened).1
  | some opened => exact (hCovers.opened opened.1 opened.2 hOpened).isOpen

theorem Covers.plain (hCovers : ledger.Covers start writer)
    (hPlain : ∀ name data, ledger.opened ≠ some (name, ⟨true, data⟩)) : writer.Plain := by
  cases hOpened : ledger.opened with
  | none => exact Writer.plain_of_closed (hCovers.unopened hOpened).1
  | some opened =>
      obtain ⟨name, compressed, data⟩ := opened
      cases compressed with
      | true => exact absurd hOpened (hPlain name data)
      | false => exact (hCovers.opened name _ hOpened).plain

/-- Closing writes the record of the open file down among the others. -/
theorem Covers.close (hCovers : ledger.Covers start writer) :
    ledger.close.Covers start writer.close := by
  have hMoves := writer.movesOnly_close
  have hClosed := hCovers.accounted.close
  cases hOpened : ledger.opened with
  | none =>
      have hSame : ledger.close = ledger := by rw [Ledger.close, hOpened]
      rw [hSame, Writer.close_of_closed (hCovers.unopened hOpened).1]
      exact hCovers
  | some opened =>
      obtain ⟨name, record⟩ := opened
      have hHolds := hCovers.opened name record hOpened
      rw [Ledger.close, hOpened]
      refine ⟨fun _ _ hNone => (nomatch hNone), fun _ => hClosed, ?_, ?_, ?_⟩
      · rw [hClosed.2]
        exact Nat.zero_le _
      · exact hMoves.accepted.trans hCovers.accepted
      · intro other _
        unfold Tells
        dsimp only
        by_cases hSame : other = name
        · subst hSame
          rw [if_pos rfl]
          exact hHolds.close.1
        · have hOther : writer.openName? ≠ some other := by
            obtain ⟨_, hDelivered, _⟩ := hHolds
            rw [hDelivered.openName?]
            exact fun hName => hSame (Option.some.inj hName).symm
          rw [if_neg hSame, Writer.spares_close writer other hOther]
          exact hCovers.closed other hOther

theorem Covers.openFile (hCovers : ledger.Covers start writer) (path : String)
    (compressed : Bool) :
    (ledger.afterCall (.openFile path compressed)).Covers start
      (writer.afterCall (.openFile path compressed)) := by
  have hClose := hCovers.close
  unfold Ledger.afterCall Writer.afterCall
  dsimp only
  cases hName : Directory.fileName? path with
  | none =>
      rw [Writer.openFile_of_none hName]
      exact hClose
  | some name =>
      obtain ⟨opened, hOpen, hHolds⟩ := hCovers.accounted.openFile hName compressed
      rw [hOpen]
      rw [Writer.openFile_of_fileName? hName] at hOpen
      cases hOpen
      refine ⟨?_, fun hNone => (nomatch hNone), hClose.fits, hClose.accepted, ?_⟩
      · rintro _ _ ⟨⟩
        exact hHolds
      · intro other hOther
        have hApart : name ≠ other := fun hSame => hOther (congrArg some hSame)
        change ledger.close.Tells start other (writer.close.directory.create name).files[other]?
        rw [Directory.getElem?_create_other _ hApart]
        refine hClose.closed other ?_
        rw [Writer.openName?_of_closed (hClose.unopened ledger.opened_close).1]
        exact fun hNone => nomatch hNone

theorem Covers.write (hCovers : ledger.Covers start writer) (data : List UInt8) :
    (ledger.afterCall (.write data)).Covers start (writer.afterCall (.write data)) := by
  unfold Ledger.afterCall Writer.afterCall
  dsimp only
  cases hOpened : ledger.opened with
  | none =>
      rw [Writer.write_of_closed (hCovers.unopened hOpened).1]
      exact hCovers
  | some opened =>
      obtain ⟨name, record⟩ := opened
      have hHolds := hCovers.opened name record hOpened
      obtain ⟨hCapacity, hAccepted, hFits⟩ := Writer.accept_fits hHolds.isOpen data
      have hGoesOn := Writer.goesOn_accept writer data
      rw [Writer.write_of_isOpen hHolds.isOpen]
      refine ⟨?_, fun hNone => (nomatch hNone), hCapacity ▸ hFits, ?_, ?_⟩
      · rintro _ _ ⟨⟩
        exact hHolds.accept data
      · exact hAccepted.trans (congrArg (· + data.length) hCovers.accepted)
      · intro other hOther
        change (writer.accept data).openName? ≠ some other at hOther
        rw [hGoesOn.name] at hOther
        change ledger.Tells start other (writer.accept data).directory.files[other]?
        rw [hGoesOn.spares other hOther]
        exact hCovers.closed other hOther

theorem Covers.flush (hCovers : ledger.Covers start writer) :
    ledger.Covers start writer.flush := by
  have hMoves := writer.movesOnly_flush
  have hGoesOn := Writer.goesOn_flush writer
  refine ⟨?_, ?_, ?_, hMoves.accepted.trans hCovers.accepted, ?_⟩
  · intro name record hOpened
    obtain ⟨hDelivered, hEmpty⟩ := (hCovers.opened name record hOpened).flush
    exact hDelivered.holds hEmpty
  · intro hNone
    rw [Writer.flush_of_closed (hCovers.unopened hNone).1]
    exact hCovers.unopened hNone
  · rw [hCovers.accounted.buffer_flush]
    exact Nat.zero_le _
  · intro other hOther
    rw [hGoesOn.name] at hOther
    rw [hGoesOn.spares other hOther]
    exact hCovers.closed other hOther

theorem Covers.afterCall (hCovers : ledger.Covers start writer) (call : Writer.Call) :
    (ledger.afterCall call).Covers start (writer.afterCall call) := by
  cases call with
  | openFile path compressed => exact hCovers.openFile path compressed
  | write data => exact hCovers.write data
  | flush => exact hCovers.flush
  | close => exact hCovers.close

theorem Covers.afterCalls (hCovers : ledger.Covers start writer) (calls : List Writer.Call) :
    (ledger.afterCalls calls).Covers start (writer.afterCalls calls) := by
  induction calls generalizing ledger writer with
  | nil => exact hCovers
  | cons call calls ih => exact ih (hCovers.afterCall call)

/-- Once a writer is closed its ledger tells of every file. -/
theorem Covers.tells_close (hCovers : ledger.Covers start writer) (name : String) :
    ledger.close.Tells start name writer.close.directory.files[name]? := by
  refine hCovers.close.closed name ?_
  rw [Writer.openName?_of_closed (hCovers.close.unopened ledger.opened_close).1]
  exact fun hNone => nomatch hNone

/-- A ledger tells all of a file that is not compressed. -/
theorem Tells.eq_of_plain {name : String} {file other : Option (Array UInt8)}
    (hFile : ledger.Tells start name file) (hOther : ledger.Tells start name other)
    (hPlain : ∀ data, ledger.closed name ≠ some ⟨true, data⟩) : file = other := by
  unfold Tells at hFile hOther
  cases hRecord : ledger.closed name with
  | none =>
      rw [hRecord] at hFile hOther
      exact hFile.trans hOther.symm
  | some record =>
      rw [hRecord] at hFile hOther
      obtain ⟨compressed, data⟩ := record
      cases compressed with
      | true => exact absurd hRecord (hPlain data)
      | false =>
          obtain ⟨content, rfl, hContent⟩ := hFile
          obtain ⟨twin, rfl, hTwin⟩ := hOther
          rw [Writer.fileReads_plain] at hContent hTwin
          rw [Array.toList_inj.mp (hContent.trans hTwin.symm)]

/-- A compressed file expands to what a ledger tells of it. -/
theorem Tells.expands {name : String} {file : Option (Array UInt8)} {data : List UInt8}
    (hFile : ledger.Tells start name file) (hCompressed : ledger.closed name = some ⟨true, data⟩) :
    ∃ content, file = some content ∧ Lz4.isFrame content.toList = true ∧
      Lz4.Coder.expand content.toList = .ok data := by
  unfold Tells at hFile
  rw [hCompressed] at hFile
  exact hFile

end Ledger

namespace Writer

section Codec

variable [Lz4.Codec]

/-- A writer keeps to its ledger, whatever the capacity of its buffer and whatever
it is asked for. A plain file and the buffer hold what was accepted; a compressed
file expands to it once it is closed, however often it was flushed before. Two
writers leave the same plain files, and compressed files that expand to the same. -/
theorem afterCalls_ledger (capacity other : Nat) (start : Directory) (calls : List Call) :
    let writer := ({ capacity, directory := start } : Writer).afterCalls calls
    let twin := ({ capacity := other, directory := start } : Writer).afterCalls calls
    let ledger := ({} : Ledger).afterCalls calls
    writer.buffer.size ≤ capacity ∧
    writer.accepted = ledger.accepted ∧
    writer.isOpen = ledger.opened.isSome ∧
    (writer.isOpen = false → writer.buffer = #[]) ∧
    (∀ data, Writer.write data writer
      = if writer.isOpen then .ok () (writer.accept data) else .error .sinkClosed writer) ∧
    (∀ name data, ledger.opened = some (name, ⟨false, data⟩) →
      (∃ content, writer.directory.files[name]? = some content ∧
        content.toList ++ writer.buffer.toList = data) ∧
      writer.flush.directory.files[name]? = some data.toArray) ∧
    ((∀ name data, ledger.opened ≠ some (name, ⟨true, data⟩)) →
      writer.flush.flush = writer.flush) ∧
    writer.close.close = writer.close ∧
    (∀ name, ledger.close.Tells start name writer.close.directory.files[name]?) ∧
    (∀ name, ledger.close.Tells start name writer.flush.flush.close.directory.files[name]?) ∧
    (∀ name, (∀ data, ledger.close.closed name ≠ some ⟨true, data⟩) →
      writer.close.directory.files[name]? = twin.close.directory.files[name]?) ∧
    ∀ name data, ledger.close.closed name = some ⟨true, data⟩ →
      ∃ content twinContent, writer.close.directory.files[name]? = some content ∧
        twin.close.directory.files[name]? = some twinContent ∧
        Lz4.Coder.expand content.toList = .ok data ∧
        Lz4.Coder.expand twinContent.toList = .ok data := by
  intro writer twin ledger
  have hCovers : ledger.Covers start writer := (Ledger.covers_start capacity start).afterCalls calls
  have hTwin : ledger.Covers start twin := (Ledger.covers_start other start).afterCalls calls
  have hClosed := hCovers.close.unopened ledger.opened_close
  refine ⟨?_, hCovers.accepted, hCovers.isOpen_eq, fun hNone => ?_, fun data => ?_,
    fun name data hOpened => ?_, fun hPlain => ?_, close_of_closed hClosed.1,
    hCovers.tells_close, hCovers.flush.flush.tells_close, fun name hPlain => ?_,
    fun name data hCompressed => ?_⟩
  · have hFits := hCovers.fits
    rw [capacity_afterCalls] at hFits
    exact hFits
  · rw [hCovers.isOpen_eq, Option.isSome_eq_false_iff, Option.isNone_iff_eq_none] at hNone
    exact (hCovers.unopened hNone).2
  · cases hOpen : writer.isOpen with
    | false => exact write_of_closed hOpen data
    | true => exact write_of_isOpen hOpen data
  · have hHolds : writer.Holds name false data := hCovers.opened name _ hOpened
    constructor
    · obtain ⟨delivered, hDelivered, rfl⟩ := hHolds
      obtain ⟨content, hFile, rfl⟩ := hDelivered.content
      exact ⟨content, hFile, rfl⟩
    · obtain ⟨content, hFile, hContent⟩ := hHolds.flush.1.content
      rw [hFile, ← hContent]
  · exact (hCovers.plain hPlain).flush_flush hCovers.accounted
  · exact (hCovers.tells_close name).eq_of_plain (hTwin.tells_close name) hPlain
  · obtain ⟨content, hContent, _, hExpand⟩ := (hCovers.tells_close name).expands hCompressed
    obtain ⟨twinContent, hTwinContent, _, hTwinExpand⟩ :=
      (hTwin.tells_close name).expands hCompressed
    exact ⟨content, twinContent, hContent, hTwinContent, hExpand, hTwinExpand⟩

end Codec

/-- Data that arrives in two parts, with a flush in between, is the same data
whether it goes through a buffer or not. -/
theorem afterCalls_ledger_compressed :
    let calls : List Call :=
      [.openFile "run.ptr" true, .write [1, 2, 3], .flush, .write [4], .close]
    let writer := ({ capacity := 2 } : Writer).afterCalls calls
    let twin := ({ capacity := 0 } : Writer).afterCalls calls
    ∃ content twinContent, writer.close.directory.files["run.ptr"]? = some content ∧
      twin.close.directory.files["run.ptr"]? = some twinContent ∧
      Lz4.Coder.expand content.toList = .ok [1, 2, 3, 4] ∧
      Lz4.Coder.expand twinContent.toList = .ok [1, 2, 3, 4] := by
  intro calls writer twin
  obtain ⟨_, _, _, _, _, _, _, _, _, _, _, hExpands⟩ := afterCalls_ledger 2 0 {} calls
  exact hExpands "run.ptr" [1, 2, 3, 4] rfl

end Writer
end Output
end CycleTrace
