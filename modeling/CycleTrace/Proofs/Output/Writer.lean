/-
What a writer holds is what was written.

An open file has two parts: what has reached the directory, as it is or inside
a frame, and what waits in the buffer. `Writer.Holds` says that together they
are some data. A write adds to the end of the data, moving bytes from the
buffer to the file changes nothing, and closing leaves a file that reads as the
data. So neither the capacity of the buffer nor the moments of flushing can be
told from the data.
-/

import CycleTrace.Output.Writer
import CycleTrace.Proofs.Lz4.Codec

namespace CycleTrace
namespace Output

/-! ### Files of a directory -/

namespace Directory

theorem getElem?_files_create (directory : Directory) (name : String) :
    (directory.create name).files[name]? = some #[] := by
  unfold create
  rw [Std.TreeMap.getElem?_insert_self]

theorem getElem?_files_append {directory : Directory} {name : String} {content : Array UInt8}
    (hFile : directory.files[name]? = some content) (bytes : List UInt8) :
    (directory.append name bytes).files[name]? = some (content ++ bytes) := by
  unfold append
  rw [Std.TreeMap.getElem?_modify_self, hFile, Option.map_some]

theorem find?_of_fileName? {directory : Directory} {path name : String}
    (hName : fileName? path = some name) : directory.find? path = directory.files[name]? := by
  unfold find?
  rw [hName]
  rfl

end Directory

/-! ### The file of a writer -/

variable [Lz4.Codec]

/-- What has to be in a file for it to carry data: the data as it is, or a
frame in progress. -/
def Sink.Carries (sink : Sink) (content data : List UInt8) : Prop :=
  match sink.frame with
  | none => content = data
  | some frame => Lz4.Coder.Carries frame content data

namespace Writer

/-- The open file of a writer carries some data. -/
def Delivered (writer : Writer) (name : String) (compressed : Bool) (data : List UInt8) : Prop :=
  ∃ sink content, writer.sink = some sink ∧ sink.name = name ∧
    sink.frame.isSome = compressed ∧ writer.directory.files[name]? = some content ∧
    sink.Carries content.toList data

/-- The open file and the buffer of a writer together hold some data. -/
def Holds (writer : Writer) (name : String) (compressed : Bool) (data : List UInt8) : Prop :=
  ∃ delivered, writer.Delivered name compressed delivered ∧
    delivered ++ writer.buffer.toList = data

/-- Nothing is lost track of: a file is open and holds some data, or no file is
open and nothing waits. -/
def Accounted (writer : Writer) : Prop :=
  (writer.isOpen = false ∧ writer.buffer = #[]) ∨
    ∃ name compressed data, writer.Holds name compressed data

theorem Delivered.isOpen {writer : Writer} {name : String} {compressed : Bool}
    {data : List UInt8} (hDelivered : writer.Delivered name compressed data) :
    writer.isOpen = true := by
  obtain ⟨sink, content, hSink, _⟩ := hDelivered
  unfold Writer.isOpen
  rw [hSink]
  rfl

theorem Holds.isOpen {writer : Writer} {name : String} {compressed : Bool} {data : List UInt8}
    (hHolds : writer.Holds name compressed data) : writer.isOpen = true := by
  obtain ⟨delivered, hDelivered, _⟩ := hHolds
  exact hDelivered.isOpen

/-- Only the file and the directory matter for what was delivered. -/
theorem Delivered.congr {writer other : Writer} {name : String} {compressed : Bool}
    {data : List UInt8} (hDelivered : writer.Delivered name compressed data)
    (hSink : other.sink = writer.sink) (hDirectory : other.directory = writer.directory) :
    other.Delivered name compressed data := by
  unfold Delivered
  rw [hSink, hDirectory]
  exact hDelivered

/-- What was delivered to a plain file is the file. -/
theorem Delivered.content {writer : Writer} {name : String} {data : List UInt8}
    (hDelivered : writer.Delivered name false data) :
    ∃ content, writer.directory.files[name]? = some content ∧ content.toList = data := by
  obtain ⟨sink, content, _, _, hPlain, hFile, hCarries⟩ := hDelivered
  cases hFrame : sink.frame with
  | some frame =>
      rw [hFrame] at hPlain
      cases hPlain
  | none =>
      rw [Sink.Carries, hFrame] at hCarries
      exact ⟨content, hFile, hCarries⟩

theorem Delivered.deliver {writer : Writer} {sink : Sink} {name : String} {compressed : Bool}
    {data : List UInt8} (hDelivered : writer.Delivered name compressed data)
    (hSink : writer.sink = some sink) (bytes : List UInt8) :
    (writer.deliver sink bytes).Delivered name compressed (data ++ bytes) := by
  obtain ⟨opened, content, hOpened, rfl, rfl, hFile, hCarries⟩ := hDelivered
  rw [hSink, Option.some.injEq] at hOpened
  subst hOpened
  unfold Sink.Carries at hCarries
  unfold Writer.deliver
  cases hFrame : sink.frame with
  | none =>
      rw [hFrame] at hCarries
      refine ⟨sink, content ++ bytes, hSink, rfl, by rw [hFrame],
        Directory.getElem?_files_append hFile bytes, ?_⟩
      unfold Sink.Carries
      rw [hFrame, Array.toList_appendList]
      exact congrArg (· ++ bytes) hCarries
  | some frame =>
      rw [hFrame] at hCarries
      refine ⟨{ sink with frame := some (Lz4.Coder.write frame bytes).2 },
        content ++ (Lz4.Coder.write frame bytes).1, rfl, rfl, rfl,
        Directory.getElem?_files_append hFile _, ?_⟩
      unfold Sink.Carries
      rw [Array.toList_appendList]
      exact hCarries.write bytes

theorem buffer_deliver (writer : Writer) (sink : Sink) (bytes : List UInt8) :
    (writer.deliver sink bytes).buffer = writer.buffer := by
  unfold deliver
  split <;> rfl

/-- Handing on the buffer leaves it empty and moves its bytes to the file. -/
theorem Holds.spill {writer : Writer} {name : String} {compressed : Bool} {data : List UInt8}
    (hHolds : writer.Holds name compressed data) :
    writer.spill.Delivered name compressed data ∧ writer.spill.buffer = #[] := by
  obtain ⟨delivered, hDelivered, rfl⟩ := hHolds
  obtain ⟨sink, _, hSink, _⟩ := id hDelivered
  unfold Writer.spill
  rw [hSink]
  dsimp only
  by_cases hEmpty : writer.buffer.isEmpty
  · have hBuffer : writer.buffer = #[] := by simpa using hEmpty
    rw [if_pos hEmpty, hBuffer, List.append_nil]
    exact ⟨hDelivered, rfl⟩
  · rw [if_neg hEmpty]
    exact ⟨(hDelivered.deliver hSink writer.buffer.toList).congr rfl rfl, rfl⟩

/-- Accepted data waits behind the buffer, or waits alone once the buffer was
handed on, or goes to the file behind the buffer. It is never divided. -/
theorem Delivered.accept_cases {writer : Writer} {name : String} {compressed : Bool}
    {data : List UInt8} (hDelivered : writer.Delivered name compressed data)
    (more : List UInt8) :
    ((writer.accept more).Delivered name compressed data ∧
      (writer.accept more).buffer.toList = writer.buffer.toList ++ more) ∨
    ((writer.accept more).Delivered name compressed (data ++ writer.buffer.toList) ∧
      (writer.accept more).buffer.toList = more) ∨
    ((writer.accept more).Delivered name compressed (data ++ writer.buffer.toList ++ more) ∧
      (writer.accept more).buffer.toList = []) := by
  have hCounted : ({ writer with accepted := writer.accepted + more.length } : Writer).Holds
      name compressed (data ++ writer.buffer.toList) := ⟨data, hDelivered.congr rfl rfl, rfl⟩
  obtain ⟨hSpilled, hEmpty⟩ := hCounted.spill
  obtain ⟨sink, _, hSink, _⟩ := id hSpilled
  unfold Writer.accept
  dsimp only
  split
  · exact .inl ⟨hDelivered.congr rfl rfl, Array.toList_appendList⟩
  · split
    · refine .inr (.inl ⟨hSpilled.congr rfl rfl, ?_⟩)
      rw [hEmpty, Array.toList_appendList]
      rfl
    · rw [hSink]
      refine .inr (.inr ⟨hSpilled.deliver hSink more, ?_⟩)
      rw [buffer_deliver, hEmpty]

theorem Holds.accept {writer : Writer} {name : String} {compressed : Bool} {data : List UInt8}
    (hHolds : writer.Holds name compressed data) (more : List UInt8) :
    (writer.accept more).Holds name compressed (data ++ more) := by
  obtain ⟨delivered, hDelivered, rfl⟩ := hHolds
  rcases hDelivered.accept_cases more with ⟨hNext, hBuffer⟩ | ⟨hNext, hBuffer⟩ |
    ⟨hNext, hBuffer⟩
  · exact ⟨_, hNext, by rw [hBuffer, List.append_assoc]⟩
  · exact ⟨_, hNext, by rw [hBuffer]⟩
  · exact ⟨_, hNext, by rw [hBuffer, List.append_nil]⟩

theorem isOpen_spill (writer : Writer) : writer.spill.isOpen = writer.isOpen := by
  unfold spill isOpen
  cases hSink : writer.sink with
  | none => simp only [hSink]
  | some sink =>
      dsimp only
      split
      · rw [hSink]
      · unfold deliver
        split
        · simp only [hSink]
        · rfl

theorem isOpen_accept {writer : Writer} (hOpen : writer.isOpen = true) (data : List UInt8) :
    (writer.accept data).isOpen = true := by
  have hSpilled := isOpen_spill { writer with accepted := writer.accepted + data.length }
  unfold accept
  dsimp only
  split
  · exact hOpen
  · split
    · exact hSpilled.trans hOpen
    · split
      · exact hSpilled.trans hOpen
      · rename_i sink hSink
        unfold deliver isOpen
        split
        · simp only [hSink]
          rfl
        · rfl

theorem write_of_isOpen {writer : Writer} (hOpen : writer.isOpen = true) (data : List UInt8) :
    write data writer = .ok () (writer.accept data) := by
  change (if (!writer.isOpen) = true then _ else _ : Writing Unit) writer = _
  rw [hOpen]
  rfl

theorem write_of_closed {writer : Writer} (hClosed : writer.isOpen = false)
    (data : List UInt8) : write data writer = .error .sinkClosed writer := by
  change (if (!writer.isOpen) = true then _ else _ : Writing Unit) writer = _
  rw [hClosed]
  rfl

/-- Writes in order add up. -/
theorem Holds.foldl_accept {writer : Writer} {name : String} {compressed : Bool}
    {data : List UInt8} (hHolds : writer.Holds name compressed data)
    (writes : List (List UInt8)) :
    (writes.foldl Writer.accept writer).Holds name compressed (data ++ writes.flatten) := by
  induction writes generalizing writer data with
  | nil =>
      rw [List.flatten_nil, List.append_nil]
      exact hHolds
  | cons first rest ih =>
      rw [List.flatten_cons, ← List.append_assoc]
      exact ih (hHolds.accept first)

/-! ### Flushing and closing -/

theorem Holds.flush {writer : Writer} {name : String} {compressed : Bool} {data : List UInt8}
    (hHolds : writer.Holds name compressed data) :
    writer.flush.Delivered name compressed data ∧ writer.flush.buffer = #[] := by
  obtain ⟨hSpilled, hEmpty⟩ := hHolds.spill
  obtain ⟨⟨path, name, frame⟩, content, hSink, rfl, rfl, hFile, hCarries⟩ := id hSpilled
  unfold Writer.flush
  dsimp only
  rw [hSink]
  cases frame with
  | none => exact ⟨hSpilled, hEmpty⟩
  | some frame =>
      refine ⟨⟨⟨path, name, some (Lz4.Coder.flush frame).2⟩,
        content ++ (Lz4.Coder.flush frame).1, rfl, rfl, rfl,
        Directory.getElem?_files_append hFile _, ?_⟩, hEmpty⟩
      unfold Sink.Carries at hCarries ⊢
      rw [Array.toList_appendList]
      exact hCarries.flush

theorem Delivered.holds {writer : Writer} {name : String} {compressed : Bool}
    {data : List UInt8} (hDelivered : writer.Delivered name compressed data)
    (hEmpty : writer.buffer = #[]) : writer.Holds name compressed data :=
  ⟨data, hDelivered, by rw [hEmpty, List.append_nil]⟩

/-- What a closed file holds: the data, or a frame that expands to the data. -/
def FileReads (content : List UInt8) (compressed : Bool) (data : List UInt8) : Prop :=
  if compressed then Lz4.isFrame content = true ∧ Lz4.Coder.expand content = .ok data
  else content = data

theorem fileReads_plain {content data : List UInt8} :
    FileReads content false data ↔ content = data := by
  unfold FileReads
  rw [if_neg Bool.false_ne_true]

theorem Holds.close {writer : Writer} {name : String} {compressed : Bool} {data : List UInt8}
    (hHolds : writer.Holds name compressed data) :
    (∃ content, writer.close.directory.files[name]? = some content ∧
      FileReads content.toList compressed data) ∧ writer.close.isOpen = false ∧
      writer.close.buffer = #[] := by
  obtain ⟨hFlushed, hEmpty⟩ := hHolds.flush
  obtain ⟨⟨path, name, frame⟩, content, hSink, rfl, rfl, hFile, hCarries⟩ := hFlushed
  unfold Sink.Carries at hCarries
  unfold Writer.close
  dsimp only
  rw [hSink]
  refine ⟨?_, rfl, hEmpty⟩
  cases frame with
  | none =>
      refine ⟨content ++ [], Directory.getElem?_files_append hFile [], ?_⟩
      rw [Array.appendList_nil]
      exact hCarries
  | some frame =>
      refine ⟨content ++ Lz4.Coder.finish frame, Directory.getElem?_files_append hFile _, ?_⟩
      rw [Array.toList_appendList]
      exact ⟨hCarries.isFrame_finish, hCarries.expand_finish⟩

/-! ### Opening -/

theorem sink_of_closed {writer : Writer} (hClosed : writer.isOpen = false) :
    writer.sink = none := by
  cases hSink : writer.sink with
  | none => rfl
  | some sink =>
      rw [isOpen, hSink] at hClosed
      cases hClosed

theorem flush_of_closed {writer : Writer} (hClosed : writer.isOpen = false) :
    writer.flush = writer := by
  have hSink := sink_of_closed hClosed
  have hSpill : writer.spill = writer := by rw [spill, hSink]
  unfold flush
  dsimp only
  rw [hSpill, hSink]

theorem isOpen_flush (writer : Writer) : writer.flush.isOpen = writer.isOpen := by
  rw [← isOpen_spill writer]
  unfold flush
  dsimp only
  split
  · rename_i hSink
    unfold isOpen
    rw [hSink]
    rfl
  · rfl

/-- Closing a writer twice is closing it once. -/
theorem close_of_closed {writer : Writer} (hClosed : writer.isOpen = false) :
    writer.close = writer := by
  unfold close
  dsimp only
  rw [flush_of_closed hClosed, sink_of_closed hClosed]

theorem Accounted.close {writer : Writer} (hAccounted : writer.Accounted) :
    writer.close.isOpen = false ∧ writer.close.buffer = #[] := by
  rcases hAccounted with hClosed | ⟨name, compressed, data, hHolds⟩
  · rw [close_of_closed hClosed.1]
    exact hClosed
  · exact hHolds.close.2

theorem Accounted.flush {writer : Writer} (hAccounted : writer.Accounted) :
    writer.flush.Accounted := by
  rcases hAccounted with hClosed | ⟨name, compressed, data, hHolds⟩
  · rw [flush_of_closed hClosed.1]
    exact .inl hClosed
  · exact .inr ⟨name, compressed, data, hHolds.flush.1.holds hHolds.flush.2⟩

theorem Accounted.foldl_accept {writer : Writer} (hAccounted : writer.Accounted)
    (hOpen : writer.isOpen = true) (writes : List (List UInt8)) :
    (writes.foldl Writer.accept writer).Accounted := by
  rcases hAccounted with hClosed | ⟨name, compressed, data, hHolds⟩
  · rw [hClosed.1] at hOpen
    cases hOpen
  · exact .inr ⟨name, compressed, _, hHolds.foldl_accept writes⟩

theorem Accounted.write {writer written : Writer} (hAccounted : writer.Accounted)
    {data : List UInt8} (hWrite : Writer.write data writer = .ok () written) :
    written.Accounted := by
  cases hOpen : writer.isOpen with
  | false =>
      rw [write_of_closed hOpen] at hWrite
      cases hWrite
  | true =>
      rw [write_of_isOpen hOpen] at hWrite
      cases hWrite
      exact hAccounted.foldl_accept hOpen [data]

theorem Accounted.write_refused {writer after : Writer} (hAccounted : writer.Accounted)
    {data : List UInt8} {fault : Fault}
    (hWrite : Writer.write data writer = .error fault after) : after.Accounted := by
  cases hOpen : writer.isOpen with
  | false =>
      rw [write_of_closed hOpen] at hWrite
      cases hWrite
      exact hAccounted
  | true =>
      rw [write_of_isOpen hOpen] at hWrite
      cases hWrite

theorem openFile_of_fileName? {path name : String} (hName : Directory.fileName? path = some name)
    (compressed : Bool) (writer : Writer) :
    openFile path compressed writer = .ok () { writer.close with
      directory := writer.close.directory.create name
      sink := some ⟨path, name, if compressed then some Lz4.Coder.start else none⟩ } := by
  simp only [openFile, hName]
  rfl

theorem openFile_of_none {path : String} (hNone : Directory.fileName? path = none)
    (compressed : Bool) (writer : Writer) :
    openFile path compressed writer
      = .error (.inputOutput "the file cannot be created") writer.close := by
  simp only [openFile, hNone]
  rfl

/-- A file is opened for a path that names one, and starts empty. -/
theorem Accounted.openFile {writer : Writer} (hAccounted : writer.Accounted) {path name : String}
    (hName : Directory.fileName? path = some name) (compressed : Bool) :
    ∃ opened, Writer.openFile path compressed writer = .ok () opened ∧
      opened.Holds name compressed [] := by
  refine ⟨_, openFile_of_fileName? hName compressed writer, [],
    ⟨_, #[], rfl, rfl, ?_, Directory.getElem?_files_create _ name, ?_⟩, ?_⟩
  · cases compressed <;> rfl
  · cases compressed with
    | false => rfl
    | true => exact Lz4.Coder.carries_start
  · dsimp only
    rw [hAccounted.close.2]
    rfl

end Writer
end Output
end CycleTrace
