/-
An output leaves other files alone.

Whatever is written goes to the file that is open. So while an encoder goes on
with its file, while it closes it and while it begins another one, the files of
other names keep their bytes. A file that is not open is what it was when it
was closed.
-/

import CycleTrace.Proofs.Output.Encoder

namespace CycleTrace
namespace Output

namespace Directory

theorem getElem?_append_other (directory : Directory) {name other : String}
    (hOther : name ≠ other) (bytes : List UInt8) :
    (directory.append name bytes).files[other]? = directory.files[other]? := by
  unfold append
  dsimp only
  rw [Std.TreeMap.getElem?_modify, if_neg (fun hSame => hOther (Std.compare_eq_iff_eq.mp hSame))]

theorem getElem?_create_other (directory : Directory) {name other : String}
    (hOther : name ≠ other) : (directory.create name).files[other]? = directory.files[other]? := by
  unfold create
  dsimp only
  rw [Std.TreeMap.getElem?_insert, if_neg (fun hSame => hOther (Std.compare_eq_iff_eq.mp hSame))]

end Directory

variable [Lz4.Codec]

namespace Writer

/-- The name of the open file. -/
def openName? (writer : Writer) : Option String :=
  writer.sink.map (·.name)

/-- The files that are not open keep their bytes. -/
def Spares (before after : Writer) : Prop :=
  ∀ name, before.openName? ≠ some name →
    after.directory.files[name]? = before.directory.files[name]?

/-- A writer goes on with its file and leaves the others alone. -/
structure GoesOn (before after : Writer) : Prop where
  name : after.openName? = before.openName?
  spares : before.Spares after

section GoesOn

variable {writer middle after : Writer}

theorem GoesOn.refl (writer : Writer) : writer.GoesOn writer :=
  ⟨rfl, fun _ _ => rfl⟩

theorem GoesOn.trans (hFirst : writer.GoesOn middle) (hSecond : middle.GoesOn after) :
    writer.GoesOn after := by
  refine ⟨hSecond.name.trans hFirst.name, ?_⟩
  intro name hOther
  rw [hSecond.spares name (hFirst.name.symm ▸ hOther), hFirst.spares name hOther]

theorem goesOn_append {sink next : Sink} (hSink : writer.sink = some sink)
    (hNext : after.sink = some next) (hName : next.name = sink.name) {bytes : List UInt8}
    (hDirectory : after.directory = writer.directory.append sink.name bytes) :
    writer.GoesOn after := by
  constructor
  · unfold openName?
    rw [hNext, hSink, Option.map_some, Option.map_some, hName]
  · intro name hOther
    rw [hDirectory]
    apply Directory.getElem?_append_other
    rintro rfl
    rw [openName?, hSink] at hOther
    exact hOther rfl

theorem goesOn_deliver {sink : Sink} (hSink : writer.sink = some sink) (bytes : List UInt8) :
    writer.GoesOn (writer.deliver sink bytes) := by
  unfold deliver
  split
  · exact goesOn_append hSink hSink rfl rfl
  · exact goesOn_append hSink rfl rfl rfl

theorem goesOn_spill (writer : Writer) : writer.GoesOn writer.spill := by
  unfold spill
  split
  · exact .refl writer
  · next sink hSink =>
      split
      · exact .refl writer
      · have hDelivered := goesOn_deliver hSink writer.buffer.toList
        exact ⟨hDelivered.name, hDelivered.spares⟩

theorem goesOn_accept (writer : Writer) (data : List UInt8) :
    writer.GoesOn (writer.accept data) := by
  have hSpilled := goesOn_spill { writer with accepted := writer.accepted + data.length }
  unfold accept
  dsimp only
  split
  · exact ⟨rfl, fun _ _ => rfl⟩
  · split
    · exact ⟨hSpilled.name, hSpilled.spares⟩
    · split
      · exact ⟨hSpilled.name, hSpilled.spares⟩
      · next sink hSink =>
          have hBoth := hSpilled.trans (goesOn_deliver hSink data)
          exact ⟨hBoth.name, hBoth.spares⟩

theorem goesOn_foldl_accept (writer : Writer) (writes : List (List UInt8)) :
    writer.GoesOn (writes.foldl accept writer) := by
  induction writes generalizing writer with
  | nil => exact .refl writer
  | cons first rest ih => exact (goesOn_accept writer first).trans (ih _)

theorem goesOn_flush (writer : Writer) : writer.GoesOn writer.flush := by
  have hSpilled := goesOn_spill writer
  unfold flush
  dsimp only
  split
  · next path name frame hSink =>
      exact hSpilled.trans (goesOn_append hSink rfl rfl rfl)
  · exact hSpilled

theorem spares_close (writer : Writer) : writer.Spares writer.close := by
  have hFlushed := goesOn_flush writer
  intro other hOther
  unfold close
  dsimp only
  split
  · exact hFlushed.spares other hOther
  · next path name frame hSink =>
      dsimp only
      rw [Directory.getElem?_append_other, hFlushed.spares other hOther]
      rintro rfl
      rw [← hFlushed.name, openName?, hSink] at hOther
      exact hOther rfl

theorem openName?_of_closed (hClosed : writer.isOpen = false) : writer.openName? = none := by
  unfold openName?
  rw [sink_of_closed hClosed]
  rfl

theorem Delivered.openName? {name : String} {compressed : Bool} {data : List UInt8}
    (hDelivered : writer.Delivered name compressed data) : writer.openName? = some name := by
  obtain ⟨sink, _, hSink, rfl, _⟩ := hDelivered
  unfold Writer.openName?
  rw [hSink]
  rfl

end GoesOn
end Writer

/-! ### Encoders -/

namespace Encoder

variable {encoder after : Encoder} {name : String}

/-- The name of the open file. -/
def openName? (encoder : Encoder) : Option String :=
  encoder.writer.openName?

theorem Carries.openName? {text compressed : Bool} {commands : List Command}
    (hCarries : encoder.Carries text name compressed commands) :
    encoder.openName? = some name := by
  cases hCarries with
  | text hHolds =>
      obtain ⟨_, hDelivered, _⟩ := hHolds
      exact hDelivered.openName?
  | binary hStream hSized hHolds =>
      obtain ⟨_, hDelivered, _⟩ := hHolds
      exact hDelivered.openName?

theorem openName?_of_closed (hClosed : encoder.isOpen = false) : encoder.openName? = none :=
  Writer.openName?_of_closed hClosed

theorem openName?_ne_of_closed (hClosed : encoder.isOpen = false) (name : String) :
    encoder.openName? ≠ some name := by
  rw [openName?_of_closed hClosed]
  exact (Option.some_ne_none name).symm

theorem isOpen_of_openName? (hName : encoder.openName? = some name) : encoder.isOpen = true := by
  cases hOpen : encoder.isOpen with
  | true => rfl
  | false => exact absurd hName (openName?_ne_of_closed hOpen name)

theorem goesOn_encode (hOpen : encoder.isOpen = true) {command : Command}
    (hEncode : Encoder.encode command encoder = .ok () after) :
    encoder.writer.GoesOn after.writer := by
  cases encoder with
  | text writer =>
      have hWriter : writer.isOpen = true := hOpen
      unfold Encoder.encode at hEncode
      dsimp only at hEncode
      split at hEncode
      · cases hEncode
        exact .refl writer
      · rw [Writer.write_of_isOpen hWriter] at hEncode
        cases hEncode
        exact Writer.goesOn_accept writer _
  | binary encoder =>
      obtain ⟨stream, writer⟩ := encoder
      have hWriter : writer.isOpen = true := hOpen
      unfold Encoder.encode at hEncode
      dsimp only at hEncode
      rw [BinaryEncoder.encode_of_isOpen hWriter] at hEncode
      cases hEncode
      exact Writer.goesOn_foldl_accept writer _

theorem goesOn_encodeAll (hOpen : encoder.isOpen = true) {commands : List Command}
    (hEncode : Encoder.encodeAll commands encoder = .ok () after) :
    encoder.writer.GoesOn after.writer := by
  induction commands generalizing encoder with
  | nil =>
      cases hEncode
      exact .refl _
  | cons command commands ih =>
      obtain ⟨middle, hFirst, hMiddle⟩ := encode_of_isOpen hOpen command
      have hRest : Encoder.encodeAll commands middle = .ok () after :=
        (bind_of_ok hFirst).symm.trans hEncode
      exact (goesOn_encode hOpen hFirst).trans (ih hMiddle hRest)

theorem goesOn_flush (encoder : Encoder) : encoder.writer.GoesOn encoder.flush.writer := by
  cases encoder with
  | text writer => exact Writer.goesOn_flush writer
  | binary encoder => exact Writer.goesOn_flush encoder.writer

theorem spares_close (encoder : Encoder) : encoder.writer.Spares encoder.close.writer := by
  cases encoder with
  | text writer => exact Writer.spares_close writer
  | binary encoder => exact Writer.spares_close encoder.writer

theorem directory_ofForm (text : Bool) (bufferBytes : Nat) (directory : Directory) :
    (ofForm text bufferBytes directory).writer.directory = directory := by
  cases text with
  | false => rfl
  | true => rfl

/-- A file that is begun takes the place of no other. -/
theorem spares_beginFile (hClosed : encoder.isOpen = false) {path : String} {compressed : Bool}
    (hName : Directory.fileName? path = some name)
    (hBegin : Encoder.beginFile path compressed encoder = .ok () after) {other : String}
    (hOther : name ≠ other) :
    after.writer.directory.files[other]? = encoder.writer.directory.files[other]? := by
  have hOpened : ∃ opened, openStream path compressed encoder = .ok () opened ∧
      opened.isOpen = true ∧ opened.openName? = some name ∧
      opened.writer.directory = encoder.writer.directory.create name := by
    cases encoder with
    | text writer =>
        have hSame : writer.close = writer := Writer.close_of_closed hClosed
        rw [openStream_text, Writer.openFile_of_fileName? hName, hSame]
        exact ⟨_, rfl, rfl, rfl, rfl⟩
    | binary encoder =>
        have hSame : encoder.writer.close = encoder.writer := Writer.close_of_closed hClosed
        rw [openStream_binary, Writer.openFile_of_fileName? hName, hSame]
        exact ⟨_, rfl, rfl, rfl, rfl⟩
  obtain ⟨opened, hOpen, hIsOpen, hOpenName, hDirectory⟩ := hOpened
  have hEncode : Encoder.encode openingVersion opened = .ok () after :=
    (bind_of_ok hOpen).symm.trans hBegin
  rw [(goesOn_encode hIsOpen hEncode).spares other, hDirectory,
    Directory.getElem?_create_other _ hOther]
  change opened.openName? ≠ some other
  rw [hOpenName]
  exact fun hSame => hOther (Option.some.inj hSame)

end Encoder
end Output
end CycleTrace
