/-
The lines of a text file.

A command is written on one line, so the lines of a text are the lines of its
commands, and the first word of a line tells the command. The text form keeps
clocked cycles that repeat the one before, and they can be found again in its
lines, for the line of a clocked cycle determines it.
-/

import CycleTrace.Inspection.CommandLine
import CycleTrace.Proofs.Command.Line
import CycleTrace.Proofs.Output.RoundTrip

namespace CycleTrace

/-! ### First words -/

/-- The text before the first blank. -/
def firstWord (line : String) : String :=
  String.ofList (line.toList.takeWhile (· ≠ ' '))

/-- A line tells its command by its first word. -/
theorem firstWord_render (command : Command) : firstWord command.render = command.name := by
  obtain ⟨fields, hLine⟩ := command.toList_renderWith Text.isVisible
  have hName : ' ' ∉ command.name.toList := command.isWord_name.not_mem (by decide)
  unfold firstWord Command.render
  rw [hLine, takeWhile_before hName, String.ofList_toList]

/-! ### Clocked cycles -/

/-- Leaves out every line of a clocked cycle that equals the line of the clocked
cycle before it. -/
def dropRepeatedLines (last : Option String) : List String → List String
  | [] => []
  | line :: lines =>
      if firstWord line = "cyclewithclock" then
        if last = some line then dropRepeatedLines last lines
        else line :: dropRepeatedLines (some line) lines
      else line :: dropRepeatedLines last lines

theorem dropRepeatedLines_render (last : Option ClockedCycle) (commands : List Command) :
    dropRepeatedLines (last.map fun cycle => (Command.clockedCycle cycle).render)
        (commands.map Command.render)
      = (dropRepeatedCycles last commands).map Command.render := by
  induction commands generalizing last with
  | nil => rfl
  | cons command commands ih =>
      rw [List.map_cons, dropRepeatedLines, firstWord_render]
      cases command with
      | clockedCycle cycle =>
          have hWord : (Command.clockedCycle cycle).name = "cyclewithclock" := rfl
          have hRepeats : last.map (fun cycle => (Command.clockedCycle cycle).render)
              = some (Command.clockedCycle cycle).render ↔ last = some cycle := by
            constructor
            · intro hSame
              obtain ⟨earlier, hEarlier, hLine⟩ := Option.map_eq_some_iff.mp hSame
              rw [hEarlier, Command.clockedCycle.inj (Command.renderWith_inj _ hLine)]
            · rintro rfl
              rfl
          rw [if_pos hWord, dropRepeatedCycles]
          by_cases hLast : last = some cycle
          · rw [if_pos hLast, if_pos (hRepeats.mpr hLast), ih]
          · rw [if_neg hLast, if_neg fun hSame => hLast (hRepeats.mp hSame), List.map_cons]
            exact congrArg (_ :: ·) (ih (some cycle))
      | _ =>
          rw [if_neg (by dsimp only [Command.name]; decide), dropRepeatedCycles, List.map_cons, ih]
          intro _ hSame
          cases hSame

/-! ### Texts -/

/-- The lines of a text, each of which ends with a line feed. -/
def linesOf (text : String) : List String :=
  (text.toList.splitOn '\n').dropLast.map String.ofList

namespace Inspection

theorem linesText_cons (line : String) (lines : List String) :
    linesText (line :: lines) = line ++ "\n" ++ linesText lines := by
  unfold linesText
  rw [List.map_cons, String.join_cons]

theorem splitOn_linesText {lines : List String} (hLines : ∀ line ∈ lines, OnOneLine line) :
    (linesText lines).toList.splitOn '\n' = lines.map String.toList ++ [[]] := by
  induction lines with
  | nil => rfl
  | cons line lines ih =>
      rw [List.forall_mem_cons] at hLines
      have hText : (linesText (line :: lines)).toList
          = line.toList ++ '\n' :: (linesText lines).toList := by
        rw [linesText_cons, String.toList_append, String.toList_append, List.append_assoc]
        rfl
      rw [hText, List.splitOn_append_cons_self_of_not_mem hLines.1, ih hLines.2, List.map_cons,
        List.cons_append]

theorem linesOf_linesText {lines : List String} (hLines : ∀ line ∈ lines, OnOneLine line) :
    linesOf (linesText lines) = lines := by
  rw [linesOf, splitOn_linesText hLines, List.dropLast_concat, List.map_map]
  exact List.map_id'' (fun _ => String.ofList_toList) lines

end Inspection

theorem onOneLine_of_mem_renderWith (plain : Char → Bool) {commands : List Command} :
    ∀ line ∈ commands.map (Command.renderWith plain), OnOneLine line := by
  intro line hLine
  obtain ⟨command, _, rfl⟩ := List.mem_map.mp hLine
  exact command.onOneLine_renderWith plain

theorem onOneLine_of_mem_render {commands : List Command} :
    ∀ line ∈ commands.map Command.render, OnOneLine line :=
  onOneLine_of_mem_renderWith Text.isVisible

/-- Whether a line defines a tag name or a text value. -/
def isDefinitionLine (line : String) : Bool :=
  ["newtag", "newstringvalue"].contains (firstWord line)

theorem isDefinitionLine_render (command : Command) :
    isDefinitionLine command.render = command.isDefinition := by
  unfold isDefinitionLine
  rw [firstWord_render]
  cases command <;>
    · dsimp only [Command.name, Command.isDefinition]
      decide

theorem filter_render (commands : List Command) :
    (commands.map Command.render).filter (fun line => !isDefinitionLine line)
      = (withoutDefinitions commands).map Command.render := by
  rw [List.filter_map]
  exact congrArg (List.map Command.render)
    (List.filter_congr fun command _ => congrArg Bool.not (isDefinitionLine_render command))

/-- What the tool prints of a readable trace are the lines of its commands. -/
theorem Inspection.list_of_readTrace [Lz4.Codec] {file : StoredFile} {commands : List Command}
    (hRead : readTrace file.content = .ok commands) :
    list false none (some file) = .ok (linesText (commands.map Command.render)) := by
  have hListing : Listing.ofFile (some file) none = .ok { shown := commands, hidden := 0 } := by
    unfold Listing.ofFile
    simp only [requireFile, hRead, bind, Except.bind, pure, Except.pure, Option.getD_none,
      List.take_length, Nat.sub_self]
  have hLines : Listing.lines { shown := commands, hidden := 0 }
      = commands.map Command.render :=
    List.append_nil _
  unfold list
  rw [hListing]
  exact congrArg (fun lines => Except.ok (linesText lines)) hLines

namespace Output

theorem textBytes_append (text more : String) :
    Wire.textBytes (text ++ more) = Wire.textBytes text ++ Wire.textBytes more := by
  unfold Wire.textBytes
  rw [String.toByteArray_append, ByteArray.data_append, Array.toList_append]

/-- A stream in text form is the text of its lines. -/
theorem streamBytes_text (commands : List Command) :
    streamBytes true commands = Wire.textBytes
      (Inspection.linesText ((withoutDefinitions commands).map Command.render)) := by
  unfold streamBytes withoutDefinitions
  rw [if_pos rfl]
  induction commands.filter fun command => !command.isDefinition with
  | nil => rfl
  | cons command commands ih =>
      rw [List.flatMap_cons, ih, List.map_cons, Inspection.linesText_cons, textBytes_append]
      rfl

/-- The text of a text file, plain or compressed. -/
def readText? [Lz4.Codec] (content : List UInt8) : Option String :=
  if Lz4.isFrame content then
    match Inspection.expandFrame content with
    | .ok bytes => Wire.text? bytes
    | .error _ => none
  else Wire.text? content

/-- A text is not taken for a frame: it opens with the word for its version. -/
theorem isFrame_streamBytes_text (commands : List Command) :
    Lz4.isFrame (streamBytes true (openingVersion :: commands)) = false :=
  rfl

/-- A file that reads as a stream in text form is read as its lines. -/
theorem readText?_of_fileReads [Lz4.Codec] {content : List UInt8} {compressed : Bool}
    {commands : List Command}
    (hFile : Writer.FileReads content compressed
      (streamBytes true (openingVersion :: commands))) :
    ∃ text, readText? content = some text ∧
      linesOf text = (withoutDefinitions (openingVersion :: commands)).map Command.render := by
  let lines := (withoutDefinitions (openingVersion :: commands)).map Command.render
  have hText : Wire.text? (streamBytes true (openingVersion :: commands))
      = some (Inspection.linesText lines) := by
    rw [streamBytes_text]
    exact Wire.Reading.text?_textBytes _
  refine ⟨Inspection.linesText lines, ?_, Inspection.linesOf_linesText onOneLine_of_mem_render⟩
  rw [← hText]
  unfold readText?
  cases compressed with
  | false =>
      have hContent : content = streamBytes true (openingVersion :: commands) := hFile
      rw [hContent, isFrame_streamBytes_text, if_neg Bool.false_ne_true]
  | true =>
      obtain ⟨hFrame, hRead⟩ :
        Lz4.isFrame content = true ∧ Lz4.Coder.expand content = .ok _ := hFile
      rw [if_pos hFrame, Inspection.expandFrame, hRead]
      rfl

end Output
end CycleTrace
