/-
The line of a command.

A line gives its command: the first word tells the shape, and the fields follow
in the order of the shape, each behind a label of its own. The one field that
can be missing, a position, stands at the end of a line. So two commands with
the same line are the same, and no line feed divides it, whichever characters
of a text are written as they are.
-/

import CycleTrace.Proofs.Command.Fields

namespace CycleTrace
namespace Command

/-! ### Numbers, phases and parents -/

theorem legible_byte : Legible fun value : UInt8 => toString value :=
  legible_repr.comp (show Function.Injective UInt8.toNat from fun _ _ => UInt8.toNat_inj.mp)

theorem legible_short : Legible fun value : UInt16 => toString value :=
  legible_repr.comp (show Function.Injective UInt16.toNat from fun _ _ => UInt16.toNat_inj.mp)

theorem legible_long : Legible fun value : UInt64 => toString value :=
  legible_repr.comp (show Function.Injective UInt64.toNat from fun _ _ => UInt64.toNat_inj.mp)

theorem legible_count : Legible fun value : Nat => toString value :=
  legible_repr

theorem isWord_phase (phase : ClockPhase) : IsWord phase.name := by
  cases phase <;> decide

theorem legible_phase : Legible ClockPhase.name := by
  refine legible_of_isWord isWord_phase fun phase other hSame => ?_
  revert hSame
  cases phase <;> cases other <;> decide

/-- The field of a parent; a dash stands for none. -/
def parentText : Option NodeId → String
  | some parent => toString parent
  | none => "-"

theorem legible_parentText : Legible parentText := by
  intro parent other rest more hRest hMore hSame
  cases parent <;> cases other
  case none.none => exact ⟨rfl, List.append_cancel_left hSame⟩
  case none.some other =>
    have hDash : "-".toList ++ rest = other.toNat.repr.toList ++ more := hSame
    exact absurd (hDash ▸ breaks_label (by decide) rest) (not_breaks_repr other.toNat more)
  case some.none parent =>
    have hDash : parent.toNat.repr.toList ++ rest = "-".toList ++ more := hSame
    exact absurd (hDash ▸ breaks_label (by decide) more) (not_breaks_repr parent.toNat rest)
  case some.some parent other =>
    exact (legible_short hRest hMore hSame).imp_left (congrArg some)

/-! ### Positions at the end of a line -/

theorem breaks_feed (rest : List Char) : Breaks ('\n' :: rest) :=
  breaks_cons (by decide) rest

theorem onOneLine_positionField (positions : List UInt32) :
    OnOneLine (positionField positions) := by
  unfold positionField
  split
  · decide
  · exact onOneLine_append.mpr ⟨by decide, onOneLine_listText positions⟩

theorem positionField_cons_append (first : UInt32) (positions : List UInt32)
    (rest : List Char) :
    (positionField (first :: positions)).toList ++ rest
      = " pos=".toList ++ ((listText (first :: positions)).toList ++ rest) := by
  rw [positionField, if_neg (by simp), String.toList_append, List.append_assoc]

theorem breaks_positionField (positions : List UInt32) (rest : List Char) :
    Breaks ((positionField positions).toList ++ '\n' :: rest) := by
  cases positions with
  | nil => exact breaks_feed rest
  | cons first positions =>
      rw [positionField_cons_append]
      exact breaks_label (by decide) _

theorem positionField_append_iff {positions others : List UInt32} {rest more : List Char} :
    (positionField positions).toList ++ '\n' :: rest
        = (positionField others).toList ++ '\n' :: more
      ↔ positions = others ∧ rest = more := by
  constructor
  · intro hSame
    cases positions <;> cases others
    case nil.nil => exact ⟨rfl, (List.cons.inj hSame).2⟩
    case nil.cons other others =>
      rw [positionField_cons_append] at hSame
      exact absurd (List.cons.inj hSame).1 (by decide)
    case cons.nil first positions =>
      rw [positionField_cons_append] at hSame
      exact absurd (List.cons.inj hSame).1 (by decide)
    case cons.cons first positions other others =>
      rw [positionField_cons_append, positionField_cons_append] at hSame
      obtain ⟨hPositions, hRest⟩ := legible_listText (breaks_feed rest) (breaks_feed more)
        (List.append_cancel_left hSame)
      exact ⟨hPositions, (List.cons.inj hRest).2⟩
  · rintro ⟨rfl, rfl⟩
    rfl

/-! ### Lines -/

theorem isWord_name (command : Command) : IsWord command.name := by
  cases command <;>
    · dsimp only [name]
      decide

/-- A line begins with the name of its command and a blank. -/
theorem toList_renderWith (plain : Char → Bool) (command : Command) :
    ∃ fields, (command.renderWith plain).toList = command.name.toList ++ ' ' :: fields := by
  unfold renderWith
  rw [String.toList_append, String.toList_append, List.append_assoc]
  exact ⟨_, rfl⟩

/-- Every command is written on one line, whatever its texts leave as it is. -/
theorem onOneLine_renderWith (plain : Char → Bool) (command : Command) :
    OnOneLine (command.renderWith plain) := by
  have hByte (value : UInt8) : OnOneLine (toString value) := (isWord_repr value.toNat).onOneLine
  have hShort (value : UInt16) : OnOneLine (toString value) := (isWord_repr value.toNat).onOneLine
  have hWord (value : UInt32) : OnOneLine (toString value) := (isWord_repr value.toNat).onOneLine
  have hLong (value : UInt64) : OnOneLine (toString value) := (isWord_repr value.toNat).onOneLine
  have hCount (value : Nat) : OnOneLine (toString value) := (isWord_repr value).onOneLine
  have hPhase (phase : ClockPhase) : OnOneLine phase.name := (isWord_phase phase).onOneLine
  have hMagic (magic : UInt32) : OnOneLine (Text.hexadecimalWord magic) :=
    (isWord_hexadecimalWord magic).onOneLine
  have hData (data : List UInt8) : OnOneLine (Text.hexBytes data) :=
    (isWord_hexBytes data).onOneLine
  refine onOneLine_append.mpr
    ⟨onOneLine_append.mpr ⟨command.isWord_name.onOneLine, by decide⟩, ?_⟩
  -- every field is a numeral, a quotation, a list or a word
  cases command with
  | newNode id name parent instanceNumber =>
      cases parent <;>
        simp +decide only [onOneLine_append, onOneLine_quoteWith, hShort, and_true]
  | _ =>
      simp +decide only [onOneLine_append, onOneLine_quoteWith, onOneLine_listText,
        onOneLine_positionField, onOneLine_renderWith_value, hMagic, hData, hByte, hShort, hWord,
        hLong, hCount, hPhase, and_true]

/-- The names of commands in the order of their shapes. -/
def names : List String :=
  ["version", "newnode", "newedge", "newitem", "deleteitem", "moveitems", "enternode", "exitnode",
    "setnodelayout", "setitemtag", "setnodetag", "setcycletag", "settagdescription",
    "setnodeinputbandwidth", "setnodeoutputbandwidth", "newclock", "setnodeclock", "cycle",
    "cyclewithclock", "comment", "commentbin", "startactivity", "newtag", "newstringvalue"]

theorem idxOf_name (command : Command) : names.idxOf command.name = command.ctorIdx := by
  cases command <;> rfl

theorem renderWith_newNode (plain : Char → Bool) (id : NodeId) (name : String)
    (parent : Option NodeId) (instanceNumber : UInt16) :
    (newNode id name parent instanceNumber).renderWith plain
      = "newnode" ++ " " ++ (toString id ++ " name=" ++ Text.quoteWith plain name ++ " parent="
          ++ parentText parent ++ " instance=" ++ toString instanceNumber) := by
  cases parent <;> rfl

theorem ctorIdx_eq_of_line {plain : Char → Bool} {command other : Command}
    {rest more : List Char}
    (hSame : (command.renderWith plain).toList ++ '\n' :: rest
      = (other.renderWith plain).toList ++ '\n' :: more) : command.ctorIdx = other.ctorIdx := by
  obtain ⟨fields, hLine⟩ := toList_renderWith plain command
  obtain ⟨others, hOther⟩ := toList_renderWith plain other
  rw [hLine, hOther, List.append_assoc, List.append_assoc] at hSame
  have hNames := (append_stop_inj (command.isWord_name.not_mem (by decide))
    (other.isWord_name.not_mem (by decide)) hSame).1
  rw [← idxOf_name, ← idxOf_name, String.toList_inj.mp hNames]

/-- A text that begins with a line begins with no other line. -/
theorem renderWith_append_inj {plain : Char → Bool} {command other : Command}
    {rest more : List Char}
    (hSame : (command.renderWith plain).toList ++ '\n' :: rest
      = (other.renderWith plain).toList ++ '\n' :: more) : command = other ∧ rest = more := by
  have hShape := ctorIdx_eq_of_line hSame
  -- the shapes are the same, and the fields are compared from the left
  cases command <;> cases other <;> cases hShape
  case newNode.newNode =>
    rw [renderWith_newNode, renderWith_newNode] at hSame
    simp (disch := simp +decide only [breaks_feed, breaks_label]) only [String.toList_append,
      List.append_assoc, List.append_cancel_left_eq, legible_short.append_iff,
      (legible_quoteWith plain).append_iff, legible_parentText.append_iff, List.cons.injEq]
      at hSame
    obtain ⟨rfl, rfl, rfl, rfl, _, rfl⟩ := hSame
    exact ⟨rfl, rfl⟩
  case clockedCycle.clockedCycle cycle other =>
    cases cycle
    cases other
    simp (disch := simp +decide only [breaks_feed, breaks_label]) only [renderWith, name,
      String.toList_append, List.append_assoc, List.append_cancel_left_eq,
      legible_short.append_iff, legible_long.append_iff, legible_phase.append_iff,
      List.cons.injEq] at hSame
    obtain ⟨rfl, rfl, rfl, _, rfl⟩ := hSame
    exact ⟨rfl, rfl⟩
  all_goals
    simp (disch := simp +decide only [breaks_feed, breaks_label, breaks_positionField]) only
      [renderWith, name, String.toList_append, List.append_assoc, List.append_cancel_left_eq,
        legible_byte.append_iff, legible_short.append_iff, legible_word.append_iff,
        legible_long.append_iff, legible_count.append_iff, (legible_quoteWith plain).append_iff,
        (legible_renderWith_value plain).append_iff, legible_hexadecimalWord.append_iff,
        legible_hexBytes.append_iff, legible_listText.append_iff, positionField_append_iff,
        List.cons.injEq, true_and] at hSame
    simp_all only [and_self]

/-- The line of a command determines it. -/
theorem renderWith_inj (plain : Char → Bool) : Function.Injective (renderWith plain) := by
  intro command other hSame
  exact (renderWith_append_inj (congrArg (·.toList ++ ['\n']) hSame)).1

end Command
end CycleTrace
