/-
The fields of a line.

A field keeps to its line and can be told from what follows it. A numeral ends
with its letters and digits, a list and a set end with their brackets, and a
quotation ends with the first quotation mark that belongs to no escape,
whichever characters it leaves as they are. So a text may contain quotation
marks, brackets or what looks like the fields after it: it still stands for
itself alone.
-/

import CycleTrace.Command.Line
import Mathlib.Data.List.Basic

namespace CycleTrace

/-! ### One line -/

/-- A text without a line feed. -/
def OnOneLine (text : String) : Prop :=
  '\n' ∉ text.toList

instance (text : String) : Decidable (OnOneLine text) :=
  inferInstanceAs (Decidable ('\n' ∉ text.toList))

theorem onOneLine_append {text more : String} :
    OnOneLine (text ++ more) ↔ OnOneLine text ∧ OnOneLine more := by
  unfold OnOneLine
  rw [String.toList_append, List.mem_append, not_or]

theorem onOneLine_ofList {chars : List Char} :
    OnOneLine (String.ofList chars) ↔ '\n' ∉ chars := by
  unfold OnOneLine
  rw [String.toList_ofList]

theorem onOneLine_intercalate {separator : String} (hSeparator : OnOneLine separator)
    {texts : List String} (hTexts : ∀ text ∈ texts, OnOneLine text) :
    OnOneLine (String.intercalate separator texts) := by
  induction texts with
  | nil =>
      rw [String.intercalate_nil]
      decide
  | cons text rest ih =>
      rw [List.forall_mem_cons] at hTexts
      cases rest with
      | nil =>
          rw [String.intercalate_singleton]
          exact hTexts.1
      | cons next rest =>
          rw [String.intercalate_cons_cons, onOneLine_append, onOneLine_append]
          exact ⟨⟨hTexts.1, hSeparator⟩, ih hTexts.2⟩

/-- A text of letters and digits. -/
def IsWord (text : String) : Prop :=
  ∀ c ∈ text.toList, c.isAlphanum = true

instance (text : String) : Decidable (IsWord text) :=
  decidable_of_iff (text.toList.all Char.isAlphanum = true) List.all_eq_true

theorem isWord_append {text more : String} :
    IsWord (text ++ more) ↔ IsWord text ∧ IsWord more := by
  unfold IsWord
  rw [String.toList_append, List.forall_mem_append]

theorem isWord_ofList {chars : List Char} :
    IsWord (String.ofList chars) ↔ ∀ c ∈ chars, c.isAlphanum = true := by
  unfold IsWord
  rw [String.toList_ofList]

theorem IsWord.not_mem {text : String} (hWord : IsWord text) {c : Char}
    (hOther : c.isAlphanum = false) : c ∉ text.toList := by
  intro hMember
  rw [hWord c hMember] at hOther
  cases hOther

theorem IsWord.onOneLine {text : String} (hWord : IsWord text) : OnOneLine text :=
  hWord.not_mem (by decide)

/-! ### Legible fields -/

/-- A text that does not go on with a letter or a digit. -/
def Breaks (rest : List Char) : Prop :=
  ∀ c ∈ rest.head?, c.isAlphanum = false

instance : (rest : List Char) → Decidable (Breaks rest)
  | [] => isTrue (fun _ hNone => nomatch hNone)
  | c :: _ => decidable_of_iff (c.isAlphanum = false) (by simp [Breaks])

theorem breaks_cons {c : Char} (hBreak : c.isAlphanum = false) (rest : List Char) :
    Breaks (c :: rest) := by
  rintro other ⟨⟩
  exact hBreak

theorem breaks_label {label : String} (hLabel : Breaks label.toList ∧ label.toList ≠ [])
    (rest : List Char) : Breaks (label.toList ++ rest) := by
  obtain ⟨hBreaks, hSome⟩ := hLabel
  cases hChars : label.toList with
  | nil => exact absurd hChars hSome
  | cons c chars => exact breaks_cons (hBreaks c (by rw [hChars]; rfl)) _

/-- Values that are written so that each can be told from every text that begins
with it, unless the text goes on with a letter or a digit. -/
def Legible (written : α → String) : Prop :=
  ∀ ⦃value other : α⦄ ⦃rest more : List Char⦄, Breaks rest → Breaks more →
    (written value).toList ++ rest = (written other).toList ++ more →
    value = other ∧ rest = more

theorem Legible.append_iff {written : α → String} (hLegible : Legible written)
    {value other : α} {rest more : List Char} (hRest : Breaks rest) (hMore : Breaks more) :
    (written value).toList ++ rest = (written other).toList ++ more
      ↔ value = other ∧ rest = more := by
  constructor
  · exact hLegible hRest hMore
  · rintro ⟨rfl, rfl⟩
    rfl

theorem Legible.comp {written : β → String} (hLegible : Legible written) {part : α → β}
    (hPart : Function.Injective part) : Legible fun value => written (part value) := by
  intro value other rest more hRest hMore hSame
  obtain ⟨hParts, hRest⟩ := hLegible hRest hMore hSame
  exact ⟨hPart hParts, hRest⟩

theorem takeWhile_isWord {text : String} (hWord : IsWord text) {rest : List Char}
    (hRest : Breaks rest) : (text.toList ++ rest).takeWhile Char.isAlphanum = text.toList := by
  rw [List.takeWhile_append_of_pos hWord]
  cases rest with
  | nil => rw [List.takeWhile_nil, List.append_nil]
  | cons c rest =>
      rw [List.takeWhile_cons_of_neg (by rw [hRest c rfl]; decide), List.append_nil]

/-- Different words can be told from each other, wherever they end. -/
theorem legible_of_isWord {written : α → String} (hWord : ∀ value, IsWord (written value))
    (hInjective : Function.Injective written) : Legible written := by
  intro value other rest more hRest hMore hSame
  have hWords := congrArg (List.takeWhile Char.isAlphanum) hSame
  rw [takeWhile_isWord (hWord value) hRest, takeWhile_isWord (hWord other) hMore] at hWords
  rw [hWords] at hSame
  exact ⟨hInjective (String.toList_inj.mp hWords), List.append_cancel_left hSame⟩

/-! ### Numerals -/

theorem isAlphanum_digitChar {digit : Nat} (hDigit : digit < 16) :
    (Nat.digitChar digit).isAlphanum = true := by
  revert digit
  decide

/-- What holds of single digits, and of a numeral with one more digit, holds of
every numeral. -/
theorem toDigits_induction {motive : Nat → List Char → Prop} {base : Nat} (hBase : 1 < base)
    (hDigit : ∀ digit < base, motive digit [Nat.digitChar digit])
    (hMore : ∀ value digits, motive (value / base) digits →
      motive value (digits ++ [Nat.digitChar (value % base)])) (value : Nat) :
    motive value (Nat.toDigits base value) := by
  induction value using Nat.strongRecOn with
  | ind value ih =>
      rw [Nat.toDigits_eq_if hBase]
      split
      case isTrue hSmall => exact hDigit value hSmall
      case isFalse hLarge =>
        have hLess : value / base < value := Nat.div_lt_self (by omega) hBase
        exact hMore value _ (ih _ hLess)

/-- Numerals consist of letters and digits. -/
theorem isAlphanum_of_mem_toDigits {base : Nat} (hBase : 1 < base ∧ base ≤ 16) (value : Nat) :
    ∀ c ∈ Nat.toDigits base value, c.isAlphanum = true := by
  have hLetter {digit : Nat} (hDigit : digit < base) :
      ∀ c ∈ [Nat.digitChar digit], c.isAlphanum = true := by
    rw [List.forall_mem_singleton]
    exact isAlphanum_digitChar (Nat.lt_of_lt_of_le hDigit hBase.2)
  refine toDigits_induction (motive := fun _ digits => ∀ c ∈ digits, c.isAlphanum = true)
    hBase.1 (fun digit hDigit => hLetter hDigit) (fun value digits hFront => ?_) value
  rw [List.forall_mem_append]
  exact ⟨hFront, hLetter (Nat.mod_lt value (by omega))⟩

/-- The value of a digit. -/
def digitValue (c : Char) : Nat :=
  if c.isDigit then c.toNat - '0'.toNat else c.toNat - 'a'.toNat + 10

theorem digitValue_digitChar {digit : Nat} (hDigit : digit < 16) :
    digitValue (Nat.digitChar digit) = digit := by
  revert digit
  decide

/-- The number that digits stand for. -/
def numeralValue (base : Nat) (digits : List Char) : Nat :=
  digits.foldl (fun value c => base * value + digitValue c) 0

theorem numeralValue_concat (base : Nat) (digits : List Char) (digit : Char) :
    numeralValue base (digits ++ [digit])
      = base * numeralValue base digits + digitValue digit := by
  unfold numeralValue
  rw [List.foldl_append, List.foldl_cons, List.foldl_nil]

theorem numeralValue_toDigits {base : Nat} (hBase : 1 < base ∧ base ≤ 16) (value : Nat) :
    numeralValue base (Nat.toDigits base value) = value := by
  have hLast {digit : Nat} (hDigit : digit < base) : digitValue (Nat.digitChar digit) = digit :=
    digitValue_digitChar (Nat.lt_of_lt_of_le hDigit hBase.2)
  refine toDigits_induction (motive := fun value digits => numeralValue base digits = value)
    hBase.1 (fun digit hDigit => ?_) (fun value digits hFront => ?_) value
  · rw [← List.nil_append [_], numeralValue_concat, hLast hDigit]
    exact Nat.zero_add digit
  · rw [numeralValue_concat, hFront, hLast (Nat.mod_lt value (by omega)), Nat.div_add_mod]

theorem toDigits_inj {base value other : Nat} (hBase : 1 < base ∧ base ≤ 16)
    (hSame : Nat.toDigits base value = Nat.toDigits base other) : value = other := by
  have hValues := congrArg (numeralValue base) hSame
  rwa [numeralValue_toDigits hBase, numeralValue_toDigits hBase] at hValues

theorem numeralValue_zeros (base count : Nat) (digits : List Char) :
    numeralValue base (List.replicate count '0' ++ digits) = numeralValue base digits := by
  induction count with
  | zero => rfl
  | succ count ih =>
      rw [← ih]
      unfold numeralValue
      rw [List.replicate_succ, List.cons_append, List.foldl_cons]
      exact congrArg (fun start => List.foldl _ start _) (Nat.mul_zero base)

/-- Zeros in front of a numeral do not change its value. -/
theorem paddedHexDigits_inj {width value other : Nat}
    (hSame : Text.paddedHexDigits width value = Text.paddedHexDigits width other) :
    value = other := by
  have hValue (value : Nat) : numeralValue 16 (Text.paddedHexDigits width value) = value :=
    (numeralValue_zeros 16 _ _).trans (numeralValue_toDigits (by decide) value)
  have hValues := congrArg (numeralValue 16) hSame
  rwa [hValue, hValue] at hValues

theorem isAlphanum_of_mem_paddedHexDigits (width value : Nat) :
    ∀ c ∈ Text.paddedHexDigits width value, c.isAlphanum = true := by
  unfold Text.paddedHexDigits
  dsimp only
  rw [List.forall_mem_append]
  refine ⟨fun c hZero => ?_, isAlphanum_of_mem_toDigits (by decide) value⟩
  rw [List.eq_of_mem_replicate hZero]
  decide

theorem length_paddedHexDigits (byte : UInt8) :
    (Text.paddedHexDigits 2 byte.toNat).length = 2 := by
  have hDigits : (Text.hexDigits byte.toNat).length ≤ 2 :=
    (Nat.length_toDigits_le_iff (by decide) (by decide)).mpr byte.toNat_lt
  unfold Text.paddedHexDigits
  dsimp only
  rw [List.length_append, List.length_replicate, Nat.sub_add_cancel hDigits]

theorem isWord_repr (value : Nat) : IsWord value.repr := by
  unfold IsWord
  rw [Nat.toList_repr]
  exact isAlphanum_of_mem_toDigits (by decide) value

theorem isWord_hexadecimal (value : Nat) : IsWord (Text.hexadecimal value) :=
  isWord_append.mpr
    ⟨by decide, isWord_ofList.mpr (isAlphanum_of_mem_toDigits (by decide) value)⟩

theorem isWord_hexadecimalWord (value : UInt32) : IsWord (Text.hexadecimalWord value) :=
  isWord_append.mpr
    ⟨by decide, isWord_ofList.mpr (isAlphanum_of_mem_paddedHexDigits 8 value.toNat)⟩

theorem isWord_hexBytes (bytes : List UInt8) : IsWord (Text.hexBytes bytes) := by
  refine isWord_ofList.mpr fun c hChar => ?_
  obtain ⟨byte, _, hDigit⟩ := List.mem_flatMap.mp hChar
  exact isAlphanum_of_mem_paddedHexDigits 2 byte.toNat c hDigit

theorem legible_repr : Legible Nat.repr := by
  refine legible_of_isWord isWord_repr fun value other hSame => ?_
  have hDigits := congrArg String.toList hSame
  rw [Nat.toList_repr, Nat.toList_repr] at hDigits
  exact toDigits_inj (by decide) hDigits

theorem legible_hexadecimal : Legible Text.hexadecimal := by
  refine legible_of_isWord isWord_hexadecimal fun value other hSame => ?_
  have hDigits := congrArg String.toList hSame
  rw [Text.hexadecimal, Text.hexadecimal, String.toList_append, String.toList_append] at hDigits
  exact toDigits_inj (by decide) (String.ofList_inj.mp
    (String.toList_inj.mp (List.append_cancel_left hDigits)))

theorem legible_hexadecimalWord : Legible Text.hexadecimalWord := by
  refine legible_of_isWord isWord_hexadecimalWord fun value other hSame => ?_
  have hDigits := congrArg String.toList hSame
  rw [Text.hexadecimalWord, Text.hexadecimalWord, String.toList_append,
    String.toList_append] at hDigits
  exact UInt32.toNat_inj.mp (paddedHexDigits_inj (String.ofList_inj.mp
    (String.toList_inj.mp (List.append_cancel_left hDigits))))

theorem flatMap_paddedHexDigits_inj {bytes others : List UInt8}
    (hSame : (bytes.flatMap fun byte => Text.paddedHexDigits 2 byte.toNat)
      = others.flatMap fun byte => Text.paddedHexDigits 2 byte.toNat) : bytes = others := by
  have hSome (byte : UInt8) (more : List Char) :
      Text.paddedHexDigits 2 byte.toNat ++ more ≠ [] := by
    intro hNone
    have hDigits := congrArg List.length (List.append_eq_nil_iff.mp hNone).1
    rw [length_paddedHexDigits] at hDigits
    cases hDigits
  induction bytes generalizing others with
  | nil =>
      cases others with
      | nil => rfl
      | cons other others => exact absurd hSame.symm (hSome other _)
  | cons byte bytes ih =>
      cases others with
      | nil => exact absurd hSame (hSome byte _)
      | cons other others =>
          rw [List.flatMap_cons, List.flatMap_cons] at hSame
          obtain ⟨hFirst, hRest⟩ :=
            List.append_inj hSame (by rw [length_paddedHexDigits, length_paddedHexDigits])
          rw [UInt8.toNat_inj.mp (paddedHexDigits_inj hFirst), ih hRest]

theorem legible_hexBytes : Legible Text.hexBytes :=
  legible_of_isWord isWord_hexBytes fun _ _ hSame =>
    flatMap_paddedHexDigits_inj (String.ofList_inj.mp hSame)

/-! ### Quotations -/

theorem takeWhile_before {chars rest : List Char} {stop : Char} (hChars : stop ∉ chars) :
    (chars ++ stop :: rest).takeWhile (· ≠ stop) = chars := by
  rw [List.takeWhile_append_of_pos, List.takeWhile_cons_of_neg, List.append_nil]
  · simp
  · intro c hMember
    simpa using fun hSame : c = stop => hChars (hSame ▸ hMember)

theorem append_stop_inj {first second rest more : List Char} {stop : Char}
    (hFirst : stop ∉ first) (hSecond : stop ∉ second)
    (hSame : first ++ stop :: rest = second ++ stop :: more) : first = second ∧ rest = more := by
  have hFront : first = second := by
    have hBefore := congrArg (List.takeWhile (· ≠ stop)) hSame
    rwa [takeWhile_before hFirst, takeWhile_before hSecond] at hBefore
  subst hFront
  exact ⟨rfl, List.tail_eq_of_cons_eq (List.append_cancel_left hSame)⟩

/-- The character that a letter after a backslash stands for; the quotation mark
and the backslash stand for themselves. -/
def escapedBy (letter : Char) : Char :=
  if letter = 't' then '\t'
  else if letter = 'r' then '\r'
  else if letter = 'n' then '\n'
  else if letter = '0' then '\x00'
  else letter

/-- A character in a quotation is written with a letter, as itself or with its
code point. -/
theorem escapeChar_cases (plain : Char → Bool) (c : Char) :
    (∃ letter, letter ≠ 'u' ∧ c = escapedBy letter ∧
      Text.escapeChar plain c = ['\\', letter]) ∨
    (c ≠ '\\' ∧ c ≠ '"' ∧ Text.escapeChar plain c = [c]) ∨
    Text.escapeChar plain c = '\\' :: 'u' :: '{' :: (Text.hexDigits c.toNat ++ ['}']) := by
  unfold Text.escapeChar
  split_ifs with hTab hReturn hFeed hNull hQuote hSlash hPlain
  · exact .inl ⟨'t', by decide, hTab, rfl⟩
  · exact .inl ⟨'r', by decide, hReturn, rfl⟩
  · exact .inl ⟨'n', by decide, hFeed, rfl⟩
  · exact .inl ⟨'0', by decide, hNull, rfl⟩
  · exact .inl ⟨'"', by decide, hQuote, rfl⟩
  · exact .inl ⟨'\\', by decide, hSlash, rfl⟩
  · exact .inr (.inl ⟨hSlash, hQuote, rfl⟩)
  · exact .inr (.inr rfl)

theorem feed_not_mem_hexDigits (value : Nat) : '\n' ∉ Text.hexDigits value := fun hFeed =>
  absurd (isAlphanum_of_mem_toDigits (by decide) value '\n' hFeed) (by decide)

/-- The line feed has an escape of its own, which stands before the question
whether a character is shown as itself. -/
theorem feed_not_mem_escapeChar (plain : Char → Bool) (c : Char) :
    '\n' ∉ Text.escapeChar plain c := by
  unfold Text.escapeChar
  split_ifs with hTab hReturn hFeed hNull hQuote hSlash hPlain
  any_goals decide
  · rw [List.mem_singleton]
    exact fun hSame => hFeed hSame.symm
  · rw [List.mem_append, List.mem_append]
    rintro ((hOpen | hDigit) | hClose)
    · exact absurd hOpen (by decide)
    · exact feed_not_mem_hexDigits c.toNat hDigit
    · exact absurd hClose (by decide)

theorem onOneLine_quoteWith (plain : Char → Bool) (text : String) :
    OnOneLine (Text.quoteWith plain text) := by
  refine onOneLine_ofList.mpr fun hFeed => ?_
  rw [List.mem_cons, List.mem_append, List.mem_singleton] at hFeed
  rcases hFeed with hQuote | hText | hQuote
  · cases hQuote
  · obtain ⟨c, _, hChar⟩ := List.mem_flatMap.mp hText
    exact feed_not_mem_escapeChar plain c hChar
  · cases hQuote

/-- No character in a quotation is written with a quotation mark in front. -/
theorem escapeChar_append_ne (plain : Char → Bool) (c : Char) (rest more : List Char) :
    Text.escapeChar plain c ++ rest ≠ '"' :: more := by
  rcases escapeChar_cases plain c with ⟨letter, _, _, hChars⟩ | ⟨_, hQuote, hChars⟩ | hChars <;>
    rw [hChars] <;> intro hSame
  · exact absurd (List.head_eq_of_cons_eq hSame) (by decide)
  · exact hQuote (List.head_eq_of_cons_eq hSame)
  · exact absurd (List.head_eq_of_cons_eq hSame) (by decide)

/-- No way of writing a character begins another. -/
theorem escapeChar_append_inj {plain : Char → Bool} {c other : Char} {rest more : List Char}
    (hSame : Text.escapeChar plain c ++ rest = Text.escapeChar plain other ++ more) :
    c = other ∧ rest = more := by
  rcases escapeChar_cases plain c with ⟨letter, hLetter, hMeant, hChars⟩ | ⟨hSlash, _, hChars⟩ |
    hChars <;>
  rcases escapeChar_cases plain other with ⟨otherLetter, hOtherLetter, hOtherMeant, hOthers⟩ |
    ⟨hOtherSlash, _, hOthers⟩ | hOthers <;>
  rw [hChars, hOthers] at hSame
  case inl.inl =>
    obtain ⟨_, hSame⟩ := List.cons.inj hSame
    obtain ⟨rfl, hRest⟩ := List.cons.inj hSame
    exact ⟨hMeant.trans hOtherMeant.symm, hRest⟩
  case inl.inr.inl => exact absurd (List.cons.inj hSame).1.symm hOtherSlash
  case inl.inr.inr => exact absurd (List.cons.inj (List.cons.inj hSame).2).1 hLetter
  case inr.inl.inl => exact absurd (List.cons.inj hSame).1 hSlash
  case inr.inl.inr.inl => exact List.cons.inj hSame
  case inr.inl.inr.inr => exact absurd (List.cons.inj hSame).1 hSlash
  case inr.inr.inl => exact absurd (List.cons.inj (List.cons.inj hSame).2).1.symm hOtherLetter
  case inr.inr.inr.inl => exact absurd (List.cons.inj hSame).1.symm hOtherSlash
  case inr.inr.inr.inr =>
    -- the closing brace is no digit, so the code points end at the same place
    have hBrace (c : Char) : '}' ∉ Text.hexDigits c.toNat := fun hBrace =>
      absurd (isAlphanum_of_mem_toDigits (by decide) c.toNat '}' hBrace) (by decide)
    have hCodes : Text.hexDigits c.toNat ++ '}' :: rest
        = Text.hexDigits other.toNat ++ '}' :: more := by
      simpa using hSame
    obtain ⟨hDigits, hRest⟩ := append_stop_inj (hBrace c) (hBrace other) hCodes
    exact ⟨Char.toNat_inj.mp (toDigits_inj (by decide) hDigits), hRest⟩

theorem quoted_append_inj {plain : Char → Bool} {chars others : List Char}
    {rest more : List Char}
    (hSame : chars.flatMap (Text.escapeChar plain) ++ '"' :: rest
      = others.flatMap (Text.escapeChar plain) ++ '"' :: more) :
    chars = others ∧ rest = more := by
  induction chars generalizing others with
  | nil =>
      cases others with
      | nil => exact ⟨rfl, (List.cons.inj hSame).2⟩
      | cons other others =>
          rw [List.flatMap_cons, List.append_assoc] at hSame
          exact absurd hSame.symm (escapeChar_append_ne plain other _ rest)
  | cons c chars ih =>
      cases others with
      | nil =>
          rw [List.flatMap_cons, List.append_assoc] at hSame
          exact absurd hSame (escapeChar_append_ne plain c _ more)
      | cons other others =>
          rw [List.flatMap_cons, List.flatMap_cons, List.append_assoc, List.append_assoc] at hSame
          obtain ⟨rfl, hLater⟩ := escapeChar_append_inj hSame
          obtain ⟨rfl, hRest⟩ := ih hLater
          exact ⟨rfl, hRest⟩

theorem toList_quoteWith_append (plain : Char → Bool) (text : String) (rest : List Char) :
    (Text.quoteWith plain text).toList ++ rest
      = '"' :: (text.toList.flatMap (Text.escapeChar plain) ++ '"' :: rest) := by
  rw [Text.quoteWith, String.toList_ofList, List.cons_append, List.append_assoc]
  rfl

/-- A quotation is legible whatever it leaves as it is. -/
theorem legible_quoteWith (plain : Char → Bool) : Legible (Text.quoteWith plain) := by
  intro text other rest more _ _ hSame
  rw [toList_quoteWith_append, toList_quoteWith_append] at hSame
  obtain ⟨hTexts, hRest⟩ := quoted_append_inj (List.cons.inj hSame).2
  exact ⟨String.toList_inj.mp hTexts, hRest⟩

/-! ### Lists -/

theorem toList_intercalate_cons (text : String) (texts : List String) :
    (String.intercalate "," (text :: texts)).toList
      = text.toList ++ texts.flatMap fun later => ',' :: later.toList := by
  induction texts generalizing text with
  | nil => rw [String.intercalate_singleton, List.flatMap_nil, List.append_nil]
  | cons next texts ih =>
      rw [String.intercalate_cons_cons, String.toList_append, String.toList_append, ih,
        List.flatMap_cons, List.append_assoc]
      rfl

section Enclosed

variable {element : α → String} {close : Char}

theorem onOneLine_enclosed {opening closing : String} (hOpening : OnOneLine opening)
    (hElement : ∀ value, OnOneLine (element value)) (hClosing : OnOneLine closing)
    (values : List α) :
    OnOneLine (opening ++ String.intercalate "," (values.map element) ++ closing) := by
  rw [onOneLine_append, onOneLine_append]
  refine ⟨⟨hOpening, onOneLine_intercalate (by decide) fun text hText => ?_⟩, hClosing⟩
  obtain ⟨value, _, rfl⟩ := List.mem_map.mp hText
  exact hElement value

theorem breaks_elements (hClose : close.isAlphanum = false) (values : List α)
    (rest : List Char) :
    Breaks ((values.flatMap fun value => ',' :: (element value).toList) ++ close :: rest) := by
  cases values with
  | nil => exact breaks_cons hClose rest
  | cons value values => exact breaks_cons (by decide) _

theorem elements_append_inj (hElement : Legible element) (hClose : close.isAlphanum = false)
    (hNoComma : close ≠ ',') {values others : List α} {rest more : List Char}
    (hSame : (values.flatMap fun value => ',' :: (element value).toList) ++ close :: rest
      = (others.flatMap fun value => ',' :: (element value).toList) ++ close :: more) :
    values = others ∧ rest = more := by
  induction values generalizing others with
  | nil =>
      cases others with
      | nil => exact ⟨rfl, (List.cons.inj hSame).2⟩
      | cons other others => exact absurd (List.cons.inj hSame).1 hNoComma
  | cons value values ih =>
      cases others with
      | nil => exact absurd (List.cons.inj hSame).1.symm hNoComma
      | cons other others =>
          rw [List.flatMap_cons, List.flatMap_cons, List.append_assoc, List.append_assoc,
            List.cons_append, List.cons_append] at hSame
          obtain ⟨rfl, hLater⟩ := hElement (breaks_elements hClose values rest)
            (breaks_elements hClose others more) (List.cons.inj hSame).2
          obtain ⟨rfl, hRest⟩ := ih hLater
          exact ⟨rfl, hRest⟩

/-- A list in brackets is legible when its elements are, and begin with a letter
or a digit. -/
theorem legible_enclosed (close : Char) (hElement : Legible element)
    (hWord : ∀ value rest, ¬ Breaks ((element value).toList ++ rest))
    (hClose : close.isAlphanum = false) (hNoComma : close ≠ ',') {opening closing : String}
    (hClosing : closing.toList = [close]) :
    Legible fun values : List α =>
      opening ++ String.intercalate "," (values.map element) ++ closing := by
  have hNone (rest : List Char) :
      (String.intercalate "," (([] : List α).map element)).toList ++ close :: rest
        = close :: rest := by
    rw [List.map_nil, String.intercalate_nil]
    rfl
  have hSome (value : α) (values : List α) (rest : List Char) :
      (String.intercalate "," ((value :: values).map element)).toList ++ close :: rest
        = (element value).toList
          ++ ((values.flatMap fun value => ',' :: (element value).toList) ++ close :: rest) := by
    rw [List.map_cons, toList_intercalate_cons, List.flatMap_map, List.append_assoc]
  intro values others rest more _ _ hSame
  simp only [String.toList_append, hClosing, List.append_assoc, List.append_cancel_left_eq,
    List.singleton_append] at hSame
  cases values with
  | nil =>
      cases others with
      | nil => exact ⟨rfl, by simpa using hSame⟩
      | cons other others =>
          rw [hNone, hSome] at hSame
          exact absurd (hSame ▸ breaks_cons hClose rest) (hWord other _)
  | cons value values =>
      cases others with
      | nil =>
          rw [hNone, hSome] at hSame
          exact absurd (hSame ▸ breaks_cons hClose more) (hWord value _)
      | cons other others =>
          rw [hSome, hSome] at hSame
          obtain ⟨rfl, hLater⟩ := hElement (breaks_elements hClose values rest)
            (breaks_elements hClose others more) hSame
          obtain ⟨rfl, hRest⟩ := elements_append_inj hElement hClose hNoComma hLater
          exact ⟨rfl, hRest⟩

end Enclosed

theorem not_breaks_repr (value : Nat) (rest : List Char) :
    ¬ Breaks (value.repr.toList ++ rest) := by
  rw [Nat.toList_repr]
  cases hDigits : Nat.toDigits 10 value with
  | nil => exact absurd hDigits Nat.toDigits_ne_nil
  | cons digit digits =>
      intro hBreaks
      have hDigit : digit.isAlphanum = true :=
        isAlphanum_of_mem_toDigits (by decide) value digit (hDigits ▸ List.mem_cons_self)
      rw [hBreaks digit rfl] at hDigit
      cases hDigit

namespace Command

theorem legible_word : Legible fun value : UInt32 => toString value :=
  legible_repr.comp (show Function.Injective UInt32.toNat from fun _ _ => UInt32.toNat_inj.mp)

theorem onOneLine_listText (values : List UInt32) : OnOneLine (listText values) := by
  have hNumber (value : UInt32) : OnOneLine (toString value) := (isWord_repr value.toNat).onOneLine
  exact onOneLine_enclosed (by decide) hNumber (by decide) values

theorem legible_listText : Legible listText :=
  legible_enclosed ']' legible_word (fun value => not_breaks_repr value.toNat) (by decide)
    (by decide) rfl

end Command

/-! ### Values of tags -/

/-- The character that the text of a value begins with. -/
def TagValue.firstChar : TagValue → Char
  | .int _ => '0'
  | .set _ => '\x7b'
  | .text _ => '"'

theorem head?_hexadecimal (value : Nat) (rest : List Char) :
    ((Text.hexadecimal value).toList ++ rest).head? = some '0' := by
  rw [Text.hexadecimal, String.toList_append]
  rfl

theorem head?_renderWith_value (plain : Char → Bool) (value : TagValue) (rest : List Char) :
    ((value.renderWith plain).toList ++ rest).head? = some value.firstChar := by
  cases value with
  | int value => exact head?_hexadecimal value.toNat rest
  | set values =>
      rw [TagValue.renderWith, String.toList_append, String.toList_append]
      rfl
  | text value =>
      rw [TagValue.renderWith, toList_quoteWith_append]
      rfl

theorem onOneLine_renderWith_value (plain : Char → Bool) (value : TagValue) :
    OnOneLine (value.renderWith plain) := by
  cases value with
  | int value => exact (isWord_hexadecimal value.toNat).onOneLine
  | set values =>
      have hNumber (value : UInt64) : OnOneLine (Text.hexadecimal value.toNat) :=
        (isWord_hexadecimal value.toNat).onOneLine
      exact onOneLine_enclosed (by decide) hNumber (by decide) values
  | text value => exact onOneLine_quoteWith plain value

theorem legible_set : Legible fun values : List UInt64 =>
    "\x7b" ++ String.intercalate "," (values.map fun value => Text.hexadecimal value.toNat)
      ++ "\x7d" := by
  have hElement : Legible fun value : UInt64 => Text.hexadecimal value.toNat :=
    legible_hexadecimal.comp fun _ _ => UInt64.toNat_inj.mp
  refine legible_enclosed '\x7d' hElement (fun value rest hBreaks => ?_) (by decide) (by decide) rfl
  have hZero := hBreaks '0' (head?_hexadecimal value.toNat rest)
  exact absurd hZero (by decide)

/-- Values of all three shapes are legible: the first character tells the
shape. -/
theorem legible_renderWith_value (plain : Char → Bool) :
    Legible (TagValue.renderWith plain) := by
  intro value other rest more hRest hMore hSame
  have hFirst : value.firstChar = other.firstChar := by
    have hHeads := congrArg List.head? hSame
    rw [head?_renderWith_value, head?_renderWith_value] at hHeads
    exact Option.some.inj hHeads
  cases value <;> cases other
  case int.int value other =>
    exact (legible_hexadecimal hRest hMore hSame).imp_left fun hValues =>
      congrArg TagValue.int (UInt64.toNat_inj.mp hValues)
  case set.set values others =>
    exact (legible_set hRest hMore hSame).imp_left (congrArg TagValue.set)
  case text.text value other =>
    exact (legible_quoteWith plain hRest hMore hSame).imp_left (congrArg TagValue.text)
  all_goals
    dsimp only [TagValue.firstChar] at hFirst
    exact absurd hFirst (by decide)

end CycleTrace
