/-
Reading JSON.

The reader accepts the JSON grammar and nothing around the value but blanks.
It gives a document that keeps what a consumer may need: the order and
repetition of fields, whether a number is written as a natural number, and
whether a text is well formed. A text with an unpaired surrogate escape obeys
the grammar and has no characters; a consumer that needs the text refuses it,
one that ignores it need not.
-/

namespace CycleTrace
namespace Text

/-- A JSON value as it was written. -/
inductive Document where
  | null
  | bool (value : Bool)
  | natural (value : Nat)
  | otherNumber
  | string (value : Option String)
  | array (elements : List Document)
  | object (fields : List (Option String × Document))

namespace Document

/-! ### Texts -/

/-- A character of a text, or a UTF-16 unit written as an escape. -/
inductive Piece where
  | char (value : Char)
  | unit (value : Nat)
deriving DecidableEq, Repr

/-- The value of a hexadecimal digit. -/
def hexDigit? (c : Char) : Option Nat :=
  if '0' ≤ c && c ≤ '9' then some (c.toNat - '0'.toNat)
  else if 'a' ≤ c && c ≤ 'f' then some (c.toNat - 'a'.toNat + 10)
  else if 'A' ≤ c && c ≤ 'F' then some (c.toNat - 'A'.toNat + 10)
  else none

/-- The value of hexadecimal digits. -/
def hexValue? (digits : List Char) : Option Nat :=
  digits.foldlM (fun value c => (hexDigit? c).map (16 * value + ·)) 0

/-- The character that a letter after a backslash stands for. -/
def escaped? (c : Char) : Option Char :=
  match c with
  | '"' => some '"'
  | '\\' => some '\\'
  | '/' => some '/'
  | 'b' => some '\x08'
  | 'f' => some '\x0c'
  | 'n' => some '\n'
  | 'r' => some '\r'
  | 't' => some '\t'
  | _ => none

/-- Reads a text after its opening quotation mark, and what follows it. -/
def readPieces (earlier : List Piece) : List Char → Option (List Piece × List Char)
  | [] => none
  | '"' :: rest => some (earlier.reverse, rest)
  | '\\' :: 'u' :: a :: b :: c :: d :: rest =>
      match hexValue? [a, b, c, d] with
      | some unit => readPieces (.unit unit :: earlier) rest
      | none => none
  | '\\' :: c :: rest =>
      match escaped? c with
      | some c => readPieces (.char c :: earlier) rest
      | none => none
  | c :: rest =>
      if c.toNat < 0x20 then none else readPieces (.char c :: earlier) rest

/-- Whether a unit is the first half of a surrogate pair. -/
def isHighSurrogate (unit : Nat) : Bool :=
  0xd800 ≤ unit && unit < 0xdc00

/-- Whether a unit is the second half of a surrogate pair. -/
def isLowSurrogate (unit : Nat) : Bool :=
  0xdc00 ≤ unit && unit < 0xe000

/-- The text made of pieces, unless a surrogate has no partner. -/
def assemble (earlier : List Char) : List Piece → Option String
  | [] => some (String.ofList earlier.reverse)
  | .char c :: rest => assemble (c :: earlier) rest
  | .unit high :: .unit low :: rest =>
      if isHighSurrogate high then
        if isLowSurrogate low then
          let code := 0x10000 + (high - 0xd800) * 0x400 + (low - 0xdc00)
          assemble (Char.ofNat code :: earlier) rest
        else none
      else if isLowSurrogate high then none
      else assemble (Char.ofNat high :: earlier) (.unit low :: rest)
  | .unit unit :: rest =>
      if isHighSurrogate unit || isLowSurrogate unit then none
      else assemble (Char.ofNat unit :: earlier) rest

/-! ### Numbers -/

/-- Whether a character is a decimal digit. -/
def isDigit (c : Char) : Bool :=
  '0' ≤ c && c ≤ '9'

/-- The value of decimal digits. -/
def decimalValue (digits : List Char) : Nat :=
  digits.foldl (fun value c => 10 * value + (c.toNat - '0'.toNat)) 0

/-- Reads one or more digits. -/
def readDigits (text : List Char) : Option (List Char × List Char) :=
  let digits := text.takeWhile isDigit
  if digits.isEmpty then none else some (digits, text.dropWhile isDigit)

/-- Reads the fraction of a number, if there is one. -/
def readFraction : List Char → Option (Bool × List Char)
  | '.' :: rest => (readDigits rest).map fun (_, rest) => (true, rest)
  | rest => some (false, rest)

/-- Reads the exponent of a number, if there is one. -/
def readExponent (text : List Char) : Option (Bool × List Char) :=
  let unsigned (rest : List Char) :=
    match rest with
    | '+' :: rest | '-' :: rest => rest
    | rest => rest
  match text with
  | 'e' :: rest | 'E' :: rest => (readDigits (unsigned rest)).map fun (_, rest) => (true, rest)
  | rest => some (false, rest)

/-- Reads a number. Without sign, fraction and exponent it is natural. -/
def readNumber (text : List Char) : Option (Document × List Char) := do
  let negative := text.head? == some '-'
  let (digits, rest) ← readDigits (if negative then text.drop 1 else text)
  if digits.head? == some '0' && digits.length > 1 then none
  let (fraction, rest) ← readFraction rest
  let (exponent, rest) ← readExponent rest
  let natural := !(negative || fraction || exponent)
  return (if natural then .natural (decimalValue digits) else .otherNumber, rest)

/-! ### Values -/

/-- Skips the blanks allowed between the parts of a document. -/
def skipBlanks (text : List Char) : List Char :=
  text.dropWhile fun c => c == ' ' || c == '\n' || c == '\r' || c == '\t'

/-- Skips blanks and one expected character. -/
def expect (c : Char) (text : List Char) : Option (List Char) :=
  match skipBlanks text with
  | head :: rest => if head = c then some rest else none
  | [] => none

/-- Reads a given word. -/
def readWord (word : String) (value : Document) (text : List Char) :
    Option (Document × List Char) :=
  let length := word.toList.length
  if text.take length = word.toList then some (value, text.drop length) else none

/-- Reads a text with its quotation marks. -/
def readString (text : List Char) : Option (Option String × List Char) := do
  let rest ← expect '"' text
  let (pieces, rest) ← readPieces [] rest
  return (assemble [] pieces, rest)

mutual

/-- Reads a value of at most `fuel` parts. -/
def readValue : (fuel : Nat) → List Char → Option (Document × List Char)
  | 0, _ => none
  | fuel + 1, text =>
      match skipBlanks text with
      | [] => none
      | 'n' :: rest => readWord "null" .null ('n' :: rest)
      | 't' :: rest => readWord "true" (.bool true) ('t' :: rest)
      | 'f' :: rest => readWord "false" (.bool false) ('f' :: rest)
      | '"' :: rest =>
          (readString ('"' :: rest)).map fun (value, rest) => (.string value, rest)
      | '[' :: rest =>
          match skipBlanks rest with
          | ']' :: rest => some (.array [], rest)
          | rest => readElements fuel [] rest
      | '{' :: rest =>
          match skipBlanks rest with
          | '}' :: rest => some (.object [], rest)
          | rest => readFields fuel [] rest
      | rest => readNumber rest

/-- Reads the elements of an array up to its bracket. -/
def readElements : (fuel : Nat) → List Document → List Char → Option (Document × List Char)
  | 0, _, _ => none
  | fuel + 1, earlier, text =>
      match readValue fuel text with
      | none => none
      | some (element, rest) =>
          match skipBlanks rest with
          | ',' :: rest => readElements fuel (element :: earlier) rest
          | ']' :: rest => some (.array (element :: earlier).reverse, rest)
          | _ => none

/-- Reads the fields of an object up to its brace. -/
def readFields : (fuel : Nat) → List (Option String × Document) → List Char →
    Option (Document × List Char)
  | 0, _, _ => none
  | fuel + 1, earlier, text =>
      match readString text with
      | none => none
      | some (key, rest) =>
          match (expect ':' rest).bind (readValue fuel) with
          | none => none
          | some (value, rest) =>
              match skipBlanks rest with
              | ',' :: rest => readFields fuel ((key, value) :: earlier) rest
              | '}' :: rest => some (.object ((key, value) :: earlier).reverse, rest)
              | _ => none

end

/-- The document written by a text. Every part of a value takes a character. -/
def ofText? (text : String) : Option Document :=
  let chars := text.toList
  match readValue (2 * chars.length + 1) chars with
  | none => none
  | some (document, rest) => if (skipBlanks rest).isEmpty then some document else none

end Document
end Text
end CycleTrace
