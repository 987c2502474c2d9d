/-
JSON values and their two printed forms.

The values are those that occur in the output of this library: integers are
natural numbers, and an object is a list of fields in the order in which they
are printed. The compact form has no blanks. The indented form puts every
element and field on a line of its own, two blanks deeper than the bracket
that opens it; empty arrays and objects stay on one line.

In a text only the quotation mark, the backslash and the control characters
below the blank are escaped.
-/

import CycleTrace.Text.Numeral

namespace CycleTrace
namespace Text

/-- A JSON value. -/
inductive Json where
  | null
  | bool (value : Bool)
  | number (value : Nat)
  | string (value : String)
  | array (elements : List Json)
  | object (fields : List (String × Json))

namespace Json

/-- One character inside a JSON text. -/
def escapeChar (c : Char) : List Char :=
  if c = '"' then ['\\', '"']
  else if c = '\\' then ['\\', '\\']
  else if c = '\n' then ['\\', 'n']
  else if c = '\r' then ['\\', 'r']
  else if c = '\t' then ['\\', 't']
  else if c = '\x08' then ['\\', 'b']
  else if c = '\x0c' then ['\\', 'f']
  else if c.toNat < 0x20 then ['\\', 'u'] ++ paddedHexDigits 4 c.toNat
  else [c]

/-- A JSON text. -/
def quote (text : String) : String :=
  String.ofList ('"' :: (text.toList.flatMap escapeChar ++ ['"']))

/-- The blanks before a line of the indented form. -/
def indentation (depth : Nat) : String :=
  String.ofList (List.replicate (2 * depth) ' ')

/-- Brackets around the lines of an indented array or object. -/
def bracketed (left right : String) (depth : Nat) (lines : List String) : String :=
  if lines.isEmpty then left ++ right
  else
    left ++ "\n" ++ String.intercalate ",\n" (lines.map (indentation (depth + 1) ++ ·))
      ++ "\n" ++ indentation depth ++ right

mutual

/-- The form without blanks. -/
def compact : Json → String
  | null => "null"
  | bool value => if value then "true" else "false"
  | number value => toString value
  | string value => quote value
  | array elements => "[" ++ String.intercalate "," (compactElements #[] elements).toList ++ "]"
  | object fields =>
      "\x7b" ++ String.intercalate "," (compactFields #[] fields).toList ++ "\x7d"

/-- The elements of an array in compact form, after those already printed. -/
def compactElements (printed : Array String) : List Json → Array String
  | [] => printed
  | element :: rest => compactElements (printed.push (compact element)) rest

/-- The fields of an object in compact form, after those already printed. -/
def compactFields (printed : Array String) : List (String × Json) → Array String
  | [] => printed
  | (key, value) :: rest => compactFields (printed.push (quote key ++ ":" ++ compact value)) rest

end

mutual

/-- The indented form of a value that starts at the given depth. -/
def indentedAt (depth : Nat) : Json → String
  | null => "null"
  | bool value => if value then "true" else "false"
  | number value => toString value
  | string value => quote value
  | array elements =>
      bracketed "[" "]" depth (indentedElements (depth + 1) #[] elements).toList
  | object fields =>
      bracketed "\x7b" "\x7d" depth (indentedFields (depth + 1) #[] fields).toList

/-- The elements of an array in indented form, after those already printed. -/
def indentedElements (depth : Nat) (printed : Array String) : List Json → Array String
  | [] => printed
  | element :: rest => indentedElements depth (printed.push (indentedAt depth element)) rest

/-- The fields of an object in indented form, after those already printed. -/
def indentedFields (depth : Nat) (printed : Array String) : List (String × Json) → Array String
  | [] => printed
  | (key, value) :: rest =>
      indentedFields depth (printed.push (quote key ++ ": " ++ indentedAt depth value)) rest

end

/-- The indented form. -/
def indented (value : Json) : String :=
  indentedAt 0 value

end Json
end Text
end CycleTrace
