/-
Values of tags.

A tag is a name with a value: an integer, a short set of integers kept in the
order given, or a text. Integers are 64-bit patterns; a signed integer keeps
its two's-complement pattern.
-/

import CycleTrace.Fault
import CycleTrace.Text.Quoted

namespace CycleTrace

/-- The value half of a tag. -/
inductive TagValue where
  | int (value : UInt64)
  | set (values : List UInt64)
  | text (value : String)
deriving DecidableEq, Repr

namespace TagValue

/-- The pattern of a signed integer. -/
def ofInt (value : Int) : TagValue :=
  .int (UInt64.ofInt value)

/-- The value of a truth value is 0 or 1. -/
def ofBool (value : Bool) : TagValue :=
  .int (if value then 1 else 0)

/-- The value of a character is its code point. -/
def ofChar (value : Char) : TagValue :=
  .int (UInt64.ofNat value.toNat)

/-- Checks a value against the limits of the recorder. -/
def check : TagValue → Except Fault Unit
  | .int _ => .ok ()
  | .set values =>
      if values.length > Limits.setElements then
        .error (.tagSetTooLong values.length Limits.setElements)
      else .ok ()
  | .text value =>
      if value.utf8ByteSize > Limits.tagTextBytes then
        .error (.tagTextTooLong value.utf8ByteSize Limits.tagTextBytes)
      else .ok ()

/-- The text of a value: hexadecimal integers, sets in braces, quoted texts. -/
def renderWith (plain : Char → Bool) : TagValue → String
  | .int value => Text.hexadecimal value.toNat
  | .set values =>
      "\x7b" ++ String.intercalate "," (values.map fun value => Text.hexadecimal value.toNat)
        ++ "\x7d"
  | .text value => Text.quoteWith plain value

/-- The text of a value with the visible characters of texts left as they are. -/
def render (value : TagValue) : String :=
  value.renderWith Text.isVisible

end TagValue

/-- Checks a tag name against the limits of the recorder. -/
def checkTagName (name : String) : Except Fault Unit :=
  if name.utf8ByteSize > Limits.tagNameBytes then
    .error (.tagNameTooLong name.utf8ByteSize Limits.tagNameBytes)
  else .ok ()

/-- Checks the description of a tag against the limits of the recorder. -/
def checkDescription (description : String) : Except Fault Unit :=
  if description.utf8ByteSize > Limits.tagTextBytes then
    .error (.tagTextTooLong description.utf8ByteSize Limits.tagTextBytes)
  else .ok ()

end CycleTrace
