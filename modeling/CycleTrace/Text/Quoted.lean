/-
Quoted text on one line.

A quotation stands between quotation marks. Inside it the quotation mark and
the backslash follow a backslash, four control characters have a letter of
their own (tabulator `t`, line feed `n`, carriage return `r`, null `0`), and
every other character that is not shown as itself is written as its code point
in braces. Which characters are shown as themselves is a parameter; the
library uses the visible ones.

No theorem is stated here. What makes a quotation safe in a line of text is
that the letter of a line feed takes precedence over the parameter.
-/

import CycleTrace.Text.Visible
import CycleTrace.Text.Numeral

namespace CycleTrace
namespace Text

/-- One character inside a quotation. -/
def escapeChar (plain : Char → Bool) (c : Char) : List Char :=
  if c = '\t' then ['\\', 't']
  else if c = '\r' then ['\\', 'r']
  else if c = '\n' then ['\\', 'n']
  else if c = '\x00' then ['\\', '0']
  else if c = '"' then ['\\', '"']
  else if c = '\\' then ['\\', '\\']
  else if plain c then [c]
  else ['\\', 'u', '{'] ++ hexDigits c.toNat ++ ['}']

/-- A quotation that shows the characters accepted by `plain` as themselves. -/
def quoteWith (plain : Char → Bool) (text : String) : String :=
  String.ofList ('"' :: (text.toList.flatMap (escapeChar plain) ++ ['"']))

/-- A quotation that shows the visible characters as themselves. -/
def quote (text : String) : String :=
  quoteWith isVisible text

end Text
end CycleTrace
