/-
The text form of a command: one line with absolute identifiers.

A line starts with the name of the command. Texts are quoted, lists stand in
brackets, a missing parent is a dash, magics have eight hexadecimal digits and
binary data is written as hexadecimal bytes with their count before them.

Which characters a quotation leaves as they are is a parameter of
`Command.renderWith`; `Command.render` leaves the visible ones.
-/

import CycleTrace.Command

namespace CycleTrace
namespace Command

/-- Numbers in brackets. -/
def listText (values : List UInt32) : String :=
  "[" ++ String.intercalate "," (values.map toString) ++ "]"

/-- A list of positions as a field that is left out when empty. -/
def positionField (positions : List UInt32) : String :=
  if positions.isEmpty then "" else " pos=" ++ listText positions

/-- The line of a command, without the line feed. -/
def renderWith (plain : Char → Bool) (command : Command) : String :=
  let quoted := Text.quoteWith plain
  let fields : String := match command with
    | version major minor => toString major ++ "." ++ toString minor
    | newNode id name parent instanceNumber =>
        toString id ++ " name=" ++ quoted name ++ " parent="
          ++ (match parent with
              | some parent => toString parent
              | none => "-")
          ++ " instance=" ++ toString instanceNumber
    | newEdge id source destination bandwidth latency name =>
        toString id ++ " name=" ++ quoted name ++ " source=" ++ toString source
          ++ " destination=" ++ toString destination ++ " bandwidth=" ++ toString bandwidth
          ++ " latency=" ++ toString latency
    | newItem id | deleteItem id => toString id
    | moveItems edge items positions =>
        "edge=" ++ toString edge ++ " items=" ++ listText items ++ positionField positions
    | enterNode node item position | exitNode node item position =>
        "node=" ++ toString node ++ " item=" ++ toString item ++ " pos=" ++ listText position
    | setLayout node dimensions =>
        "node=" ++ toString node ++ " dims=" ++ listText dimensions
    | tagItem item tag value =>
        "item=" ++ toString item ++ " tag=" ++ quoted tag ++ " value=" ++ value.renderWith plain
    | tagNode node tag value position =>
        "node=" ++ toString node ++ " tag=" ++ quoted tag ++ " value="
          ++ value.renderWith plain ++ positionField position
    | tagCycle tag value => "tag=" ++ quoted tag ++ " value=" ++ value.renderWith plain
    | describeTag tag description =>
        "tag=" ++ quoted tag ++ " description=" ++ quoted description
    | setInputBandwidth node bandwidth | setOutputBandwidth node bandwidth =>
        "node=" ++ toString node ++ " bandwidth=" ++ toString bandwidth
    | newClock id frequency skew divisions name =>
        toString id ++ " name=" ++ quoted name ++ " frequency=" ++ toString frequency
          ++ " skew=" ++ toString skew ++ " divisions=" ++ toString divisions
    | setClock node clock => "node=" ++ toString node ++ " clock=" ++ toString clock
    | cycle number | startActivity number => toString number
    | clockedCycle ⟨clock, number, phase⟩ =>
        "clock=" ++ toString clock ++ " cycle=" ++ toString number ++ " phase=" ++ phase.name
    | comment magic text =>
        "magic=" ++ Text.hexadecimalWord magic ++ " text=" ++ quoted text
    | commentBytes magic data =>
        "magic=" ++ Text.hexadecimalWord magic ++ " len=" ++ toString data.length
          ++ " data=" ++ Text.hexBytes data
    | defineTag id name => toString id ++ " name=" ++ quoted name
    | defineText id value => toString id ++ " value=" ++ quoted value
  command.name ++ " " ++ fields

/-- The line of a command with the visible characters of texts left as they are. -/
def render (command : Command) : String :=
  command.renderWith Text.isVisible

end Command
end CycleTrace
