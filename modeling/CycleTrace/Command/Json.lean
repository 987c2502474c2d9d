/-
The JSON form of a command: an object whose first field names the command.

The remaining fields follow in the order in which the command declares them.
An integer tag value is a number, a set is an array and a text is a text.
-/

import CycleTrace.Command
import CycleTrace.Text.Json

namespace CycleTrace

open Text (Json)

/-- The JSON form of a tag value. -/
def TagValue.toJson : TagValue → Json
  | .int value => .number value.toNat
  | .set values => .array (values.map fun value => .number value.toNat)
  | .text value => .string value

namespace Command

/-- The word for a command in its JSON form. -/
def jsonName : Command → String
  | version .. => "version"
  | newNode .. => "new_node"
  | newEdge .. => "new_edge"
  | newItem .. => "new_item"
  | deleteItem .. => "delete_item"
  | moveItems .. => "move_items"
  | enterNode .. => "enter_node"
  | exitNode .. => "exit_node"
  | setLayout .. => "set_node_layout"
  | tagItem .. => "set_item_tag"
  | tagNode .. => "set_node_tag"
  | tagCycle .. => "set_cycle_tag"
  | describeTag .. => "set_tag_description"
  | setInputBandwidth .. => "set_node_input_bandwidth"
  | setOutputBandwidth .. => "set_node_output_bandwidth"
  | newClock .. => "new_clock"
  | setClock .. => "set_node_clock"
  | cycle .. => "cycle"
  | clockedCycle .. => "cycle_with_clock"
  | comment .. => "comment"
  | commentBytes .. => "comment_bin"
  | startActivity .. => "start_activity"
  | defineTag .. => "define_tag"
  | defineText .. => "define_string"

/-- The numbers of a list as a JSON array. -/
def jsonWords (values : List UInt32) : Json :=
  .array (values.map fun value => .number value.toNat)

/-- The fields of a command after its name. -/
def jsonFields : Command → List (String × Json)
  | version major minor => [("major", .number major.toNat), ("minor", .number minor.toNat)]
  | newNode id name parent instanceNumber =>
      [("id", .number id.toNat), ("name", .string name),
        ("parent", match parent with
          | some parent => .number parent.toNat
          | none => .null),
        ("instance", .number instanceNumber.toNat)]
  | newEdge id source destination bandwidth latency name =>
      [("id", .number id.toNat), ("source", .number source.toNat),
        ("destination", .number destination.toNat), ("bandwidth", .number bandwidth.toNat),
        ("latency", .number latency.toNat), ("name", .string name)]
  | newItem id | deleteItem id => [("id", .number id.toNat)]
  | moveItems edge items positions =>
      [("edge", .number edge.toNat), ("items", jsonWords items),
        ("positions", jsonWords positions)]
  | enterNode node item position | exitNode node item position =>
      [("node", .number node.toNat), ("item", .number item.toNat),
        ("position", jsonWords position)]
  | setLayout node dimensions =>
      [("node", .number node.toNat), ("dimensions", jsonWords dimensions)]
  | tagItem item tag value =>
      [("item", .number item.toNat), ("tag", .string tag), ("value", value.toJson)]
  | tagNode node tag value position =>
      [("node", .number node.toNat), ("tag", .string tag), ("value", value.toJson),
        ("position", jsonWords position)]
  | tagCycle tag value => [("tag", .string tag), ("value", value.toJson)]
  | describeTag tag description =>
      [("tag", .string tag), ("description", .string description)]
  | setInputBandwidth node bandwidth | setOutputBandwidth node bandwidth =>
      [("node", .number node.toNat), ("bandwidth", .number bandwidth.toNat)]
  | newClock id frequency skew divisions name =>
      [("id", .number id.toNat), ("frequency", .number frequency.toNat),
        ("skew", .number skew.toNat), ("divisions", .number divisions.toNat),
        ("name", .string name)]
  | setClock node clock => [("node", .number node.toNat), ("clock", .number clock.toNat)]
  | cycle number | startActivity number => [("cycle", .number number.toNat)]
  | clockedCycle ⟨clock, number, phase⟩ =>
      [("clock", .number clock.toNat), ("cycle", .number number.toNat),
        ("phase", .string phase.name)]
  | comment magic text => [("magic", .number magic.toNat), ("text", .string text)]
  | commentBytes magic data =>
      [("magic", .number magic.toNat),
        ("data", .array (data.map fun byte => .number byte.toNat))]
  | defineTag id name => [("id", .number id.toNat), ("name", .string name)]
  | defineText id value => [("id", .number id.toNat), ("value", .string value)]

/-- The JSON form of a command. -/
def toJson (command : Command) : Json :=
  .object (("command", .string command.jsonName) :: command.jsonFields)

end Command
end CycleTrace
