/-
The last value of each tag of each node.

Only tags of whole nodes are remembered. Setting a tag to the value it has
already says nothing new.
-/

import Std.Data.TreeMap
import CycleTrace.Tag

namespace CycleTrace
namespace Recording

/-- For each tag name, the values of the nodes that have it. -/
structure TagMemory where
  values : Std.TreeMap String (Std.TreeMap NodeId TagValue) := {}

namespace TagMemory

/-- The last value of a tag of a node. -/
def value? (memory : TagMemory) (node : NodeId) (tag : String) : Option TagValue :=
  memory.values[tag]?.bind (·[node]?)

/-- Whether a value is the one remembered. -/
def repeats (memory : TagMemory) (node : NodeId) (tag : String) (value : TagValue) : Bool :=
  memory.value? node tag == some value

/-- Remembers a value. -/
def update (memory : TagMemory) (node : NodeId) (tag : String) (value : TagValue) : TagMemory :=
  { values := memory.values.insert tag ((memory.values.getD tag {}).insert node value) }

/-- The number of tag names. -/
def size (memory : TagMemory) : Nat :=
  memory.values.size

end TagMemory
end Recording
end CycleTrace
