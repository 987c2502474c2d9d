/-
Instance numbers of nodes that share a name.

For each name the highest number in use is kept. The next number is one more,
or 0 for a new name; at 65535 the numbers end and the last one is given again.
-/

import Std.Data.TreeMap

namespace CycleTrace
namespace Structure

/-- The highest instance number of each name. -/
structure InstanceNumbers where
  highest : Std.TreeMap String UInt16 := {}

namespace InstanceNumbers

/-- Notes that a name has an instance of this number. -/
def record (numbers : InstanceNumbers) (name : String) (number : UInt16) : InstanceNumbers :=
  let known := numbers.highest.getD name number
  { highest := numbers.highest.insert name (if known < number then number else known) }

/-- The number after the highest one of a name. -/
def next (numbers : InstanceNumbers) (name : String) : UInt16 :=
  match numbers.highest[name]? with
  | none => 0
  | some number => if number = 65535 then number else number + 1

/-- The number of names. -/
def size (numbers : InstanceNumbers) : Nat :=
  numbers.highest.size

end InstanceNumbers
end Structure
end CycleTrace
