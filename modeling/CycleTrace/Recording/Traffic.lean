/-
Traffic on edges.

The items moved over an edge are counted per cycle, up to the largest 32-bit
number. Ending a cycle raises the mark of every edge that carried items and
starts the counts again.
-/

import Std.Data.TreeMap
import CycleTrace.Limits

namespace CycleTrace
namespace Recording

/-- The sum of two counts, or the largest count. -/
def saturatingAdd (left right : UInt32) : UInt32 :=
  UInt32.ofNat (min (left.toNat + right.toNat) (UInt32.size - 1))

/-- The counts of the cycle under way and the highest counts of ended cycles. -/
structure Traffic where
  current : Std.TreeMap EdgeId UInt32 := {}
  highest : Std.TreeMap EdgeId UInt32 := {}

namespace Traffic

/-- Counts items moved over an edge; of the number only the low 32 bits count. -/
def add (traffic : Traffic) (edge : EdgeId) (count : Nat) : Traffic :=
  { traffic with
    current := traffic.current.insert edge
      (saturatingAdd (traffic.current.getD edge 0) (UInt32.ofNat count)) }

/-- Ends a cycle. -/
def endCycle (traffic : Traffic) : Traffic :=
  { current := {}
    highest := traffic.current.foldl
      (fun highest edge count => highest.insert edge (max (highest.getD edge 0) count))
      traffic.highest }

/-- The highest count of an edge, the cycle under way included. -/
def highest? (traffic : Traffic) (edge : EdgeId) : Option UInt32 :=
  match traffic.highest[edge]?, traffic.current[edge]? with
  | some ended, some running => some (max ended running)
  | some ended, none => some ended
  | none, running => running

end Traffic
end Recording
end CycleTrace
