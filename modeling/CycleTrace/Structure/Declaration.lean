/-
Declarations of nodes, edges and clock domains.

A declaration is what a simulation says about a part of its structure before
the part has an identifier. The only limit it can break by itself is the
length of its name.
-/

import CycleTrace.Fault

namespace CycleTrace
namespace Structure

/-- How the instance number of a node is chosen. -/
inductive InstanceChoice where
  | fixed (number : UInt16)
  | next
deriving DecidableEq, Repr

/-- Checks the name of a node, edge or clock domain. -/
def checkName (name : String) : Except Fault Unit :=
  if name.utf8ByteSize > Limits.nameBytes then
    .error (.nameTooLong name.utf8ByteSize Limits.nameBytes)
  else .ok ()

/-- A node to be created. The occupants of an autoflush node leave when they
are not entered again; a relaxed one also lets them leave by request. -/
structure NodeDeclaration where
  name : String
  parent : Option NodeId := none
  instanceChoice : InstanceChoice := .fixed 0
  autoflush : Bool := false
  relaxed : Bool := false
deriving DecidableEq, Repr

/-- An edge to be created: at most `bandwidth` items per cycle, which arrive
after `latency` cycles. -/
structure EdgeDeclaration where
  source : NodeId
  destination : NodeId
  name : String
  bandwidth : UInt32 := 1
  latency : UInt32 := 1
deriving DecidableEq, Repr

/-- A clock domain to be created, with its frequency in hertz and the number
of divisions used when it is displayed. -/
structure ClockDeclaration where
  frequency : UInt64
  name : String
  skew : UInt16 := 0
  divisions : UInt16 := 1
deriving DecidableEq, Repr

/-- Checks a node by itself. -/
def NodeDeclaration.check (declaration : NodeDeclaration) : Except Fault Unit :=
  checkName declaration.name

/-- Checks an edge by itself. -/
def EdgeDeclaration.check (declaration : EdgeDeclaration) : Except Fault Unit :=
  checkName declaration.name

/-- Checks a clock domain by itself. -/
def ClockDeclaration.check (declaration : ClockDeclaration) : Except Fault Unit :=
  checkName declaration.name

end Structure
end CycleTrace
