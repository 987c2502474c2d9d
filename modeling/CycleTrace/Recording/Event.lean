/-
What a simulator reports, and what a report leads to.

An event is one report about the simulated machine. It leads to commands, each
dispatched to the output or the replay store, and to a reply. Whether a command
is persistent decides what becomes of it while nothing is being recorded. A
synthesized command was not asked for: it follows from what the machine was
known to hold.

This file gives no event a meaning; see the module on the machine.
-/

import CycleTrace.Command
import CycleTrace.Structure.Declaration

namespace CycleTrace
namespace Recording

open Structure (NodeDeclaration EdgeDeclaration ClockDeclaration)

/-- A report about the simulated machine. Identifiers that are not given are
chosen by the recorder. -/
inductive Event where
  | newNode (declaration : NodeDeclaration) (id : Option NodeId)
  | newEdge (declaration : EdgeDeclaration) (id : Option EdgeId)
  | newClock (declaration : ClockDeclaration)
  | setLayout (node : NodeId) (dimensions : List UInt32)
  | setClock (node : NodeId) (clock : ClockId)
  | setInputBandwidth (node : NodeId) (bandwidth : UInt32)
  | setOutputBandwidth (node : NodeId) (bandwidth : UInt32)
  | newItem (id : Option ItemId)
  | deleteItem (item : ItemId)
  | moveItems (edge : EdgeId) (items : List ItemId) (positions : List UInt32)
  | enterNode (node : NodeId) (item : ItemId) (position : List UInt32)
  | exitNode (node : NodeId) (item : ItemId) (position : List UInt32)
  | tagNode (node : NodeId) (tag : String) (value : TagValue)
  | tagSlot (node : NodeId) (position : List UInt32) (tag : String) (value : TagValue)
  | tagItem (item : ItemId) (tag : String) (value : TagValue)
  | tagCycle (tag : String) (value : TagValue)
  | describeTag (tag : String) (description : String)
  | cycle (number : UInt64)
  | clockedCycle (cycle : ClockedCycle)
  | comment (magic : UInt32) (text : String)
  | commentBytes (magic : UInt32) (data : List UInt8)
  | startActivity (cycle : UInt64)
deriving DecidableEq, Repr

/-- A command on its way to the output or the replay store. -/
structure Dispatch where
  command : Command
  persistent : Bool
  synthesized : Bool := false
deriving DecidableEq, Repr

/-- Why a call had no effect although it did not fail. -/
inductive Notice where
  | alreadyOn
  | alreadyOff
  | fileChangeWhileOn
  | formChangeWhileOn
deriving DecidableEq, Repr

/-- Wording of a notice. -/
def Notice.message : Notice → String
  | .alreadyOn => "turn_on called while tracing is already on"
  | .alreadyOff => "turn_off called while tracing is already off"
  | .fileChangeWhileOn => "change_file_name ignored while tracing is on"
  | .formChangeWhileOn => "set_ascii_mode ignored while tracing is on"

/-- What a call answers. -/
inductive Reply where
  | done
  | node (id : NodeId)
  | edge (id : EdgeId)
  | clock (id : ClockId)
  | item (id : ItemId)
  | ignored (notice : Notice)
deriving DecidableEq, Repr

end Recording
end CycleTrace
