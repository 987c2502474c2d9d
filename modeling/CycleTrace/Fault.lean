/-
What can go wrong while a trace is recorded or read.

Each constructor is a cause with the values its message needs. A fault of a
recording call says that the caller broke a rule of the recorder; a fault of
reading says what the bytes lack. `Fault.message` is the one place where the
wording is fixed, and `Fault.exitCode` the one place that ranks faults for a
command line.

This file defines no exception mechanism: functions that can fail say so in
their types.
-/

import CycleTrace.Limits
import CycleTrace.Text.Numeral

namespace CycleTrace

/-- The three spaces of 16-bit identifiers. -/
inductive IdSpace where
  | node
  | edge
  | clock
deriving DecidableEq, Repr

/-- Word for an identifier space. -/
def IdSpace.name : IdSpace → String
  | .node => "node"
  | .edge => "edge"
  | .clock => "clock"

/-- Why a group of items cannot be moved. -/
inductive MoveDefect where
  | tooManyItems
  | unpairedPositions
  | positionBeyondBandwidth
deriving DecidableEq, Repr

/-- Wording of a defect of a move. -/
def MoveDefect.message : MoveDefect → String
  | .tooManyItems => "too many items"
  | .unpairedPositions => "positions do not pair with items"
  | .positionBeyondBandwidth => "position beyond edge bandwidth"

/-- A cause of failure. -/
inductive Fault where
  | nameTooLong (length limit : Nat)
  | tagNameTooLong (length limit : Nat)
  | tagTextTooLong (length limit : Nat)
  | tagSetTooLong (length limit : Nat)
  | invalidItem
  | nodeNotFound (node : NodeId)
  | edgeNotFound (edge : EdgeId)
  | clockNotFound (clock : ClockId)
  | duplicateNode (node : NodeId)
  | duplicateEdge (edge : EdgeId)
  | idSpaceExhausted (space : IdSpace)
  | layoutAlreadySet (node : NodeId)
  | invalidLayout (node : NodeId)
  | missingLayout (node : NodeId)
  | tooManyDimensions (count limit : Nat)
  | dimensionMismatch (node : NodeId) (expected count : Nat)
  | positionOutOfRange (node : NodeId) (dimension : Nat) (position size : UInt32)
  | exitOnAutoflush (node : NodeId)
  | exitMismatch (node : NodeId) (item occupant : ItemId)
  | invalidMove (edge : EdgeId) (defect : MoveDefect)
  | reservedMagic (magic : UInt32)
  | sinkClosed
  | inputOutput (detail : String)
  | compression (detail : String)
  | truncated
  | unknownCommand (code : UInt8) (offset : Nat)
  | missingVersion
  | unsupportedVersion (major minor : UInt16)
  | invalidPhase (phase : UInt8) (offset : Nat)
  | undefinedTag (tag : UInt8)
  | undefinedText (text : UInt16)
  | invalidUtf8 (offset : Nat)
deriving DecidableEq, Repr

namespace Fault

/-- Wording of a length that passed its limit. -/
def excess (what : String) (length limit : Nat) : String :=
  what ++ ": " ++ toString length ++ " > " ++ toString limit

/-- The message shown for a fault. -/
def message : Fault → String
  | nameTooLong length limit => excess "Name exceeds maximum length" length limit
  | tagNameTooLong length limit => excess "Tag name exceeds maximum length" length limit
  | tagTextTooLong length limit => excess "Tag string exceeds maximum length" length limit
  | tagSetTooLong length limit => excess "Tag set has too many elements" length limit
  | invalidItem => "Item id 0 is reserved and cannot be used"
  | nodeNotFound node => "Node ID " ++ toString node ++ " not found"
  | edgeNotFound edge => "Edge ID " ++ toString edge ++ " not found"
  | clockNotFound clock => "Clock ID " ++ toString clock ++ " not found"
  | duplicateNode node => "Node ID " ++ toString node ++ " already defined"
  | duplicateEdge edge => "Edge ID " ++ toString edge ++ " already defined"
  | idSpaceExhausted space => "No free " ++ space.name ++ " ids left"
  | layoutAlreadySet node => "Layout of node " ++ toString node ++ " already set"
  | invalidLayout node =>
      "Invalid layout for node " ++ toString node ++ ": every dimension must be non-zero"
  | missingLayout node => "Autoflush node " ++ toString node ++ " has no layout"
  | tooManyDimensions count limit => excess "Too many dimensions" count limit
  | dimensionMismatch node expected count =>
      "Position dimension mismatch on node " ++ toString node ++ ": expected "
        ++ toString expected ++ ", got " ++ toString count
  | positionOutOfRange node dimension position size =>
      "Position " ++ toString position ++ " out of range on node " ++ toString node
        ++ " (dimension " ++ toString dimension ++ " has size " ++ toString size ++ ")"
  | exitOnAutoflush node => "ExitNode not allowed on autoflush node " ++ toString node
  | exitMismatch node item occupant =>
      "ExitNode of item " ++ toString item ++ " on node " ++ toString node
        ++ " does not match occupant " ++ toString occupant
  | invalidMove edge defect =>
      "Invalid MoveItems on edge " ++ toString edge ++ ": " ++ defect.message
  | reservedMagic magic =>
      "Comment magic " ++ Text.hexadecimal magic.toNat ++ " is reserved"
  | sinkClosed => "Trace sink is not open"
  | inputOutput detail => "IO error: " ++ detail
  | compression detail => "Compression error: " ++ detail
  | truncated => "Trace is empty or truncated"
  | unknownCommand code offset =>
      "Unknown command code " ++ toString code ++ " at offset " ++ toString offset
  | missingVersion => "Trace does not start with a VERSION command"
  | unsupportedVersion major minor =>
      "Unsupported format version: " ++ toString major ++ "." ++ toString minor
  | invalidPhase phase offset =>
      "Invalid clock phase " ++ toString phase ++ " at offset " ++ toString offset
  | undefinedTag tag => "Tag id " ++ toString tag ++ " used before definition"
  | undefinedText text => "String id " ++ toString text ++ " used before definition"
  | invalidUtf8 offset => "Invalid UTF-8 at offset " ++ toString offset

/-- The exit code of a command line that ends with a fault: 1 when files are
at fault, 2 when the trace is, 5 when the caller is. -/
def exitCode : Fault → UInt32
  | inputOutput _ => 1
  | truncated | unknownCommand .. | missingVersion | unsupportedVersion ..
  | undefinedTag _ | undefinedText _ | invalidUtf8 _ | invalidPhase ..
  | compression _ => 2
  | _ => 5

end Fault
end CycleTrace
