/-
Commands of a trace.

A trace is a list of commands. Most of them report one event of the simulated
machine: a declaration, a movement, a tag, a cycle. `version` opens a stream,
and the two definitions bind short identifiers to tag names and text values
inside a binary stream; no recorder call produces a definition.

`Command.FitsWire` states the limits of the binary format. They are wider than
the limits of the recorder.
-/

import CycleTrace.Tag

namespace CycleTrace

/-- Which half of a clock period a clocked cycle reports. -/
inductive ClockPhase where
  | high
  | low
deriving DecidableEq, Repr

namespace ClockPhase

/-- Word for a phase. -/
def name : ClockPhase → String
  | .high => "high"
  | .low => "low"

/-- The byte that stands for a phase in a binary stream. -/
def toByte : ClockPhase → UInt8
  | .high => 0
  | .low => 1

/-- The phase a byte stands for. -/
def ofByte? (byte : UInt8) : Option ClockPhase :=
  if byte = 0 then some .high
  else if byte = 1 then some .low
  else none

theorem ofByte?_toByte (phase : ClockPhase) : ofByte? phase.toByte = some phase := by
  cases phase <;> rfl

end ClockPhase

/-- A cycle of one clock domain. -/
structure ClockedCycle where
  clock : ClockId
  cycle : UInt64
  phase : ClockPhase
deriving DecidableEq, Repr

/-- One command of a trace. -/
inductive Command where
  | version (major minor : UInt16)
  | newNode (id : NodeId) (name : String) (parent : Option NodeId) (instanceNumber : UInt16)
  | newEdge (id : EdgeId) (source destination : NodeId) (bandwidth latency : UInt32)
      (name : String)
  | newItem (id : ItemId)
  | deleteItem (id : ItemId)
  | moveItems (edge : EdgeId) (items : List ItemId) (positions : List UInt32)
  | enterNode (node : NodeId) (item : ItemId) (position : List UInt32)
  | exitNode (node : NodeId) (item : ItemId) (position : List UInt32)
  | setLayout (node : NodeId) (dimensions : List UInt32)
  | tagItem (item : ItemId) (tag : String) (value : TagValue)
  | tagNode (node : NodeId) (tag : String) (value : TagValue) (position : List UInt32)
  | tagCycle (tag : String) (value : TagValue)
  | describeTag (tag : String) (description : String)
  | setInputBandwidth (node : NodeId) (bandwidth : UInt32)
  | setOutputBandwidth (node : NodeId) (bandwidth : UInt32)
  | newClock (id : ClockId) (frequency : UInt64) (skew divisions : UInt16) (name : String)
  | setClock (node : NodeId) (clock : ClockId)
  | cycle (cycle : UInt64)
  | clockedCycle (cycle : ClockedCycle)
  | comment (magic : UInt32) (text : String)
  | commentBytes (magic : UInt32) (data : List UInt8)
  | startActivity (cycle : UInt64)
  | defineTag (id : UInt8) (name : String)
  | defineText (id : UInt16) (value : String)
deriving DecidableEq, Repr

namespace Command

/-- Short lower-case name of a command. -/
def name : Command → String
  | version .. => "version"
  | newNode .. => "newnode"
  | newEdge .. => "newedge"
  | newItem .. => "newitem"
  | deleteItem .. => "deleteitem"
  | moveItems .. => "moveitems"
  | enterNode .. => "enternode"
  | exitNode .. => "exitnode"
  | setLayout .. => "setnodelayout"
  | tagItem .. => "setitemtag"
  | tagNode .. => "setnodetag"
  | tagCycle .. => "setcycletag"
  | describeTag .. => "settagdescription"
  | setInputBandwidth .. => "setnodeinputbandwidth"
  | setOutputBandwidth .. => "setnodeoutputbandwidth"
  | newClock .. => "newclock"
  | setClock .. => "setnodeclock"
  | cycle .. => "cycle"
  | clockedCycle .. => "cyclewithclock"
  | comment .. => "comment"
  | commentBytes .. => "commentbin"
  | startActivity .. => "startactivity"
  | defineTag .. => "newtag"
  | defineText .. => "newstringvalue"

/-- A definition belongs to the stream that holds it, not to the simulation. -/
def isDefinition : Command → Bool
  | defineTag .. | defineText .. => true
  | _ => false

/-- The cycle a command starts, if it starts one. -/
def startedCycle? : Command → Option UInt64
  | cycle number => some number
  | clockedCycle clocked => some clocked.cycle
  | _ => none

/-- The tag name a command refers to. -/
def tagName? : Command → Option String
  | tagItem _ tag _ | tagNode _ tag _ _ | tagCycle tag _ | describeTag tag _ => some tag
  | _ => none

/-- The text value a command refers to. -/
def textValue? : Command → Option String
  | tagItem _ _ (.text value) | tagNode _ _ (.text value) _ | tagCycle _ (.text value) =>
      some value
  | _ => none

/-! ### Limits of the binary format -/

/-- A text whose byte count fits 16 bits. -/
def ShortText (text : String) : Prop :=
  text.utf8ByteSize < 65536

/-- A value whose counts fit the fields of the binary format. -/
def ValueFits : TagValue → Prop
  | .int _ => True
  | .set values => values.length ≤ 255
  | .text value => ShortText value

/-- A command whose counts and lengths fit the fields of the binary format. -/
def FitsWire : Command → Prop
  | version major _ => major = formatMajor
  | newNode _ name _ _ | newEdge _ _ _ _ _ name | newClock _ _ _ _ name => ShortText name
  | moveItems _ items positions =>
      items.length ≤ 65535 ∧ (positions = [] ∨ positions.length = items.length)
  | enterNode _ _ position | exitNode _ _ position => position.length ≤ 15
  | setLayout _ dimensions => dimensions.length ≤ 15
  | tagItem _ tag value | tagCycle tag value => ShortText tag ∧ ValueFits value
  | tagNode _ tag value position => ShortText tag ∧ ValueFits value ∧ position.length ≤ 15
  | describeTag tag description => ShortText tag ∧ ShortText description
  | comment _ text => text.utf8ByteSize < UInt32.size
  | commentBytes _ data => data.length < UInt32.size
  | defineTag _ name => ShortText name
  | defineText _ value => ShortText value
  | _ => True

instance (text : String) : Decidable (ShortText text) :=
  inferInstanceAs (Decidable (text.utf8ByteSize < 65536))

instance : (value : TagValue) → Decidable (ValueFits value)
  | .int _ => isTrue trivial
  | .set values => inferInstanceAs (Decidable (values.length ≤ 255))
  | .text value => inferInstanceAs (Decidable (ShortText value))

instance : (command : Command) → Decidable command.FitsWire
  | version major _ => inferInstanceAs (Decidable (major = formatMajor))
  | newNode _ name _ _ | newEdge _ _ _ _ _ name | newClock _ _ _ _ name =>
      inferInstanceAs (Decidable (ShortText name))
  | moveItems _ items positions =>
      inferInstanceAs (Decidable (items.length ≤ 65535 ∧
        (positions = [] ∨ positions.length = items.length)))
  | enterNode _ _ position | exitNode _ _ position =>
      inferInstanceAs (Decidable (position.length ≤ 15))
  | setLayout _ dimensions => inferInstanceAs (Decidable (dimensions.length ≤ 15))
  | tagItem _ tag value | tagCycle tag value =>
      inferInstanceAs (Decidable (ShortText tag ∧ ValueFits value))
  | tagNode _ tag value position =>
      inferInstanceAs (Decidable (ShortText tag ∧ ValueFits value ∧ position.length ≤ 15))
  | describeTag tag description =>
      inferInstanceAs (Decidable (ShortText tag ∧ ShortText description))
  | comment _ text => inferInstanceAs (Decidable (text.utf8ByteSize < UInt32.size))
  | commentBytes _ data => inferInstanceAs (Decidable (data.length < UInt32.size))
  | defineTag _ name => inferInstanceAs (Decidable (ShortText name))
  | defineText _ value => inferInstanceAs (Decidable (ShortText value))
  | newItem _ | deleteItem _ | setInputBandwidth _ _ | setOutputBandwidth _ _ | setClock _ _
  | cycle _ | clockedCycle _ | startActivity _ => isTrue trivial

end Command
end CycleTrace
