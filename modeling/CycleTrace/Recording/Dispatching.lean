/-
The recorder and its dispatches.

While a recorder is on, the command of a dispatch is written to the output, and
stored as well if it is persistent. While it is off, a persistent command is
stored and any other is dropped; then the recorder follows which items are
alive, for the next output will have to be told of them.

A computation that fails leaves the recorder as it was at that point.
-/

import CycleTrace.Output.Encoder
import CycleTrace.Recording.Machine
import CycleTrace.Recording.ReplayStore
import CycleTrace.Recording.Settings
import CycleTrace.Recording.Tally

namespace CycleTrace
namespace Recording

open Output (Encoder Encoding)

variable [Lz4.Codec]

/-- A recorder. The live items are those that came into being while off
without being stored, and still exist. -/
structure Recorder where
  settings : Settings
  machine : Machine
  encoder : Encoder
  store : ReplayStore := {}
  live : Std.TreeSet ItemId := {}
  on : Bool := false
  tally : Tally := {}

/-- A computation of a recorder. -/
abbrev Recorder.Action := EStateM Fault Recorder

namespace Recorder

/-! ### Parts of a call -/

/-- Runs a computation of the encoder. -/
def withEncoder (action : Encoding α) : Action α :=
  fun { settings, machine, encoder, store, live, on, tally } =>
    match action encoder with
    | .ok value encoder => .ok value { settings, machine, encoder, store, live, on, tally }
    | .error fault encoder => .error fault { settings, machine, encoder, store, live, on, tally }

/-- Changes the encoder. -/
def modifyEncoder (change : Encoder → Encoder) : Action Unit :=
  withEncoder (modify change)

/-- Changes the machine. -/
def modifyMachine (change : Machine → Machine) : Action Unit :=
  modify fun { settings, machine, encoder, store, live, on, tally } =>
    { settings, machine := change machine, encoder, store, live, on, tally }

/-- Changes the counts. -/
def count (change : Tally → Tally) : Action Unit :=
  modify fun { settings, machine, encoder, store, live, on, tally } =>
    { settings, machine, encoder, store, live, on, tally := change tally }

/-- Writes a command to the output. -/
def write (command : Command) : Action Unit := do
  withEncoder (Encoder.encode command)
  count fun tally => { tally with encoded := tally.encoded + 1 }

/-- Stores a command for replay. -/
def keep (command : Command) (whileOff : Bool) : Action Unit := do
  modify fun { settings, machine, encoder, store, live, on, tally } =>
    { settings, machine, encoder, store := store.store command whileOff, live, on, tally }
  count fun tally => { tally with stored := tally.stored + 1 }

/-- Follows which items are alive without being stored. -/
def trackItem (live : Std.TreeSet ItemId) : Dispatch → Std.TreeSet ItemId
  | { command := .newItem id, persistent := false, .. } => live.insert id
  | { command := .deleteItem id, .. } => live.erase id
  | _ => live

/-! ### Dispatching -/

/-- Carries out a dispatch while on. -/
def dispatchOn (dispatch : Dispatch) : Action Unit := do
  write dispatch.command
  if dispatch.persistent then keep dispatch.command false

/-- Carries out a dispatch while off. -/
def dispatchOff (dispatch : Dispatch) : Action Unit := do
  modify fun recorder => { recorder with live := trackItem recorder.live dispatch }
  if dispatch.persistent then keep dispatch.command true
  else count fun tally => { tally with dropped := tally.dropped + 1 }

/-- Carries out a dispatch, and tells whether its command was written or stored. -/
def route (dispatch : Dispatch) : Action Bool := do
  if (← get).on then
    dispatchOn dispatch
    return true
  else
    dispatchOff dispatch
    return dispatch.persistent

/-- Carries out a dispatch. The exits that nobody asked for are counted. -/
def dispatch (dispatch : Dispatch) : Action Unit := do
  let _ ← route dispatch
  if dispatch.synthesized then
    count fun tally => { tally with synthesizedExits := tally.synthesizedExits + 1 }

end Recorder
end Recording
end CycleTrace
