/-
The recorder.

A recorder carries out calls: reports of events, and requests about the
recording itself.

Turning on opens the output when none is open and then replays everything
stored; an output that is open already gets what was stored while off. Items
that came into being in the meantime without being stored are announced after
the replay, in the order of their identifiers.
-/

import CycleTrace.Recording.Reports

namespace CycleTrace
namespace Recording

open Output (Directory Encoder)

variable [Lz4.Codec]

/-- A call of a recorder. -/
inductive Call where
  | report (event : Event) (persistent : Bool)
  | turnOn
  | turnOff
  | flush
  | close
  | changeFile (name : String)
  | setTextForm (text : Bool)
  | attachArchive (data : List UInt8)
deriving DecidableEq, Repr

namespace Recorder

/-- A recorder that is off and has no output. -/
def ofSettings (settings : Settings) (directory : Directory) : Recorder :=
  { settings
    machine := { traffic := if settings.trackTraffic then some {} else none }
    encoder := .ofForm settings.text settings.bufferBytes directory }

/-! ### Calls -/

/-- Replays what the output lacks, after opening one if none is open. -/
def replayStored : Action Nat := do
  let { settings, encoder, store, .. } ← get
  if encoder.isOpen then withEncoder (replay Encoder.encode store.partialReplay)
  else
    withEncoder (Encoder.beginFile settings.fileName settings.compressed)
    modifyMachine fun machine => { machine with occupancy := machine.occupancy.forgetOutput }
    withEncoder (replay Encoder.encode store.all)

/-- Announces an item that came into being while off. -/
def announceItem (id : ItemId) : Action Unit := do
  write (.newItem id)
  count fun tally => { tally with replayedItems := tally.replayedItems + 1 }

/-- Starts recording. -/
def turnOn : Action Reply := do
  if (← get).on then return .ignored .alreadyOn
  let replayed ← replayStored
  count fun tally =>
    { tally with encoded := tally.encoded + replayed, replays := tally.replays + 1 }
  modify fun recorder => { recorder with store := recorder.store.clearPartial }
  (← get).live.toList.forM announceItem
  modify fun recorder => { recorder with live := {}, on := true }
  return .done

/-- Stops recording. -/
def turnOff : Action Reply := do
  if !(← get).on then return .ignored .alreadyOff
  modify fun recorder => { recorder with on := false }
  modifyEncoder Encoder.flush
  return .done

/-- Makes the next output another file; the values of tags are told to it anew. -/
def changeFile (name : String) : Action Reply := do
  if (← get).on then return .ignored .fileChangeWhileOn
  modifyEncoder Encoder.close
  modify fun recorder => { recorder with settings := { recorder.settings with fileName := name } }
  modifyMachine fun machine => { machine with tagMemory := {} }
  return .done

/-- Changes between the text form and the binary form, with a new encoder. -/
def setTextForm (text : Bool) : Action Reply := do
  if (← get).on then return .ignored .formChangeWhileOn
  let settings := (← get).settings
  if settings.text = text then return .done
  modifyEncoder fun encoder =>
    .ofForm text settings.bufferBytes encoder.close.writer.directory
  modify fun recorder => { recorder with settings := { recorder.settings with text } }
  modifyMachine fun machine => { machine with tagMemory := {} }
  return .done

/-- Ends the output. -/
def close : Action Reply := do
  modify fun recorder => { recorder with on := false }
  modifyEncoder Encoder.close
  return .done

/-- Carries out a call. -/
def perform : Call → Action Reply
  | .report event persistent => report event persistent
  | .turnOn => turnOn
  | .turnOff => turnOff
  | .flush => do
      modifyEncoder Encoder.flush
      return .done
  | .close => close
  | .changeFile name => changeFile name
  | .setTextForm text => setTextForm text
  | .attachArchive data => do
      modifyMachine fun machine => { machine with archive := some data }
      return .done

/-! ### Queries -/

/-- The number of commands stored for replay. -/
def storedCommands (recorder : Recorder) : Nat :=
  recorder.store.all.size

/-- The most items that moved over an edge in one cycle, where traffic is
counted and some moved. -/
def highestTraffic (recorder : Recorder) (edge : EdgeId) : Option UInt32 :=
  recorder.machine.traffic.bind (·.highest? edge)

/-- The files once the recorder is gone, which ends the output. -/
def finalDirectory (recorder : Recorder) : Directory :=
  recorder.encoder.close.writer.directory

end Recorder
end Recording
end CycleTrace
