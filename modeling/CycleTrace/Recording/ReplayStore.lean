/-
Persistent commands kept for replay.

Every persistent command is kept for as long as the recorder lives, so that a
file opened later describes the whole structure. Those stored while recording
was off are also kept apart until recording is turned on, for a file that has
seen everything before them.
-/

import CycleTrace.Command

namespace CycleTrace
namespace Recording

/-- All persistent commands, and those stored while off. -/
structure ReplayStore where
  all : Array Command := #[]
  partialReplay : Array Command := #[]
deriving DecidableEq, Repr

namespace ReplayStore

/-- Keeps a command. -/
def store (kept : ReplayStore) (command : Command) (alsoPartial : Bool) : ReplayStore :=
  { all := kept.all.push command
    partialReplay :=
      if alsoPartial then kept.partialReplay.push command else kept.partialReplay }

/-- Forgets which commands were stored while off. -/
def clearPartial (kept : ReplayStore) : ReplayStore :=
  { kept with partialReplay := #[] }

end ReplayStore

/-- Hands commands in order to a receiver that may refuse them, and counts them. -/
def replay (receive : Command → EStateM Fault σ Unit) (commands : Array Command) :
    EStateM Fault σ Nat := do
  commands.toList.forM receive
  return commands.size

end Recording
end CycleTrace
