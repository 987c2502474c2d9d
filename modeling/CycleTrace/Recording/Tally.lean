/-
Counts of what a recorder did.
-/

namespace CycleTrace
namespace Recording

/-- What became of the commands since the recorder was made. -/
structure Tally where
  /-- Commands written to an output, replays included. -/
  encoded : Nat := 0
  /-- Commands stored for replay. -/
  stored : Nat := 0
  /-- Commands dropped while recording was off. -/
  dropped : Nat := 0
  /-- Tags left out as repetitions. -/
  suppressedTags : Nat := 0
  /-- Exits that nobody asked for. -/
  synthesizedExits : Nat := 0
  /-- Items announced when recording was turned on. -/
  replayedItems : Nat := 0
  /-- Times recording was turned on. -/
  replays : Nat := 0
deriving DecidableEq, Repr

end Recording
end CycleTrace
