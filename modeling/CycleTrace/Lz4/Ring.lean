/-
Where linked blocks go.

The output of linked blocks stands in a ring of two blocks and a window, the
stretch that a distance can span. Blocks follow each other from the front.
When another block might not fit, the last window of output stays where it is
as the tail, and the blocks start again at the front. A block then has room up
to the tail, which can be more than the largest size the frame allows. The tail
gives way from its own front as soon as it and the new output make up more
than a window, and once it is gone a block has the allowed size again.

Only positions are kept here. A match never depends on them: what the ring
still holds is everything, or at least a window.
-/

namespace CycleTrace
namespace Lz4

/-- The stretch of output that stays within reach of a match. -/
def windowSize : Nat := 64 * 1024

/-- Positions in the ring: where the next block goes and which stretch is kept
as the tail. -/
structure Ring where
  next : Nat := 0
  tailStart : Nat := 0
  tailLength : Nat := 0
deriving DecidableEq, Repr

namespace Ring

/-- The size of the ring for blocks of at most `limit` bytes. -/
def size (limit : Nat) : Nat :=
  2 * limit + windowSize

/-- Makes ready for another block. -/
def prepare (limit : Nat) (ring : Ring) : Ring :=
  if size limit < ring.next + limit then
    { next := 0, tailStart := ring.next - windowSize, tailLength := windowSize }
  else
    let excess := min ring.tailLength (ring.next + ring.tailLength - windowSize)
    { ring with
      tailStart := ring.tailStart + excess
      tailLength := ring.tailLength - excess }

/-- The room for the next block: up to the tail, or the allowed size if no tail
is kept. -/
def room (limit : Nat) (ring : Ring) : Nat :=
  if ring.tailLength = 0 then limit else ring.tailStart - ring.next

/-- Counts the bytes of a block. -/
def advance (ring : Ring) (count : Nat) : Ring :=
  { ring with next := ring.next + count }

end Ring
end Lz4
end CycleTrace
