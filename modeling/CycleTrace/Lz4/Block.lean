/-
LZ4 blocks.

A block is a list of sequences. A sequence gives some literal bytes and then a
match, a copy of earlier output that starts a given distance back and may run
into the bytes it produces. The last sequence has no match: a block ends after
literals. A token holds both lengths in four bits each, and a length of
fifteen continues in further bytes until one is below 255. A match is four
bytes longer than its length field says.

Expanding a block appends to the output so far. How far back a match may reach
and how much a block may add are parameters.
-/

import CycleTrace.Lz4.Defect
import CycleTrace.Wire.Bytes

namespace CycleTrace
namespace Lz4
namespace Block

/-- The shortest match. -/
def minimalMatch : Nat := 4

/-- Adds the bytes that continue a length. -/
def continuedLength (length : Nat) : List UInt8 → Except Defect (Nat × List UInt8)
  | [] => .error .lengthMissing
  | byte :: rest =>
      if byte = 255 then continuedLength (length + 255) rest
      else .ok (length + byte.toNat, rest)

/-- A length of four bits with the bytes that may continue it. -/
def readLength (nibble : Nat) (bytes : List UInt8) : Except Defect (Nat × List UInt8) :=
  if nibble = 15 then continuedLength 15 bytes else .ok (nibble, bytes)

/-- Copies earlier output, one byte at a time. -/
def copyMatch (distance : Nat) : (count : Nat) → Array UInt8 → Array UInt8
  | 0, output => output
  | count + 1, output =>
      let byte := output.getD (output.size - distance) 0
      copyMatch distance count (output.push byte)

/-- Expands at most `fuel` sequences. Matches reach back to the index
`reach`, and the output may grow up to `bound` bytes. -/
def expandSequences (reach bound : Nat) :
    (fuel : Nat) → List UInt8 → Array UInt8 → Except Defect (Array UInt8)
  | 0, _, _ => .error .lengthMissing
  | _ + 1, [], _ => .error .lengthMissing
  | fuel + 1, token :: bytes, output => do
      let (literals, bytes) ← readLength (token.toNat / 16) bytes
      let run := bytes.take literals
      if run.length < literals then throw .literalsMissing
      if output.size + literals > bound then throw .blockExceedsLimit
      let output := output ++ run
      match bytes.drop literals with
      | [] => return output
      | [_] => throw .distanceMissing
      | low :: high :: bytes =>
          let distance := Wire.ofLittleEndian [low, high]
          let (length, bytes) ← readLength (token.toNat % 16) bytes
          let count := length + minimalMatch
          if output.size + count > bound then throw .blockExceedsLimit
          if distance = 0 ∨ output.size < reach + distance then throw .distanceOutOfRange
          expandSequences reach bound fuel bytes (copyMatch distance count output)

/-- Appends the content of a block to the output. Every sequence takes at
least one byte, so there are at most as many sequences as bytes. -/
def expand (reach room : Nat) (block : List UInt8) (output : Array UInt8) :
    Except Defect (Array UInt8) :=
  expandSequences reach (output.size + room) (block.length + 1) block output

end Block
end Lz4
end CycleTrace
