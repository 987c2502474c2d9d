/-
Frames of stored blocks: reading any frame and writing one.

A frame is a header, blocks with their sizes, and an end mark. The header says
how large a block may be, whether matches may reach into earlier blocks, which
checksums follow, and perhaps the size of the content. A stored block keeps to
the size in the header, and so does a compressed one, except that a linked
block has the room of its ring. Reading stops at the end mark and ignores what
comes after the first frame. Data that ends where a block size should stand is a
frame that was not finished; its blocks are its content.
So is data that ends after the magic or is empty. The older header form, a
magic alone, has large independent blocks and no checksums.

A writer produces frames of independent blocks without checksums. It collects
data until a block is full and more data arrives, or until it is flushed, and
opens the frame with the first data it gets; the length of that data chooses
the block size. Blocks are stored as they are.
-/

import CycleTrace.Lz4.Block
import CycleTrace.Lz4.Checksum
import CycleTrace.Lz4.Codec
import CycleTrace.Lz4.Ring

namespace CycleTrace
namespace Lz4

/-- The four bytes that open a frame of the older form. -/
def olderMagic : List UInt8 := [0x02, 0x21, 0x4c, 0x18]

namespace Frame

/-! ### Headers -/

/-- What a frame header says. -/
structure Header where
  blockLimit : Nat
  linked : Bool := false
  blockChecksums : Bool := false
  contentChecksum : Bool := false
  contentSize : Option Nat := none
deriving DecidableEq, Repr

/-- The header of a frame of the older form. -/
def Header.older : Header :=
  { blockLimit := 8 * 1024 * 1024 }

/-- Whether a flag is set. -/
def hasFlag (flags mask : UInt8) : Bool :=
  flags &&& mask ≠ 0

/-- The largest block that a header byte allows. -/
def blockLimit? (descriptor : UInt8) : Option Nat :=
  match descriptor.toNat / 16 % 8 with
  | 4 => some (64 * 1024)
  | 5 => some (256 * 1024)
  | 6 => some (1024 * 1024)
  | 7 => some (4 * 1024 * 1024)
  | _ => none

/-- The checksum byte of a header. -/
def headerChecksum (fields : List UInt8) : UInt8 :=
  (checksum fields >>> 8).toUInt8

/-- Reads the header after its magic. -/
def readHeader (bytes : List UInt8) : Except Defect (Header × List UInt8) := do
  let flags := bytes.headD 0
  let descriptor := (bytes.drop 1).headD 0
  let sizeBytes := if hasFlag flags 0x08 then 8 else 0
  let dictionaryBytes := if hasFlag flags 0x01 then 4 else 0
  let length := 2 + sizeBytes + dictionaryBytes
  let fields := bytes.take length
  match bytes.drop length with
  | [] => throw .headerCutShort
  | expected :: rest =>
      if (flags &&& (0xc0 : UInt8)) ≠ 0x40 then throw .unsupportedVersion
      if hasFlag flags 0x02 || hasFlag descriptor 0x8f then throw .reservedBits
      let some blockLimit := blockLimit? descriptor | throw .unsupportedBlockSize
      if headerChecksum fields ≠ expected then throw .headerChecksum
      if hasFlag flags 0x01 then throw .dictionary
      let contentSize :=
        if hasFlag flags 0x08 then some (Wire.ofLittleEndian ((fields.drop 2).take 8)) else none
      return (
        { blockLimit
          linked := !hasFlag flags 0x20
          blockChecksums := hasFlag flags 0x10
          contentChecksum := hasFlag flags 0x04
          contentSize },
        rest)

/-! ### Reading -/

/-- Takes bytes that must be there. -/
def takeExactly (count : Nat) (bytes : List UInt8) : Except Defect (List UInt8 × List UInt8) :=
  let taken := bytes.take count
  if taken.length < count then .error .blockCutShort else .ok (taken, bytes.drop count)

/-- Takes a checksum and compares it. -/
def verify (defect : Defect) (content bytes : List UInt8) : Except Defect (List UInt8) := do
  let (expected, rest) ← takeExactly 4 bytes
  if Wire.ofLittleEndian expected ≠ (checksum content).toNat then throw defect
  return rest

/-- Checks the content against the header when the end mark is reached. -/
def verifyContent (header : Header) (bytes : List UInt8) (output : Array UInt8) :
    Except Defect (Array UInt8) := do
  if let some size := header.contentSize then
    if output.size ≠ size then throw .contentSize
  if header.contentChecksum then
    let _ ← verify .contentChecksum output.toList bytes
  return output

/-- The mark of a block that is stored as it is. -/
def storedMark : Nat := 0x80000000

/-- Appends the content of at most `fuel` blocks to the output. A block
without content ends the reading. -/
def readBlocks (header : Header) :
    (fuel : Nat) → List UInt8 → Ring → Array UInt8 → Except Defect (Array UInt8)
  | 0, _, _, output => .ok output
  | fuel + 1, bytes, ring, output => do
      let size := bytes.take 4
      if size.length < 4 then return output
      let bytes := bytes.drop 4
      let size := Wire.ofLittleEndian size
      if size = 0 then verifyContent header bytes output
      else
        let stored := storedMark ≤ size
        let length := size % storedMark
        if length > header.blockLimit then throw .blockExceedsLimit
        let (block, bytes) ← takeExactly length bytes
        let bytes ←
          if header.blockChecksums then verify .blockChecksum block bytes else pure bytes
        let ring := if header.linked then ring.prepare header.blockLimit else {}
        let start := output.size
        let output ←
          if stored then pure (output ++ block)
          else
            Block.expand (if header.linked then 0 else start) (ring.room header.blockLimit) block
              output
        if output.size = start then return output
        readBlocks header fuel bytes (ring.advance (output.size - start)) output

/-- The content of a frame. Every block takes at least four bytes, so there are
fewer blocks than bytes. -/
def read (data : List UInt8) : Except Defect (Array UInt8) :=
  let blocks (header : Header) (bytes : List UInt8) :=
    readBlocks header (bytes.length + 1) bytes {} #[]
  let opening := data.take 4
  let rest := data.drop 4
  if data.isEmpty then .ok #[]
  else if opening.length < 4 then .error .headerCutShort
  else if opening = olderMagic then blocks .older rest
  else if rest.isEmpty then .ok #[]
  else if (rest.take 3).length < 3 then .error .headerCutShort
  else if opening ≠ magic then .error .wrongMagic
  else do
    let (header, bytes) ← readHeader rest
    blocks header bytes

/-! ### Writing -/

/-- The block sizes a writer chooses from. -/
inductive BlockSize where
  | small
  | medium
  | large
deriving DecidableEq, Repr

/-- The most bytes of a block. -/
def BlockSize.limit : BlockSize → Nat
  | .small => 64 * 1024
  | .medium => 256 * 1024
  | .large => 4 * 1024 * 1024

/-- The header byte of a block size. -/
def BlockSize.descriptor : BlockSize → UInt8
  | .small => 0x40
  | .medium => 0x50
  | .large => 0x70

/-- The block size for a frame whose first data has the given length. -/
def BlockSize.forLength (length : Nat) : BlockSize :=
  if length > BlockSize.medium.limit then .large
  else if length > BlockSize.small.limit then .medium
  else .small

/-- The header of a frame of independent blocks without checksums. -/
def headerBytes (size : BlockSize) : List UInt8 :=
  let fields : List UInt8 := [0x60, size.descriptor]
  magic ++ fields ++ [headerChecksum fields]

/-- A block with its size. -/
def blockBytes (block : List UInt8) : List UInt8 :=
  Wire.littleEndian 4 (storedMark + block.length) ++ block

/-- The mark after the last block. -/
def endMark : List UInt8 := [0, 0, 0, 0]

/-- A frame that is being written: its block size once it is open, and the
data of the block that is not yet written. -/
structure Writer where
  opened : Option BlockSize := none
  pending : Array UInt8 := #[]
deriving DecidableEq, Repr

/-- Splits off full blocks. -/
def fullBlocks (limit : Nat) : (count : Nat) → List UInt8 → List UInt8 × List UInt8
  | 0, data => ([], data)
  | count + 1, data =>
      let (blocks, rest) := fullBlocks limit count (data.drop limit)
      (blockBytes (data.take limit) ++ blocks, rest)

namespace Writer

/-- Collects data in an open frame; what it writes are the blocks that were
full when more data arrived. -/
def collect (writer : Writer) (size : BlockSize) (data : List UInt8) : List UInt8 × Writer :=
  let total := writer.pending.size + data.length
  if total ≤ size.limit then ([], { opened := some size, pending := writer.pending ++ data })
  else
    let count := (total - 1) / size.limit
    let (written, rest) := fullBlocks size.limit count (writer.pending.toList ++ data)
    (written, { opened := some size, pending := rest.toArray })

/-- Takes data; the first data opens the frame. -/
def write (writer : Writer) (data : List UInt8) : List UInt8 × Writer :=
  if data.isEmpty then ([], writer)
  else
    match writer.opened with
    | some size => writer.collect size data
    | none =>
        let size := BlockSize.forLength data.length
        let (written, writer) := writer.collect size data
        (headerBytes size ++ written, writer)

/-- Writes the block that is not yet full. -/
def flush (writer : Writer) : List UInt8 × Writer :=
  if writer.pending.isEmpty then ([], writer)
  else (blockBytes writer.pending.toList, { writer with pending := #[] })

/-- Ends the frame; a frame without data still has a header. -/
def finish (writer : Writer) : List UInt8 :=
  let opening :=
    match writer.opened with
    | some _ => []
    | none => headerBytes .small
  opening ++ writer.flush.1 ++ endMark

end Writer

/-- A finished frame with the given content. -/
def ofContent (content : List UInt8) : List UInt8 :=
  let (written, writer) := ({} : Writer).write content
  written ++ writer.finish

end Frame
end Lz4
end CycleTrace
