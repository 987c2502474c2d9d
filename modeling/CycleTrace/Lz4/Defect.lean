/-
What can be wrong with LZ4 data.

The wording is for people; nothing in the library depends on it.
-/

namespace CycleTrace
namespace Lz4

/-- A cause for refusing LZ4 data. -/
inductive Defect where
  | lengthMissing
  | literalsMissing
  | distanceMissing
  | distanceOutOfRange
  | blockExceedsLimit
  | headerCutShort
  | wrongMagic
  | unsupportedVersion
  | reservedBits
  | unsupportedBlockSize
  | headerChecksum
  | dictionary
  | blockCutShort
  | blockChecksum
  | contentSize
  | contentChecksum
deriving DecidableEq, Repr

/-- Wording of a defect. -/
def Defect.message : Defect → String
  | .lengthMissing => "a length ends with the block"
  | .literalsMissing => "literals end with the block"
  | .distanceMissing => "a match has no distance"
  | .distanceOutOfRange => "a match reaches before the data"
  | .blockExceedsLimit => "a block is larger than the frame allows"
  | .headerCutShort => "the frame header is cut short"
  | .wrongMagic => "the data is not a frame"
  | .unsupportedVersion => "the frame version is not supported"
  | .reservedBits => "a reserved bit is set"
  | .unsupportedBlockSize => "the block size is not supported"
  | .headerChecksum => "the header checksum does not match"
  | .dictionary => "dictionaries are not supported"
  | .blockCutShort => "a block is cut short"
  | .blockChecksum => "a block checksum does not match"
  | .contentSize => "the content size does not match"
  | .contentChecksum => "the content checksum does not match"

end Lz4
end CycleTrace
