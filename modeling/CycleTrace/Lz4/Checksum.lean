/-
The 32-bit checksum of LZ4 frames, with seed zero.

Sixteen bytes at a time are mixed into four lanes; what remains is mixed word
by word and byte by byte into their sum, and a final avalanche spreads every
bit. All arithmetic is modulo `2 ^ 32`.
-/

import CycleTrace.Wire.Bytes

namespace CycleTrace
namespace Lz4
namespace Checksum

/-- The five odd multipliers of the checksum. -/
def prime1 : UInt32 := 0x9e3779b1

@[inherit_doc prime1] def prime2 : UInt32 := 0x85ebca77

@[inherit_doc prime1] def prime3 : UInt32 := 0xc2b2ae3d

@[inherit_doc prime1] def prime4 : UInt32 := 0x27d4eb2f

@[inherit_doc prime1] def prime5 : UInt32 := 0x165667b1

/-- A rotation towards the high bits. -/
def rotate (value : UInt32) (count : UInt32) : UInt32 :=
  (value <<< count) ||| (value >>> (32 - count))

/-- The word of four bytes. -/
def word (bytes : List UInt8) : UInt32 :=
  UInt32.ofNat (Wire.ofLittleEndian (bytes.take 4))

/-- Mixes a word into a lane. -/
def mix (lane word : UInt32) : UInt32 :=
  rotate (lane + word * prime2) 13 * prime1

/-- The four lanes. -/
structure Lanes where
  first : UInt32 := prime1 + prime2
  second : UInt32 := prime2
  third : UInt32 := 0
  fourth : UInt32 := 0 - prime1

/-- Mixes sixteen bytes into the lanes. -/
def Lanes.absorb (lanes : Lanes) (stripe : List UInt8) : Lanes :=
  { first := mix lanes.first (word stripe)
    second := mix lanes.second (word (stripe.drop 4))
    third := mix lanes.third (word (stripe.drop 8))
    fourth := mix lanes.fourth (word (stripe.drop 12)) }

/-- The sum of the lanes. -/
def Lanes.sum (lanes : Lanes) : UInt32 :=
  rotate lanes.first 1 + rotate lanes.second 7 + rotate lanes.third 12 + rotate lanes.fourth 18

/-- Mixes stripes of sixteen bytes and returns the bytes that remain. -/
def stripes : Nat → Lanes → List UInt8 → Lanes × List UInt8
  | 0, lanes, bytes => (lanes, bytes)
  | count + 1, lanes, bytes =>
      stripes count (lanes.absorb (bytes.take 16)) (bytes.drop 16)

/-- Mixes the words and then the bytes that are left after the stripes. -/
def tail (state : UInt32) : List UInt8 → UInt32
  | a :: b :: c :: d :: rest =>
      tail (rotate (state + word [a, b, c, d] * prime3) 17 * prime4) rest
  | bytes =>
      bytes.foldl (fun state byte => rotate (state + byte.toUInt32 * prime5) 11 * prime1) state

/-- Spreads every bit over the word. -/
def avalanche (state : UInt32) : UInt32 :=
  let state := (state ^^^ (state >>> 15)) * prime2
  let state := (state ^^^ (state >>> 13)) * prime3
  state ^^^ (state >>> 16)

end Checksum

/-- The checksum of some bytes. -/
def checksum (bytes : List UInt8) : UInt32 :=
  let length := bytes.length
  let (lanes, rest) := Checksum.stripes (length / 16) {} bytes
  let start := if length < 16 then Checksum.prime5 else lanes.sum
  Checksum.avalanche (Checksum.tail (start + UInt32.ofNat length) rest)

end Lz4
end CycleTrace
