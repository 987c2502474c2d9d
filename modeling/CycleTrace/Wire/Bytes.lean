/-
Little-endian words and counted byte strings.

A word of `n` bytes holds a number modulo `256 ^ n`; writing takes the number
modulo that size, so a value too large for its word loses its high digits. A
signed word holds the representative nearest to zero. A short string is
preceded by its length in two bytes, a long one by its length in four.
-/

namespace CycleTrace
namespace Wire

/-- The lowest `count` bytes of a number, least significant first. -/
def littleEndian : (count : Nat) → (value : Nat) → List UInt8
  | 0, _ => []
  | count + 1, value => UInt8.ofNat value :: littleEndian count (value / 256)

/-- The number whose bytes are given, least significant first. -/
def ofLittleEndian : List UInt8 → Nat
  | [] => 0
  | byte :: rest => byte.toNat + 256 * ofLittleEndian rest

/-- The number of values that a word of `count` bytes can have. -/
def wordSize : (count : Nat) → Nat
  | 0 => 1
  | count + 1 => 256 * wordSize count

/-- A word of `count` bytes for a number of either sign. -/
def signedWord (count : Nat) (value : Int) : List UInt8 :=
  littleEndian count (value % wordSize count).toNat

/-- The number of either sign that a word holds. -/
def ofSignedWord (bytes : List UInt8) : Int :=
  Int.bmod (ofLittleEndian bytes) (wordSize bytes.length)

/-- A word of two bytes. -/
def word16 (value : UInt16) : List UInt8 :=
  littleEndian 2 value.toNat

/-- A word of four bytes. -/
def word32 (value : UInt32) : List UInt8 :=
  littleEndian 4 value.toNat

/-- A word of eight bytes. -/
def word64 (value : UInt64) : List UInt8 :=
  littleEndian 8 value.toNat

/-- Bytes preceded by their count in two bytes. -/
def shortBytes (bytes : List UInt8) : List UInt8 :=
  littleEndian 2 bytes.length ++ bytes

/-- Bytes preceded by their count in four bytes. -/
def longBytes (bytes : List UInt8) : List UInt8 :=
  littleEndian 4 bytes.length ++ bytes

/-- The UTF-8 bytes of a text. -/
def textBytes (text : String) : List UInt8 :=
  text.toByteArray.data.toList

/-- The text with the given UTF-8 bytes, if they are valid. -/
def text? (bytes : List UInt8) : Option String :=
  String.fromUTF8? (ByteArray.mk bytes.toArray)

theorem length_littleEndian (count value : Nat) :
    (littleEndian count value).length = count := by
  induction count generalizing value with
  | zero => rfl
  | succ count ih => simp [littleEndian, ih]

theorem length_textBytes (text : String) : (textBytes text).length = text.utf8ByteSize := by
  simp [textBytes]

end Wire
end CycleTrace
