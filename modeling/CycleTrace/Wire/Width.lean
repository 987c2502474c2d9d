/-
Widths of numbers in a stream.

A number takes one, two, four or eight bytes. Two bits select among these
widths, and a header byte combines them with a command code of six bits. The
encoder always chooses the smallest width whose range holds the number, or one
width for all the numbers of a list.
-/

import CycleTrace.Wire.Bytes

namespace CycleTrace
namespace Wire

/-- How many bytes a number takes. -/
inductive Width where
  | one
  | two
  | four
  | eight
deriving DecidableEq, Repr

namespace Width

/-- The two bits that select a width. -/
def selector : Width → UInt8
  | one => 0
  | two => 1
  | four => 2
  | eight => 3

/-- The width selected by the two low bits of a byte. -/
def ofSelector (bits : UInt8) : Width :=
  match bits.toNat % 4 with
  | 0 => one
  | 1 => two
  | 2 => four
  | _ => eight

/-- The number of bytes of a width. -/
def bytes : Width → Nat
  | one => 1
  | two => 2
  | four => 4
  | eight => 8

/-- The larger of two widths. -/
def max (left right : Width) : Width :=
  if left.bytes < right.bytes then right else left

/-- The smallest width for a difference of identifiers, which never needs
more than four bytes. -/
def forSigned (value : Int) : Width :=
  if -128 ≤ value ∧ value < 128 then one
  else if -32768 ≤ value ∧ value < 32768 then two
  else four

/-- The smallest width for a number without sign. -/
def forUnsigned (value : Nat) : Width :=
  if value < 256 then one
  else if value < 65536 then two
  else if value < 4294967296 then four
  else eight

/-- The smallest width for all the numbers of a list. -/
def covering (values : List Nat) : Width :=
  values.foldl (fun width value => width.max (forUnsigned value)) one

/-- A number of either sign in a given width. -/
def signed (width : Width) (value : Int) : List UInt8 :=
  signedWord width.bytes value

/-- A number without sign in a given width. -/
def unsigned (width : Width) (value : Nat) : List UInt8 :=
  littleEndian width.bytes value

theorem ofSelector_selector (width : Width) : ofSelector width.selector = width := by
  cases width <;> rfl

end Width

/-- The first byte of a command. -/
def header (code : UInt8) (width : Width) : UInt8 :=
  (code &&& (0x3f : UInt8)) ||| (width.selector <<< (6 : UInt8))

end Wire
end CycleTrace
