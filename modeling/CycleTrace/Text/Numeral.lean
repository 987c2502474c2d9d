/-
Hexadecimal numerals.

Digits above nine are lower-case letters. A padded numeral is filled with
zeros on the left and never shortened.
-/

namespace CycleTrace
namespace Text

/-- The hexadecimal digits of a number, without leading zeros. -/
def hexDigits (value : Nat) : List Char :=
  Nat.toDigits 16 value

/-- Hexadecimal digits filled with zeros up to a width. -/
def paddedHexDigits (width value : Nat) : List Char :=
  let digits := hexDigits value
  List.replicate (width - digits.length) '0' ++ digits

/-- A numeral such as `0x2a`. -/
def hexadecimal (value : Nat) : String :=
  "0x" ++ String.ofList (hexDigits value)

/-- A numeral of eight digits such as `0x0000002a`. -/
def hexadecimalWord (value : UInt32) : String :=
  "0x" ++ String.ofList (paddedHexDigits 8 value.toNat)

/-- Two digits per byte. -/
def hexBytes (bytes : List UInt8) : String :=
  String.ofList (bytes.flatMap fun byte => paddedHexDigits 2 byte.toNat)

/-- Decimal digits filled with zeros up to a width. -/
def paddedDecimal (width value : Nat) : String :=
  let digits := Nat.toDigits 10 value
  String.ofList (List.replicate (width - digits.length) '0' ++ digits)

end Text
end CycleTrace
