/-
Sizes of files for people.

A size below 1024 bytes is exact. A larger one is given in the largest of three
units, each 1024 times the one before, that does not exceed it, with one place
after the point; a half goes to the even neighbour.
-/

namespace CycleTrace
namespace Inspection

/-- The quotient rounded to the nearest number; a half goes to the even one. -/
def roundedQuotient (numerator denominator : Nat) : Nat :=
  let floor := numerator / denominator
  let remainder := numerator % denominator
  if 2 * remainder < denominator then floor
  else if 2 * remainder = denominator then floor + floor % 2
  else floor + 1

/-- A size in a unit, with one place after the point. -/
def sizeIn (unit bytes : Nat) : String :=
  let tenths := roundedQuotient (10 * bytes) unit
  toString (tenths / 10) ++ "." ++ toString (tenths % 10)

/-- The bytes of the smallest unit. -/
def kilobyte : Nat := 1024

/-- The bytes of the middle unit. -/
def megabyte : Nat := 1024 * kilobyte

/-- The bytes of the largest unit. -/
def gigabyte : Nat := 1024 * megabyte

/-- The text of a size. -/
def sizeText (bytes : Nat) : String :=
  if bytes < kilobyte then toString bytes ++ " B"
  else if bytes < megabyte then sizeIn kilobyte bytes ++ " KB"
  else if bytes < gigabyte then sizeIn megabyte bytes ++ " MB"
  else sizeIn gigabyte bytes ++ " GB"

end Inspection
end CycleTrace
