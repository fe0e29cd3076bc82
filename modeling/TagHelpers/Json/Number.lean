import TagHelpers.Json.Value
import TagHelpers.Json.Scan
import TagHelpers.Number.Shortest

/-!
# The numbers that numerals stand for

A numeral without fraction and exponent is an integer as long as it fits 64 bits: unsigned when it
is positive, signed when it is negative. Every other numeral is a binary floating point number, made
from at most as many leading digits as fit 64 bits and a power of ten. Minus zero is a floating
point number too. A numeral too large for that has no value.
-/

namespace TagHelpers.Json

/-- What a numeral stands for. -/
inductive Number where
  | integer (n : Int)
  | float (negative : Bool) (magnitude : Binary)
  deriving DecidableEq, Repr

/-- The largest unsigned number of 64 bits. -/
def maxUnsigned : Nat := UInt64.size - 1

/-- The largest magnitude of a negative number of 64 bits. -/
def maxNegative : Nat := UInt64.size / 2

/-- Takes digits into a number as long as it fits 64 bits. Returns the number and how many digits
are left. -/
def gather : Nat → List Char → Nat × Nat
  | n, [] => (n, 0)
  | n, c :: cs =>
    let next := n * 10 + (c.toNat - '0'.toNat)
    if next ≤ maxUnsigned then gather next cs else (n, cs.length + 1)

/-- The leading digits of a numeral as a number, with the power of ten that belongs to them. Digits
before the point that are left out count for the power, digits after it are dropped. -/
def Numeral.leading (n : Numeral) : Nat × Int :=
  let (whole, left) := gather 0 n.whole
  let (digits, dropped) := gather whole n.fraction
  (digits, (left : Int) - ((n.fraction.length - dropped : Nat) : Int) + n.exponent)

/-- The value of a numeral, unless it is out of range. -/
def Numeral.value (n : Numeral) : Option Number :=
  let (digits, power) := n.leading
  if n.integral ∧ power = 0 ∧ !n.negative then some (.integer digits)
  else if n.integral ∧ power = 0 ∧ 0 < digits ∧ digits ≤ maxNegative then
    some (.integer (-digits))
  else do
    let magnitude ← (← Binary.nearest digits 1).scaleTen power
    return .float n.negative magnitude

/-- Numbers from a hundred-thousandth up to ten to the sixteenth are written without an exponent. -/
def floatLayout : Layout := ⟨-5, 15⟩

/-- A number as messages show it: floating point numbers by their shortest digits. -/
def Number.display : Number → String
  | .integer n => toString n
  | .float negative magnitude =>
    (if negative then "-" else "") ++ magnitude.shortest.write floatLayout

end TagHelpers.Json
