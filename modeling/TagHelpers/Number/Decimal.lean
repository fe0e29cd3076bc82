/-!
# Decimal numbers and how they are written

A decimal number is a run of digits and the place of the last one. It is written with its digits in
their places, or with one digit before the point and an exponent. A `Layout` says which: it names
the range of the first digit's place in which no exponent is needed.
-/

namespace TagHelpers

/-- The number `digits * 10 ^ place`. -/
structure Decimal where
  digits : Nat
  place : Int
  deriving DecidableEq, Repr, Inhabited

/-- Which numbers are written without an exponent: those whose first digit stands at a place from
`least` to `greatest`. -/
structure Layout where
  least : Int
  greatest : Int
  deriving DecidableEq, Repr

namespace Decimal

/-- The number as numerator and denominator. -/
def fraction (d : Decimal) : Nat × Nat :=
  if 0 ≤ d.place then (d.digits * Nat.pow 10 d.place.toNat, 1)
  else (d.digits, Nat.pow 10 (-d.place).toNat)

/-- The place of the first digit. -/
def firstPlace (d : Decimal) : Int :=
  d.place + (Nat.toDigits 10 d.digits).length - 1

/-- The number without an exponent and with at least one digit on either side of the point. -/
def positional (d : Decimal) : List Char :=
  let cs := Nat.toDigits 10 d.digits
  if 0 ≤ d.place then cs ++ List.replicate d.place.toNat '0' ++ ['.', '0']
  else
    let count := (-d.place).toNat
    let padded := List.replicate (count + 1 - cs.length) '0' ++ cs
    padded.take (padded.length - count) ++ '.' :: padded.drop (padded.length - count)

/-- An exponent with its sign. -/
def exponent (k : Int) : List Char :=
  'e' :: (if 0 ≤ k then '+' else '-') :: Nat.toDigits 10 k.natAbs

/-- The number with one digit before the point and an exponent. A single digit has no point. -/
def scientific (d : Decimal) : List Char :=
  let mantissa :=
    match Nat.toDigits 10 d.digits with
    | c :: c' :: cs => c :: '.' :: c' :: cs
    | cs => cs
  mantissa ++ exponent d.firstPlace

/-- The number as a layout asks for. -/
def write (l : Layout) (d : Decimal) : String :=
  String.ofList
    (if l.least ≤ d.firstPlace ∧ d.firstPlace ≤ l.greatest then d.positional else d.scientific)

end Decimal

end TagHelpers
