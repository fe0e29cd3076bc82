import TagHelpers.Number.Binary
import TagHelpers.Number.Decimal

/-!
# Shortest decimal digits

Among the decimal numbers that read back as a given binary number, `Binary.shortest` finds one with
the fewest digits and of these the nearest. A decimal reads back when it lies between the midpoints
to the two neighbours of the number, which count as inside when the mantissa is even.
-/

namespace TagHelpers.Binary

/-- The midpoints to the neighbours below and above, each as numerator and denominator. The
neighbour below a power of two is closer. -/
def bounds (b : Binary) : (Nat × Nat) × (Nat × Nat) :=
  let low :=
    if b.mantissa = leastNormal ∧ -1074 < b.exponent then
      scale (4 * b.mantissa - 1) 1 (b.exponent - 2)
    else scale (2 * b.mantissa - 1) 1 (b.exponent - 1)
  (low, scale (2 * b.mantissa + 1) 1 (b.exponent - 1))

/-- Whether a decimal number reads back as `b`. -/
def readsBack (b : Binary) (x : Decimal) : Bool :=
  let (low, high) := b.bounds
  let (n, d) := x.fraction
  let above := low.1 * d < n * low.2 || (b.mantissa % 2 == 0 && low.1 * d == n * low.2)
  let below := n * high.2 < high.1 * d || (b.mantissa % 2 == 0 && n * high.2 == high.1 * d)
  above && below

/-- The place of the first decimal digit of a number other than zero. -/
def firstPlace (b : Binary) : Int :=
  let (n, d) := b.fraction
  if d ≤ n then ((Nat.toDigits 10 (n / d)).length : Int) - 1
  else -((Nat.toDigits 10 ((d + n - 1) / n - 1)).length : Int)

/-- The nearer of the two decimals around `b` that end at `place`, among those that read back. Of
two that are equally near it is the one with an even digit. -/
def atPlace (b : Binary) (place : Int) : Option Decimal :=
  let (n, d) := b.fraction
  let (n, d) :=
    if 0 ≤ place then (n, d * Nat.pow 10 place.toNat) else (n * Nat.pow 10 (-place).toNat, d)
  let below := n / d
  let nearer := roundDiv n d
  let farther := if nearer = below then below + 1 else below
  [⟨nearer, place⟩, ⟨farther, place⟩].find? b.readsBack

/-- The decimal with the fewest digits that reads back. The search starts one place before the
first digit, for a number that is just below a power of ten. -/
def shortest (b : Binary) : Decimal :=
  if b.mantissa = 0 then ⟨0, 0⟩
  else
    let places := (List.range 18).map fun (i : Nat) => b.firstPlace + 1 - (i : Int)
    (places.findSome? b.atPlace).getD ⟨b.mantissa, 0⟩

end TagHelpers.Binary
