/-!
# Binary floating point numbers

A non-negative number of the IEEE format with 53 bits of precision is a mantissa times a power of
two. `nearest` rounds a fraction to such a number, ties going to the even mantissa, and is the one
rounding from which the products and quotients are made. It gives nothing when the fraction is too
large for the format.
-/

namespace TagHelpers

/-- The number `mantissa * 2 ^ exponent`. -/
structure Binary where
  mantissa : Nat
  exponent : Int
  deriving DecidableEq, Repr, Inhabited

namespace Binary

/-- The quotient rounded to the nearest whole number, ties going to the even one. -/
def roundDiv (num den : Nat) : Nat :=
  let q := num / den
  let r := num % den
  if 2 * r < den then q
  else if den < 2 * r then q + 1
  else if q % 2 = 0 then q else q + 1

/-- The fraction `num / den` times `2 ^ k`, as numerator and denominator. -/
def scale (num den : Nat) (k : Int) : Nat × Nat :=
  if 0 ≤ k then (num * Nat.pow 2 k.toNat, den) else (num, den * Nat.pow 2 (-k).toNat)

/-- The largest power of two that is at most `num / den`, as its exponent. -/
def magnitude (num den : Nat) : Int :=
  let k : Int := (Nat.log2 num : Int) - (Nat.log2 den : Int)
  let (n, d) := scale num den (-k)
  if n < d then k - 1 else k

/-- The least mantissa of full precision. -/
def leastNormal : Nat := Nat.pow 2 52

/-- The number of the format nearest to `num / den`, unless that is out of range. -/
def nearest (num den : Nat) : Option Binary :=
  if num = 0 then some ⟨0, 0⟩
  else
    let exponent := max (magnitude num den - 52) (-1074)
    let (n, d) := scale num den (-exponent)
    let rounded := roundDiv n d
    let result : Binary :=
      if rounded = 2 * leastNormal then ⟨leastNormal, exponent + 1⟩ else ⟨rounded, exponent⟩
    if result.exponent ≤ 971 then some result else none

/-- The number as numerator and denominator. -/
def fraction (b : Binary) : Nat × Nat :=
  scale b.mantissa 1 b.exponent

/-- The rounded product. -/
def mul (a b : Binary) : Option Binary :=
  let (n, d) := a.fraction
  let (n', d') := b.fraction
  nearest (n * n') (d * d')

/-- The rounded quotient. -/
def div (a b : Binary) : Option Binary :=
  let (n, d) := a.fraction
  let (n', d') := b.fraction
  nearest (n * d') (d * n')

/-- The rounded power of ten. -/
def powTen (k : Nat) : Option Binary :=
  nearest (Nat.pow 10 k) 1

/-- Scales a number by a power of ten: one rounded product or quotient by a rounded power of ten
where the format has that power, and a division by the largest power of the format first where the
power is too small for it. -/
def scaleTen (b : Binary) (k : Int) : Option Binary :=
  if 0 ≤ k then
    if b.mantissa = 0 then some b
    else if k ≤ 308 then do b.mul (← powTen k.toNat)
    else none
  else down b (-k).toNat 3
where
  /-- Divides by `10 ^ k`, at most `10 ^ 308` at a time and at most `steps + 1` times. -/
  down (b : Binary) (k : Nat) : Nat → Option Binary
    | 0 => do b.div (← powTen (min k 308))
    | steps + 1 =>
      if k ≤ 308 then do b.div (← powTen k)
      else do down (← b.div (← powTen 308)) (k - 308) steps

end Binary

end TagHelpers
