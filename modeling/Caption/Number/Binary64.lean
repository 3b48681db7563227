/-!
Finite binary64 numbers as exact integers: rounding a quotient to the nearest one, and scaling
by powers of ten in single rounded steps.
-/
namespace Caption

/-- The number mantissa · 2 ^ exponent with a sign. Rounding keeps the mantissa below 2 ^ 53 and
the exponent at -1074 or above, and uses the least exponent that allows this. -/
structure Binary64 where
  negative : Bool
  mantissa : Nat
  exponent : Int
deriving DecidableEq, Repr

namespace Binary64

def leastExponent : Int := -1074

/-- The exponent of the largest finite numbers. -/
def greatestExponent : Int := 971

/-- Zero, which has a sign. -/
def zero (negative : Bool) : Binary64 := ⟨negative, 0, leastExponent⟩

/-- The quotient rounded to a whole number, a half going to the even neighbour. -/
def roundQuotient (numerator denominator : Nat) : Nat :=
  let quotient := numerator / denominator
  let twice := 2 * (numerator % denominator)
  if twice < denominator then quotient
  else if denominator < twice then quotient + 1
  else if quotient % 2 = 0 then quotient
  else quotient + 1

/-- The fraction that is 2 ^ exponent times smaller. -/
def unscale (numerator denominator : Nat) (exponent : Int) : Nat × Nat :=
  if exponent < 0 then (numerator * Nat.pow 2 exponent.natAbs, denominator)
  else (numerator, denominator * Nat.pow 2 exponent.natAbs)

/-- The greatest power of two that is no larger than a positive fraction, as its exponent. -/
def floorLog (numerator denominator : Nat) : Int :=
  let guess : Int := (Nat.log2 numerator : Int) - (Nat.log2 denominator : Int)
  let (above, below) := unscale numerator denominator guess
  if below ≤ above then guess else guess - 1

/-- The binary64 number nearest to a fraction, a tie going to the even mantissa. A fraction that
rounds past the largest finite number has none. -/
def nearest (negative : Bool) (numerator denominator : Nat) : Option Binary64 :=
  if numerator = 0 then some (zero negative)
  else
    let wanted := floorLog numerator denominator - 52
    let exponent := if wanted < leastExponent then leastExponent else wanted
    let (above, below) := unscale numerator denominator exponent
    let mantissa := roundQuotient above below
    let (mantissa, exponent) :=
      if mantissa = Nat.pow 2 53 then (Nat.pow 2 52, exponent + 1) else (mantissa, exponent)
    if greatestExponent < exponent then none else some ⟨negative, mantissa, exponent⟩

/-- The magnitude as an exact fraction. -/
def fraction (number : Binary64) : Nat × Nat :=
  if number.exponent < 0 then (number.mantissa, Nat.pow 2 number.exponent.natAbs)
  else (number.mantissa * Nat.pow 2 number.exponent.natAbs, 1)

/-- The product, rounded once. -/
def multipliedBy (left right : Binary64) : Option Binary64 :=
  let (a, b) := left.fraction
  let (c, d) := right.fraction
  nearest (left.negative != right.negative) (a * c) (b * d)

/-- The quotient, rounded once; the divisor is not zero. -/
def dividedBy (left right : Binary64) : Option Binary64 :=
  let (a, b) := left.fraction
  let (c, d) := right.fraction
  nearest (left.negative != right.negative) (a * d) (b * c)

/-- Ten to a power of at most 308, rounded. -/
def powerOfTen (power : Nat) : Option Binary64 := nearest false (Nat.pow 10 power) 1

/-- Multiply by a power of ten in one rounded step. A power past 308 has no binary64 number,
so that only zero can be multiplied by it. -/
def raise (number : Binary64) (power : Nat) : Option Binary64 :=
  if power ≤ 308 then do number.multipliedBy (← powerOfTen power)
  else if number.mantissa = 0 then some number
  else none

/-- Divide by a power of ten, in rounded steps of 10 ^ 308 while the power is larger. -/
def lower (number : Binary64) (power : Nat) : Option Binary64 :=
  if power ≤ 308 then do number.dividedBy (← powerOfTen power)
  else if number.mantissa = 0 then some number
  else do
    let step ← powerOfTen 308
    let quotient ← number.dividedBy step
    quotient.lower (power - 308)
termination_by power

end Binary64

end Caption
