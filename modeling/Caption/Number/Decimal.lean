import Caption.Number.Binary64

/-!
The shortest decimal that reads back as a given binary64 number, and its two ways of being
written: scientific beyond a range of exponents, or always positional.
-/
namespace Caption

/-- Decimal digits, of which the first stands for a multiple of 10 ^ exponent. -/
structure Decimal where
  digits : List Char
  exponent : Int
deriving DecidableEq, Repr

/-- Which of two equally near candidates is taken. -/
inductive Tie where
  /-- The one whose last digit is even. -/
  | toEven
  /-- The one of larger magnitude. -/
  | awayFromZero
deriving DecidableEq, Repr

namespace Binary64

/-- The exponent of the first decimal digit of a positive fraction. -/
def decimalExponent (numerator denominator : Nat) : Int :=
  if denominator ≤ numerator then
    ((Nat.toDigits 10 (numerator / denominator)).length : Int) - 1
  else
    -((Nat.toDigits 10 ((denominator + numerator - 1) / numerator - 1)).length : Int)

/-- The multiple of 10 ^ power, as a whole number of them, that reads back as the number and is
nearest to it; only the two multiples next to the number can. -/
def gridPoint? (tie : Tie) (number : Binary64) (power : Int) : Option Nat :=
  let (numerator, denominator) := number.fraction
  let (stepAbove, stepBelow) :=
    if power < 0 then (1, Nat.pow 10 power.natAbs) else (Nat.pow 10 power.natAbs, 1)
  let gap :=
    if number.mantissa = Nat.pow 2 52 ∧ leastExponent < number.exponent then 1 else 2
  let unit := numerator / number.mantissa
  let lowest := 4 * numerator - gap * unit
  let highest := 4 * numerator + 2 * unit
  let readsBack (multiple : Nat) : Bool :=
    let point := multiple * stepAbove * 4 * denominator
    if number.mantissa % 2 = 0 then lowest * stepBelow ≤ point ∧ point ≤ highest * stepBelow
    else lowest * stepBelow < point ∧ point < highest * stepBelow
  let left := numerator * stepBelow / (denominator * stepAbove)
  let right := left + 1
  let leftGap := numerator * stepBelow - left * stepAbove * denominator
  let rightGap := right * stepAbove * denominator - numerator * stepBelow
  match readsBack left, readsBack right with
  | true, true =>
    if leftGap < rightGap then some left
    else if rightGap < leftGap then some right
    else if tie = .toEven ∧ left % 2 = 0 then some left
    else some right
  | true, false => some left
  | false, true => some right
  | false, false => none

/-- The decimal with the fewest digits that reads back as the number and, of those, the nearest;
seventeen digits always suffice. -/
def shortest (tie : Tie) (number : Binary64) : Decimal :=
  if number.mantissa = 0 then ⟨['0'], 0⟩
  else
    let (numerator, denominator) := number.fraction
    let first := decimalExponent numerator denominator
    let found := (List.range 17).findSome? fun (more : Nat) =>
      (number.gridPoint? tie (first - more)).map fun multiple => (multiple, first - more)
    let (multiple, power) := found.getD (0, 0)
    let digits := Nat.toDigits 10 multiple
    ⟨(digits.reverse.dropWhile (· == '0')).reverse, power + (digits.length - 1 : Nat)⟩

end Binary64

namespace Decimal

/-- An integer in decimal digits. -/
def ofInt (value : Int) : List Char :=
  if value < 0 then '-' :: Nat.toDigits 10 value.natAbs else Nat.toDigits 10 value.natAbs

/-- All digits in their places; the point is left out before an empty fraction. -/
def positional (decimal : Decimal) : List Char :=
  let count : Int := decimal.digits.length
  if decimal.exponent < 0 then
    '0' :: '.' :: (List.replicate (decimal.exponent.natAbs - 1) '0' ++ decimal.digits)
  else if count ≤ decimal.exponent + 1 then
    decimal.digits ++ List.replicate (decimal.exponent + 1 - count).natAbs '0'
  else
    decimal.digits.take (decimal.exponent.natAbs + 1) ++
      '.' :: decimal.digits.drop (decimal.exponent.natAbs + 1)

/-- One digit before the point and a signed exponent. -/
def scientific (decimal : Decimal) : List Char :=
  let tail :=
    match decimal.digits.drop 1 with
    | [] => []
    | more => '.' :: more
  let sign := if decimal.exponent < 0 then '-' else '+'
  decimal.digits.take 1 ++ tail ++ 'e' :: sign :: Nat.toDigits 10 decimal.exponent.natAbs

end Decimal

end Caption
