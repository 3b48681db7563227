import Caption.Number.Decimal

/-!
JSON numbers: whole numbers of 64 bits stay exact and all others are binary64 numbers. A numeral
keeps the digits as they are written.
-/
namespace Caption

/-- The value of a JSON number. -/
inductive Number where
  | integer (value : Int)
  | real (value : Binary64)
deriving DecidableEq, Repr

namespace Number

/-- A real is written positionally, with at least one digit after the point, when its first digit
stands for 10 ^ -5 to 10 ^ 15, and scientifically otherwise. Of two decimals that are equally near,
it takes the even one. -/
def render : Number → List Char
  | .integer value => Decimal.ofInt value
  | .real value =>
    let decimal := value.shortest .toEven
    let magnitude :=
      if decimal.exponent < -5 ∨ 15 < decimal.exponent then decimal.scientific
      else
        let text := decimal.positional
        if text.contains '.' then text else text ++ ['.', '0']
    if value.negative then '-' :: magnitude else magnitude

end Number

/-- A number as it is written. -/
structure Numeral where
  negative : Bool
  whole : List Char
  fraction : List Char
  exponent : Option (Bool × List Char)
deriving DecidableEq, Repr

namespace Numeral

/-- Digits are taken into a significand as long as it fits 64 bits; the others are left. -/
def gather (significand : Nat) : List Char → Nat × List Char
  | [] => (significand, [])
  | digit :: rest =>
    let next := 10 * significand + (digit.toNat - '0'.toNat)
    if next < Nat.pow 2 64 then gather next rest else (significand, digit :: rest)

/-- The power of ten that an exponent part names. -/
def power (numeral : Numeral) : Int :=
  match numeral.exponent with
  | none => 0
  | some (false, digits) => Nat.ofDigitChars 10 digits 0
  | some (true, digits) => -(Nat.ofDigitChars 10 digits 0 : Int)

/-- The significand and the power of ten that scales it. A whole digit that does not fit raises
the power; a digit of the fraction that fits lowers it, and one that does not is ignored. -/
def scaled (numeral : Numeral) : Nat × Int :=
  let (significand, unread) := gather 0 numeral.whole
  let (significand, ignored) := gather significand numeral.fraction
  let places : Int := (numeral.fraction.length : Int) - ignored.length
  (significand, numeral.power + unread.length - places)

/-- The significand is rounded to binary64 and then scaled by the power of ten. -/
def real? (numeral : Numeral) : Option Binary64 := do
  let (significand, power) := numeral.scaled
  let start ← Binary64.nearest numeral.negative significand 1
  if power < 0 then start.lower power.natAbs else start.raise power.natAbs

/-- A numeral without fraction and exponent is an integer when it fits an unsigned 64-bit word,
or a signed one if it is negative; minus zero is a real. A real past the largest one is none. -/
def number? (numeral : Numeral) : Option Number :=
  let whole := Nat.ofDigitChars 10 numeral.whole 0
  if numeral.fraction = [] ∧ numeral.exponent = none ∧ ¬numeral.negative ∧ whole < Nat.pow 2 64 then
    some (.integer whole)
  else if numeral.fraction = [] ∧ numeral.exponent = none ∧ numeral.negative ∧
      0 < whole ∧ whole ≤ Nat.pow 2 63 then
    some (.integer (-whole))
  else numeral.real?.map .real

end Numeral

end Caption
