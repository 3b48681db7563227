import Caption.Number.Decimal
import Caption.Text.Hex

/-!
The booleans and numbers of TOML, read as the text of their value: an integer in decimal, a float
in positional digits and without an empty fraction.
-/
namespace Caption

/-- A binary64 number in positional digits, without an empty fraction. Of two decimals that are
equally near, it takes the one farther from zero. -/
def Binary64.plain (number : Binary64) : String :=
  let magnitude := (number.shortest .awayFromZero).positional
  String.ofList (if number.negative then '-' :: magnitude else magnitude)

namespace Toml

/-- Digits without the underscores between them; an underscore stands between two digits. -/
def digits? (isDigit : Char → Bool) (written : List Char) : Option (List Char) :=
  let groups := (String.ofList written).splitOn "_"
  if groups.all fun group => !group.isEmpty && group.toList.all isDigit then
    some (groups.flatMap String.toList)
  else none

/-- A sign and what it stands before. -/
def sign : List Char → Bool × List Char
  | '-' :: rest => (true, rest)
  | '+' :: rest => (false, rest)
  | written => (false, written)

/-- An integer in another base, given its digits. -/
def based? (base : Nat) (isDigit : Char → Bool) (written : List Char) : Option Int := do
  let digits ← digits? isDigit written
  let values ← digits.mapM Text.hexDigit?
  let value := values.foldl (fun total digit => base * total + digit) 0
  if value < Nat.pow 2 63 then some value else none

/-- An integer of 64 bits with a sign. -/
def integer? (written : List Char) : Option Int :=
  match written with
  | '0' :: 'x' :: rest => based? 16 (fun digit => (Text.hexDigit? digit).isSome) rest
  | '0' :: 'o' :: rest => based? 8 (fun digit => digit.isDigit && Nat.ble digit.toNat '7'.toNat) rest
  | '0' :: 'b' :: rest => based? 2 (fun digit => digit == '0' || digit == '1') rest
  | _ => do
    let (negative, magnitude) := sign written
    let digits ← digits? Char.isDigit magnitude
    if 1 < digits.length ∧ digits.head? = some '0' then none
    let value := Nat.ofDigitChars 10 digits 0
    if negative then if value ≤ Nat.pow 2 63 then some (-value) else none
    else if value < Nat.pow 2 63 then some value
    else none

/-- The binary64 number nearest to a decimal; one past the largest has none. -/
def nearest? (negative : Bool) (digits : Nat) (power : Int) : Option Binary64 :=
  let length : Int := (Nat.toDigits 10 digits).length
  if digits = 0 ∨ power + length < -400 then some (Binary64.zero negative)
  else if 400 < power + length then none
  else if power < 0 then Binary64.nearest negative digits (Nat.pow 10 power.natAbs)
  else Binary64.nearest negative (digits * Nat.pow 10 power.natAbs) 1

/-- A float: whole digits, and a fraction or an exponent or both. One past the largest float is an
infinity if it is negative, and no value otherwise. -/
def float? (written : List Char) : Option String := do
  let (negative, magnitude) := sign written
  let mantissa := magnitude.takeWhile fun character => character != 'e' && character != 'E'
  let exponent ←
    match magnitude.drop mantissa.length with
    | [] => pure none
    | _ :: rest =>
      let (below, power) := sign rest
      let digits ← digits? Char.isDigit power
      let value : Int := Nat.ofDigitChars 10 digits 0
      pure (some (if below then -value else value))
  let whole := mantissa.takeWhile fun character => character != '.'
  let wholeDigits ← digits? Char.isDigit whole
  if 1 < wholeDigits.length ∧ wholeDigits.head? = some '0' then none
  let fraction ←
    match mantissa.drop whole.length with
    | [] => pure none
    | _ :: rest => (digits? Char.isDigit rest).map some
  if fraction.isNone ∧ exponent.isNone then none
  let places := fraction.getD []
  match nearest? negative (Nat.ofDigitChars 10 (wholeDigits ++ places) 0)
      (exponent.getD 0 - places.length) with
  | some number => pure number.plain
  | none => if negative then pure "-inf" else none

def word? (written : List Char) : Option String :=
  match String.ofList written with
  | "true" => some "true"
  | "false" => some "false"
  | "inf" => some "inf"
  | "+inf" => some "inf"
  | "-inf" => some "-inf"
  | "nan" => some "NaN"
  | "+nan" => some "NaN"
  | "-nan" => some "NaN"
  | _ =>
    match integer? written with
    | some value => some (String.ofList (Decimal.ofInt value))
    | none => float? written

def isWordCharacter (character : Char) : Bool :=
  character.isAlphanum || character == '_' || character == '-' || character == '+' ||
    character == '.'

end Toml

end Caption
