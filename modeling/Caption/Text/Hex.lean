/-! Hexadecimal digits. -/
namespace Caption

namespace Text

/-- The value of a hexadecimal digit, in either case. -/
def hexDigit? (character : Char) : Option Nat :=
  let code := character.toNat
  if Nat.ble '0'.toNat code && Nat.ble code '9'.toNat then some (code - '0'.toNat)
  else if Nat.ble 'a'.toNat code && Nat.ble code 'f'.toNat then some (code - 'a'.toNat + 10)
  else if Nat.ble 'A'.toNat code && Nat.ble code 'F'.toNat then some (code - 'A'.toNat + 10)
  else none

end Text

end Caption
