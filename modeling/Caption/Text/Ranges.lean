/-! Sets of characters as lists of ranges of code points. -/
namespace Caption

namespace Text

/-- Whether a character lies in one of the ranges, whose ends belong to them. -/
def inRanges (ranges : List (Nat × Nat)) (character : Char) : Bool :=
  ranges.any fun range => Nat.ble range.1 character.toNat && Nat.ble character.toNat range.2

end Text

end Caption
