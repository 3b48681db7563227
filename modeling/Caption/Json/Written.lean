import Caption.Json.Basic

/-!
JSON as it is written: members in their order with repeated keys, numerals unread, strings with
their escaped units apart. `Written.value?` reads such a tree as a value.
-/
namespace Caption

/-- A piece of a written string: a character, or a 16-bit unit given by its hexadecimal digits. -/
inductive Piece where
  | char (value : Char)
  | unit (value : Nat)
deriving DecidableEq, Repr

namespace Piece

/-- The first half of a surrogate pair. -/
def isHigh (unit : Nat) : Bool := Nat.ble 0xD800 unit && Nat.ble unit 0xDBFF

/-- The second half of a surrogate pair. -/
def isLow (unit : Nat) : Bool := Nat.ble 0xDC00 unit && Nat.ble unit 0xDFFF

/-- The character that a surrogate pair stands for. -/
def join (high low : Nat) : Char :=
  Char.ofNat (0x10000 + (high - 0xD800) * 0x400 + (low - 0xDC00))

/-- The characters of a written string; a surrogate that is not part of a pair has none. -/
def text? : List Piece → Option (List Char)
  | [] => some []
  | .char value :: rest => (text? rest).map (value :: ·)
  | .unit value :: rest =>
    if isHigh value then
      match rest with
      | .unit next :: tail =>
        if isLow next then (text? tail).map (join value next :: ·) else none
      | _ => none
    else if isLow value then none
    else (text? rest).map (Char.ofNat value :: ·)

def string? (pieces : List Piece) : Option String := (text? pieces).map String.ofList

end Piece

/-- A JSON text as a tree, with nothing decided that its grammar leaves open. -/
inductive Written where
  | null
  | bool (value : Bool)
  | number (numeral : Numeral)
  | string (pieces : List Piece)
  | array (items : List Written)
  | object (members : List (List Piece × Written))
deriving Inhabited

namespace Written

mutual

/-- The value of a written tree whose containers enclose one another at most `room` deep. A
numeral out of range and an unpaired surrogate have no value; the last of a repeated key wins. -/
def value? (room : Nat) : Written → Option Json
  | .null => some .null
  | .bool value => some (.bool value)
  | .number numeral => numeral.number?.map .number
  | .string pieces => (Piece.string? pieces).map .string
  | .array items =>
    match room with
    | 0 => none
    | room + 1 => (values? room items).map .array
  | .object members =>
    match room with
    | 0 => none
    | room + 1 => (entries? room members).map fun entries => .object (Members.ofList entries)

def values? (room : Nat) : List Written → Option (List Json)
  | [] => some []
  | item :: rest => do
    let value ← value? room item
    let values ← values? room rest
    pure (value :: values)

def entries? (room : Nat) : List (List Piece × Written) → Option (List (String × Json))
  | [] => some []
  | (pieces, item) :: rest => do
    let key ← Piece.string? pieces
    let value ← value? room item
    let entries ← entries? room rest
    pure ((key, value) :: entries)

end

end Written

end Caption
