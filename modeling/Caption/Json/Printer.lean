import Caption.Json.Basic

/-!
Printing JSON: strings with as few escapes as the grammar allows, and values over several lines
with two blanks for each level.
-/
namespace Caption

namespace Json

/-- The digits of a hexadecimal number below 256. -/
def hexPair (code : Nat) : List Char :=
  [Nat.digitChar (code / 16), Nat.digitChar (code % 16)]

/-- A character inside quotes: only quotes, backslashes and control characters are escaped. -/
def escape (character : Char) : List Char :=
  match character with
  | '"' => ['\\', '"']
  | '\\' => ['\\', '\\']
  | '\x08' => ['\\', 'b']
  | '\x0c' => ['\\', 'f']
  | '\n' => ['\\', 'n']
  | '\r' => ['\\', 'r']
  | '\t' => ['\\', 't']
  | _ =>
    if character.toNat < 32 then '\\' :: 'u' :: '0' :: '0' :: hexPair character.toNat
    else [character]

def quote (text : String) : List Char :=
  '"' :: (text.toList.flatMap escape ++ ['"'])

def indent (level : Nat) : List Char := List.replicate (2 * level) ' '

mutual

/-- A value whose first line is already indented. -/
def prettyAt (level : Nat) : Json → List Char
  | .null => ['n', 'u', 'l', 'l']
  | .bool true => ['t', 'r', 'u', 'e']
  | .bool false => ['f', 'a', 'l', 's', 'e']
  | .number value => value.render
  | .string text => quote text
  | .array [] => ['[', ']']
  | .array (item :: rest) =>
    '[' :: '\n' :: (prettyItems (level + 1) (item :: rest) ++ '\n' :: (indent level ++ [']']))
  | .object [] => ['\x7b', '\x7d']
  | .object (member :: rest) =>
    '\x7b' :: '\n' ::
      (prettyMembers (level + 1) (member :: rest) ++ '\n' :: (indent level ++ ['\x7d']))

def prettyItems (level : Nat) : List Json → List Char
  | [] => []
  | [item] => indent level ++ prettyAt level item
  | item :: next :: rest =>
    indent level ++ prettyAt level item ++ ',' :: '\n' :: prettyItems level (next :: rest)

def prettyMembers (level : Nat) : List (String × Json) → List Char
  | [] => []
  | [(key, value)] => indent level ++ quote key ++ ':' :: ' ' :: prettyAt level value
  | (key, value) :: next :: rest =>
    indent level ++ quote key ++ ':' :: ' ' ::
      (prettyAt level value ++ ',' :: '\n' :: prettyMembers level (next :: rest))

end

/-- The text of a value over several lines, without a final line end. -/
def pretty (value : Json) : String := String.ofList (prettyAt 0 value)

end Json

end Caption
