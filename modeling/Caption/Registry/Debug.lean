import Caption.Registry.Attachment
import Caption.Text.Extending
import Caption.Text.Unseen

/-!
The text that shows the inside of a registry or attachment, with strings between quotes.
-/
namespace Caption

namespace Debug

/-- Whether a character is shown by its number. -/
def isHidden (character : Char) : Bool :=
  Text.isUnseen character || Text.isExtending character

/-- A character between quotes. -/
def character (character : Char) : List Char :=
  match character with
  | '"' => ['\\', '"']
  | '\\' => ['\\', '\\']
  | '\n' => ['\\', 'n']
  | '\r' => ['\\', 'r']
  | '\t' => ['\\', 't']
  | '\x00' => ['\\', '0']
  | other =>
    if isHidden other then
      '\\' :: 'u' :: '\x7b' :: (Nat.toDigits 16 other.toNat ++ ['\x7d'])
    else [other]

/-- A text between quotes. -/
def text (text : String) : String :=
  String.ofList ('"' :: (text.toList.flatMap character ++ ['"']))

def optionalText : Option String → String
  | none => "None"
  | some content => "Some(" ++ text content ++ ")"

def entry (entry : Entry) : String :=
  "DescribeNode \x7b id: " ++ text entry.id ++ ", parent_id: " ++ optionalText entry.parentId ++
    ", content: " ++ optionalText entry.content ++ " \x7d"

def attachment (attachment : Attachment) : String :=
  "Attachment(" ++ entry attachment.entry ++ ")"

/-- The inside of a registry; the host is not part of it. -/
def registry (surface : Surface) : String :=
  let nodes := surface.tree.entries.map fun item => text item.id ++ ": " ++ entry item
  "DescribeRegistry \x7b tree: DescribeTree \x7b nodes: \x7b" ++ String.intercalate ", " nodes ++
    "\x7d \x7d, options: RegistryOptions \x7b state_key: " ++ text surface.stateKey ++ " \x7d \x7d"

end Debug

end Caption
