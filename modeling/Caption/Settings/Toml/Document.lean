import Caption.Settings.Toml.Item
import Caption.Settings.Toml.Number
import Caption.Settings.Toml.Text

/-!
TOML values and documents. Every step is bounded by the number of characters that are left.
-/
namespace Caption

namespace Toml

mutual

/-- A value, and what follows it. So many arrays and inline tables may still be opened as there is
room for. -/
def value? : Nat → Nat → List Char → Option (Value × List Char)
  | 0, _, _ => none
  | fuel + 1, room, source =>
    match source with
    | '"' :: '"' :: '"' :: rest =>
      (longBasicString (rest.length + 1) (skipFirstLineEnd rest)).map fun (text, after) =>
        (.text (String.ofList text), after)
    | '\'' :: '\'' :: '\'' :: rest =>
      (longLiteralString (skipFirstLineEnd rest)).map fun (text, after) =>
        (.text (String.ofList text), after)
    | '"' :: rest =>
      (basicString rest).map fun (text, after) => (.text (String.ofList text), after)
    | '\'' :: rest =>
      (literalString rest).map fun (text, after) => (.text (String.ofList text), after)
    | '[' :: rest =>
      if room = 0 then none
      else (items? fuel (room - 1) rest).map fun (items, after) => (.list items, after)
    | '\x7b' :: rest =>
      if room = 0 then none
      else
        match skipBlanks rest with
        | '\x7d' :: after => some (.table [], after)
        | _ =>
          (entries? fuel (room - 1) [] rest).map fun (entries, after) =>
            (.table (Item.valuesOf entries), after)
    | _ =>
      match moment? .literal source with
      | some (text, after) => some (.moment (String.ofList text), after)
      | none => do
        let text ← word? (source.takeWhile isWordCharacter)
        pure (.text text, source.dropWhile isWordCharacter)

def items? : Nat → Nat → List Char → Option (List Value × List Char)
  | 0, _, _ => none
  | fuel + 1, room, source =>
    match skipLines (source.length + 1) source with
    | ']' :: after => some ([], after)
    | rest => do
      let (item, after) ← value? fuel room rest
      match skipLines (after.length + 1) after with
      | ']' :: after => pure ([item], after)
      | ',' :: after => do
        let (items, after) ← items? fuel room after
        pure (item :: items, after)
      | _ => none

/-- The entries of an inline table after those that were read. -/
def entries? : Nat → Nat → List (String × Item) → List Char →
    Option (List (String × Item) × List Char)
  | 0, _, _, _ => none
  | fuel + 1, room, known, source => do
    let (path, after) ← key? source
    match after with
    | '=' :: after => do
      let (value, after) ← value? fuel room (skipBlanks after)
      let known ← addValue known value path
      match skipBlanks after with
      | '\x7d' :: after => pure (known, after)
      | ',' :: after => entries? fuel room known after
      | _ => none
    | _ => none

end

/-- The last name of a path and the names before it. -/
def splitLast : List String → Option (List String × String)
  | [] => none
  | [name] => some ([], name)
  | name :: rest => (splitLast rest).map fun (before, last) => (name :: before, last)

/-- The entries of a document after those that were read, given the path of the open table. -/
def document? : Nat → List (String × Item) → List String → List Char →
    Option (List (String × Item))
  | 0, _, _, _ => none
  | fuel + 1, known, table, source =>
    match skipBlanks source with
    | [] => some known
    | '[' :: '[' :: rest => do
      let (path, after) ← key? rest
      match after with
      | ']' :: ']' :: after => do
        let (before, last) ← splitLast path
        let known ← inTable (openElement last) known before
        let after ← lineEnd? after
        document? fuel known path after
      | _ => none
    | '[' :: rest => do
      let (path, after) ← key? rest
      match after with
      | ']' :: after => do
        let (before, last) ← splitLast path
        let known ← inTable (openTable last) known before
        let after ← lineEnd? after
        document? fuel known path after
      | _ => none
    | first :: rest =>
      if first == '#' || first == '\n' || first == '\r' then do
        let after ← lineEnd? (first :: rest)
        document? fuel known table after
      else do
        let (path, after) ← key? (first :: rest)
        match after with
        | '=' :: after => do
          let (value, after) ← value? (after.length + 1) depthLimit (skipBlanks after)
          let known ← inTable (fun entries => addValue entries value path) known table
          let after ← lineEnd? after
          document? fuel known table after
        | _ => none

/-- The text without the byte order mark that may begin it. -/
def skipMark : List Char → List Char
  | '\ufeff' :: rest => rest
  | source => source

/-- The settings of a TOML text, which stands for a table. -/
def read? (source : String) : Option (List (String × Setting)) :=
  let characters := skipMark source.toList
  match document? (characters.length + 1) [] [] characters with
  | none => none
  | some entries =>
    match (Value.table (Item.valuesOf entries)).setting? with
    | some (.table settings) => some settings
    | _ => none

end Toml

end Caption
