import Caption.Text.Hex

/-!
The texts of TOML: blanks and comments, strings of four kinds, and keys.
-/
namespace Caption

namespace Toml

/-- The text without the blanks that begin it. -/
def skipBlanks (source : List Char) : List Char :=
  source.dropWhile fun character => character == ' ' || character == '\t'

/-- A character that comments and literal strings may hold. -/
def isPlain (character : Char) : Bool :=
  character == '\t' || (Nat.ble 0x20 character.toNat && character.toNat != 0x7F)

/-- What follows the end of a line: blanks, a comment, and a line feed or the end of the text. -/
def lineEnd? (source : List Char) : Option (List Char) :=
  let rest :=
    match skipBlanks source with
    | '#' :: comment => comment.dropWhile isPlain
    | other => other
  match rest with
  | [] => some []
  | '\n' :: after => some after
  | '\r' :: '\n' :: after => some after
  | _ => none

/-- What follows blanks and line ends. -/
def skipBlankLines : List Char → List Char
  | ' ' :: rest => skipBlankLines rest
  | '\t' :: rest => skipBlankLines rest
  | '\n' :: rest => skipBlankLines rest
  | '\r' :: '\n' :: rest => skipBlankLines rest
  | source => source

/-- What follows blanks, comments and line ends. -/
def skipLines : Nat → List Char → List Char
  | 0, source => source
  | fuel + 1, source =>
    match skipBlanks source with
    | [] => []
    | first :: rest =>
      if first == '\n' || first == '\r' || first == '#' then
        match lineEnd? (first :: rest) with
        | some after => skipLines fuel after
        | none => first :: rest
      else first :: rest

/-- The character that hexadecimal digits name. -/
def scalar? (digits : List Char) : Option Char := do
  let values ← digits.mapM Text.hexDigit?
  let code := values.foldl (fun total digit => 16 * total + digit) 0
  if code.isValidChar then some (Char.ofNat code) else none

/-- The character that a one-letter escape names. -/
def escaped? : Char → Option Char
  | 'b' => some '\x08'
  | 't' => some '\t'
  | 'n' => some '\n'
  | 'f' => some '\x0c'
  | 'r' => some '\r'
  | '"' => some '"'
  | '\\' => some '\\'
  | _ => none

/-- A basic string whose opening quote was read. -/
def basicString : List Char → Option (List Char × List Char)
  | [] => none
  | '"' :: rest => some ([], rest)
  | '\\' :: 'u' :: a :: b :: c :: d :: rest => do
    let character ← scalar? [a, b, c, d]
    let (text, after) ← basicString rest
    pure (character :: text, after)
  | '\\' :: 'U' :: a :: b :: c :: d :: e :: f :: g :: h :: rest => do
    let character ← scalar? [a, b, c, d, e, f, g, h]
    let (text, after) ← basicString rest
    pure (character :: text, after)
  | '\\' :: letter :: rest => do
    let character ← escaped? letter
    let (text, after) ← basicString rest
    pure (character :: text, after)
  | character :: rest =>
    if isPlain character && character != '\\' then do
      let (text, after) ← basicString rest
      pure (character :: text, after)
    else none

/-- A literal string whose opening quote was read. -/
def literalString (source : List Char) : Option (List Char × List Char) :=
  let text := source.takeWhile fun character => isPlain character && character != '\''
  match source.drop text.length with
  | '\'' :: after => some (text, after)
  | _ => none

/-- The text inside a multi-line basic string whose opening quotes were read. A backslash before a
line end takes the blank lines and blanks after it away. -/
def longBasicString : Nat → List Char → Option (List Char × List Char)
  | 0, _ => none
  | fuel + 1, source =>
    match source with
    | '"' :: '"' :: '"' :: '"' :: '"' :: rest => some (['"', '"'], rest)
    | '"' :: '"' :: '"' :: '"' :: rest => some (['"'], rest)
    | '"' :: '"' :: '"' :: rest => some ([], rest)
    | '\\' :: 'u' :: a :: b :: c :: d :: rest => do
      let character ← scalar? [a, b, c, d]
      let (text, after) ← longBasicString fuel rest
      pure (character :: text, after)
    | '\\' :: 'U' :: a :: b :: c :: d :: e :: f :: g :: h :: rest => do
      let character ← scalar? [a, b, c, d, e, f, g, h]
      let (text, after) ← longBasicString fuel rest
      pure (character :: text, after)
    | '\\' :: letter :: rest =>
      match escaped? letter with
      | some character => do
        let (text, after) ← longBasicString fuel rest
        pure (character :: text, after)
      | none =>
        match skipBlanks (letter :: rest) with
        | '\n' :: after => longBasicString fuel (skipBlankLines after)
        | '\r' :: '\n' :: after => longBasicString fuel (skipBlankLines after)
        | _ => none
    | '\r' :: '\n' :: rest => do
      let (text, after) ← longBasicString fuel rest
      pure ('\n' :: text, after)
    | character :: rest =>
      if isPlain character && character != '\\' || character == '\n' then do
        let (text, after) ← longBasicString fuel rest
        pure (character :: text, after)
      else none
    | [] => none

/-- The text inside a multi-line literal string whose opening quotes were read. -/
def longLiteralString : List Char → Option (List Char × List Char)
  | '\'' :: '\'' :: '\'' :: '\'' :: '\'' :: rest => some (['\'', '\''], rest)
  | '\'' :: '\'' :: '\'' :: '\'' :: rest => some (['\''], rest)
  | '\'' :: '\'' :: '\'' :: rest => some ([], rest)
  | '\r' :: '\n' :: rest => do
    let (text, after) ← longLiteralString rest
    pure ('\n' :: text, after)
  | character :: rest =>
    if isPlain character || character == '\n' then do
      let (text, after) ← longLiteralString rest
      pure (character :: text, after)
    else none
  | [] => none

/-- The line end that may follow the opening quotes of a multi-line string is not part of it. -/
def skipFirstLineEnd : List Char → List Char
  | '\n' :: rest => rest
  | '\r' :: '\n' :: rest => rest
  | source => source

def isKeyCharacter (character : Char) : Bool :=
  character.isAlphanum || character == '_' || character == '-'

def keyName? : List Char → Option (String × List Char)
  | '"' :: rest => (basicString rest).map fun (text, after) => (String.ofList text, after)
  | '\'' :: rest => (literalString rest).map fun (text, after) => (String.ofList text, after)
  | source =>
    match source.takeWhile isKeyCharacter with
    | [] => none
    | name => some (String.ofList name, source.dropWhile isKeyCharacter)

/-- The greatest number of names in a key, and of arrays and inline tables inside one another. -/
def depthLimit : Nat := 79

/-- The names of a key, which dots join. -/
def names? : Nat → List Char → Option (List String × List Char)
  | 0, _ => none
  | fuel + 1, source => do
    let (name, after) ← keyName? (skipBlanks source)
    match skipBlanks after with
    | '.' :: rest => do
      let (names, after) ← names? fuel rest
      pure (name :: names, after)
    | rest => pure ([name], rest)

def key? (source : List Char) : Option (List String × List Char) := do
  let (names, after) ← names? (source.length + 1) source
  if depthLimit < names.length then none else pure (names, after)

end Toml

end Caption
