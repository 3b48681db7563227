import Caption.Json.Written
import Caption.Text.Hex

/-!
The tokens of a JSON text. `Token.scan` splits a whole text into them.
-/
namespace Caption

inductive Token where
  | openArray
  | closeArray
  | openObject
  | closeObject
  | comma
  | colon
  | null
  | bool (value : Bool)
  | number (numeral : Numeral)
  | string (pieces : List Piece)
deriving DecidableEq, Repr

namespace Token

/-- The four characters that separate tokens. -/
def isBlank (character : Char) : Bool :=
  character == ' ' || character == '\t' || character == '\n' || character == '\r'

/-- The unit that four hexadecimal characters stand for. -/
def hexUnit? (first second third fourth : Char) : Option Nat := do
  let a ← Text.hexDigit? first
  let b ← Text.hexDigit? second
  let c ← Text.hexDigit? third
  let d ← Text.hexDigit? fourth
  pure (((a * 16 + b) * 16 + c) * 16 + d)

/-- The character that a one-letter escape stands for. -/
def escaped? : Char → Option Char
  | '"' => some '"'
  | '\\' => some '\\'
  | '/' => some '/'
  | 'b' => some '\x08'
  | 'f' => some '\x0c'
  | 'n' => some '\n'
  | 'r' => some '\r'
  | 't' => some '\t'
  | _ => none

/-- The pieces of a string whose opening quote was read, and what follows its closing quote.
Characters below U+0020 must be escaped. -/
def readString : List Char → Option (List Piece × List Char)
  | [] => none
  | '"' :: rest => some ([], rest)
  | '\\' :: 'u' :: first :: second :: third :: fourth :: rest => do
    let unit ← hexUnit? first second third fourth
    let (pieces, after) ← readString rest
    pure (.unit unit :: pieces, after)
  | '\\' :: letter :: rest => do
    let character ← escaped? letter
    let (pieces, after) ← readString rest
    pure (.char character :: pieces, after)
  | character :: rest =>
    if character.toNat < 32 then none
    else do
      let (pieces, after) ← readString rest
      pure (.char character :: pieces, after)

/-- At least one digit, and what follows the digits. -/
def readDigits (source : List Char) : Option (List Char × List Char) :=
  match source.takeWhile Char.isDigit with
  | [] => none
  | digits => some (digits, source.dropWhile Char.isDigit)

/-- The digits after a point, if there is one. -/
def readFraction : List Char → Option (List Char × List Char)
  | '.' :: rest => readDigits rest
  | source => some ([], source)

/-- The sign and digits after a letter e. -/
def readSigned : List Char → Option ((Bool × List Char) × List Char)
  | '+' :: rest => (readDigits rest).map fun (digits, after) => ((false, digits), after)
  | '-' :: rest => (readDigits rest).map fun (digits, after) => ((true, digits), after)
  | source => (readDigits source).map fun (digits, after) => ((false, digits), after)

/-- The exponent part, if there is one. -/
def readExponent : List Char → Option (Option (Bool × List Char) × List Char)
  | 'e' :: rest => (readSigned rest).map fun (exponent, after) => (some exponent, after)
  | 'E' :: rest => (readSigned rest).map fun (exponent, after) => (some exponent, after)
  | source => some (none, source)

/-- The digits before the point: a leading zero stands alone. -/
def readWhole : List Char → Option (List Char × List Char)
  | '0' :: rest => some (['0'], rest)
  | source => readDigits source

/-- A numeral whose sign was read, and what follows it. -/
def readNumeral (negative : Bool) (source : List Char) : Option (Numeral × List Char) := do
  let (whole, rest) ← readWhole source
  let (fraction, rest) ← readFraction rest
  let (exponent, rest) ← readExponent rest
  pure (⟨negative, whole, fraction, exponent⟩, rest)

/-- The token that begins with a character, and what follows it. -/
def read? (first : Char) (rest : List Char) : Option (Token × List Char) :=
  match first, rest with
  | '[', _ => some (.openArray, rest)
  | ']', _ => some (.closeArray, rest)
  | '\x7b', _ => some (.openObject, rest)
  | '\x7d', _ => some (.closeObject, rest)
  | ',', _ => some (.comma, rest)
  | ':', _ => some (.colon, rest)
  | 'n', 'u' :: 'l' :: 'l' :: after => some (.null, after)
  | 't', 'r' :: 'u' :: 'e' :: after => some (.bool true, after)
  | 'f', 'a' :: 'l' :: 's' :: 'e' :: after => some (.bool false, after)
  | '"', _ => (readString rest).map fun (pieces, after) => (.string pieces, after)
  | '-', _ => (readNumeral true rest).map fun (numeral, after) => (.number numeral, after)
  | _, _ =>
    if first.isDigit then
      (readNumeral false (first :: rest)).map fun (numeral, after) => (.number numeral, after)
    else none

theorem readString_length {source after : List Char} {pieces : List Piece}
    (found : readString source = some (pieces, after)) : after.length < source.length := by
  fun_induction readString source generalizing pieces after with
  | case1 => simp at found
  | case2 rest => simp_all
  | case3 first second third fourth rest ih =>
    simp only [bind, Option.bind_eq_some_iff, Prod.exists] at found
    obtain ⟨unit, -, inner, tail, read, same⟩ := found
    have shorter := ih read
    simp only [pure, Option.some.injEq, Prod.mk.injEq] at same
    simp only [← same.2, List.length_cons]
    omega
  | case4 letter rest _ ih =>
    simp only [bind, Option.bind_eq_some_iff, Prod.exists] at found
    obtain ⟨character, -, inner, tail, read, same⟩ := found
    have shorter := ih read
    simp only [pure, Option.some.injEq, Prod.mk.injEq] at same
    simp only [← same.2, List.length_cons]
    omega
  | case5 => simp at found
  | case6 character rest _ _ _ _ ih =>
    simp only [bind, Option.bind_eq_some_iff, Prod.exists] at found
    obtain ⟨inner, tail, read, same⟩ := found
    have shorter := ih read
    simp only [pure, Option.some.injEq, Prod.mk.injEq] at same
    simp only [← same.2, List.length_cons]
    omega

theorem readDigits_length {source digits after : List Char}
    (found : readDigits source = some (digits, after)) : after.length < source.length := by
  have whole := congrArg List.length (List.takeWhile_append_dropWhile (p := Char.isDigit) (l := source))
  unfold readDigits at found
  split at found
  · simp at found
  · rename_i taken nonempty
    simp only [Option.some.injEq, Prod.mk.injEq] at found
    rw [← found.2]
    have positive := List.length_pos_iff.mpr nonempty
    simp only [List.length_append] at whole
    omega

theorem readFraction_length {source fraction after : List Char}
    (found : readFraction source = some (fraction, after)) : after.length ≤ source.length := by
  unfold readFraction at found
  split at found
  · have shorter := readDigits_length found
    simp only [List.length_cons]
    omega
  · simp_all

theorem readSigned_length {source after : List Char} {exponent : Bool × List Char}
    (found : readSigned source = some (exponent, after)) : after.length < source.length := by
  unfold readSigned at found
  split at found <;>
    simp only [Option.map_eq_some_iff, Prod.exists, Prod.mk.injEq] at found <;>
    obtain ⟨digits, tail, read, -, rfl⟩ := found <;>
    have shorter := readDigits_length read <;>
    grind

theorem readExponent_length {source after : List Char} {exponent : Option (Bool × List Char)}
    (found : readExponent source = some (exponent, after)) : after.length ≤ source.length := by
  unfold readExponent at found
  split at found
  · simp only [Option.map_eq_some_iff, Prod.exists, Prod.mk.injEq] at found
    obtain ⟨signed, digits, tail, read, -, rfl⟩ := found
    have shorter := readSigned_length read
    simp only [List.length_cons]
    omega
  · simp only [Option.map_eq_some_iff, Prod.exists, Prod.mk.injEq] at found
    obtain ⟨signed, digits, tail, read, -, rfl⟩ := found
    have shorter := readSigned_length read
    simp only [List.length_cons]
    omega
  · simp_all

theorem readWhole_length {source whole after : List Char}
    (found : readWhole source = some (whole, after)) : after.length < source.length := by
  unfold readWhole at found
  split at found
  · simp_all
  · exact readDigits_length found

theorem readNumeral_length {negative : Bool} {source after : List Char} {numeral : Numeral}
    (found : readNumeral negative source = some (numeral, after)) :
    after.length < source.length := by
  simp only [readNumeral, bind, Option.bind_eq_some_iff, Prod.exists, pure, Option.some.injEq,
    Prod.mk.injEq] at found
  obtain ⟨whole, afterWhole, readWhole, fraction, afterFraction, readFraction, exponent, tail,
    readExponent, -, rfl⟩ := found
  have first := readWhole_length readWhole
  have second := readFraction_length readFraction
  have third := readExponent_length readExponent
  omega

/-- A token takes at least its first character. -/
theorem read?_length {first : Char} {rest after : List Char} {token : Token}
    (found : read? first rest = some (token, after)) : after.length ≤ rest.length := by
  unfold read? at found
  split at found
  case h_10 =>
    simp only [Option.map_eq_some_iff, Prod.exists, Prod.mk.injEq] at found
    obtain ⟨pieces, tail, read, -, rfl⟩ := found
    exact Nat.le_of_lt (readString_length read)
  case h_11 =>
    simp only [Option.map_eq_some_iff, Prod.exists, Prod.mk.injEq] at found
    obtain ⟨numeral, tail, read, -, rfl⟩ := found
    exact Nat.le_of_lt (readNumeral_length read)
  case h_12 =>
    split at found
    · simp only [Option.map_eq_some_iff, Prod.exists, Prod.mk.injEq] at found
      obtain ⟨numeral, tail, read, -, rfl⟩ := found
      have shorter := readNumeral_length read
      simp only [List.length_cons] at shorter
      omega
    · simp at found
  all_goals
    simp only [Option.some.injEq, Prod.mk.injEq] at found
    simp only [← found.2, List.length_cons]
    omega

/-- The tokens of a text after those in `done`, which are listed backwards. -/
def scanAfter (done : List Token) (source : List Char) : Option (List Token) :=
  match source with
  | [] => some done.reverse
  | first :: rest =>
    if isBlank first then scanAfter done rest
    else
      match _found : read? first rest with
      | none => none
      | some (token, after) => scanAfter (token :: done) after
termination_by source.length
decreasing_by
  · simp
  · have shorter := read?_length _found
    simp only [List.length_cons]
    omega

def scan (source : List Char) : Option (List Token) := scanAfter [] source

end Token

end Caption
