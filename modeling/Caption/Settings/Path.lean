/-!
Paths to settings: a name, and then names behind dots and positions between brackets, as in
`section.list[0]`.
-/
namespace Caption

/-- A step on a path: into a table by a name, or into a list by a position, which counts from the
end if it is negative. -/
inductive PathStep where
  | name (name : String)
  | position (position : Int)
deriving DecidableEq, Repr

namespace PathStep

def isNameCharacter (character : Char) : Bool :=
  character.isAlphanum || character == '_' || character == '-' || character == ' '

/-- A character that may stand around a position. -/
def isBlank (character : Char) : Bool := character == ' ' || character == '\t'

/-- A position between brackets, of which only what stands inside is given. -/
def position? (written : List Char) : Option PathStep :=
  let (negative, rest) :=
    match written.dropWhile isBlank with
    | '-' :: rest => (true, rest)
    | rest => (false, rest)
  let digits := rest.takeWhile Char.isDigit
  let value := Nat.ofDigitChars 10 digits 0
  if digits = [] ∨ ¬(rest.drop digits.length).all isBlank then none
  else if negative then if value ≤ Nat.pow 2 63 then some (.position (-value)) else none
  else if value < Nat.pow 2 63 then some (.position value)
  else none

/-- The steps that follow the first name of a path. -/
def rest? : Nat → List Char → Option (List PathStep)
  | _, [] => some []
  | 0, _ :: _ => none
  | fuel + 1, '.' :: written => do
    let name := written.takeWhile isNameCharacter
    if name = [] then none
    let steps ← rest? fuel (written.drop name.length)
    pure (.name (String.ofList name) :: steps)
  | fuel + 1, '[' :: written => do
    let inside := written.takeWhile (· != ']')
    let step ← position? inside
    match written.drop inside.length with
    | ']' :: after => do
      let steps ← rest? fuel after
      pure (step :: steps)
    | _ => none
  | _ + 1, _ :: _ => none

/-- The steps of a path. It begins with a name, and no name is empty. -/
def read? (path : String) : Option (List PathStep) := do
  let written := path.toList
  let name := written.takeWhile isNameCharacter
  if name = [] then none
  let steps ← rest? written.length (written.drop name.length)
  pure (.name (String.ofList name) :: steps)

end PathStep

end Caption
