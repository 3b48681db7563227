import Caption.Markup.Decode
import Caption.Markup.Encode

/-!
Reading whole source files, from JSON values and from JSON texts.
-/
namespace Caption

def Program.decode (members : Members) : Except DecodeError Program := do
  let ⟨items, _⟩ ← members.requireArray "Program" "body"
  let body ← Node.decodeAll items
  pure ⟨body, (members.without "type").without "body"⟩

namespace SourceFile

/-- The program inside a file. -/
def decodeInner (value : Json) : Except DecodeError Program :=
  match value with
  | .object members => do
    let kind ← Members.typeName members
    if kind = "Program" then Program.decode members
    else .error (.unexpectedShape "File" "program" "Program" kind)
  | found => .error (.notANode found.kindName)

/-- Read a file, or a program without a file around it. -/
def decode (value : Json) : Except DecodeError SourceFile :=
  match value with
  | .object members => do
    let kind ← Members.typeName members
    if kind = "File" then do
      let ⟨inner, _⟩ ← Members.require members "File" "program"
      let program ← decodeInner inner
      pure ⟨program, some ((Members.without members "type").without "program")⟩
    else if kind = "Program" then do
      let program ← Program.decode members
      pure ⟨program, none⟩
    else .error (.unexpectedShape "root" "type" "File or Program" kind)
  | found => .error (.notANode found.kindName)

def read (text : String) : Except DecodeError SourceFile :=
  match Json.read? text with
  | none => .error .notJson
  | some value => decode value

end SourceFile

end Caption
