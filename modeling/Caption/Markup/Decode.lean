import Caption.Json.Reader
import Caption.Markup.Error
import Caption.Markup.Query

/-!
Reading syntax trees from JSON values. An object with a string `type` is a node; a kind with a
constructor of its own takes its structural members out and keeps the others. Of two faults the
one in the member that is looked at first is reported.
-/
namespace Caption

namespace Members

/-- The value of a member, with the fact that it is smaller than the object. -/
def find? (members : Members) (key : String) :
    Option { value : Json // sizeOf value < sizeOf members } :=
  match members with
  | [] => none
  | (name, value) :: rest =>
    if name = key then some ⟨value, by simp; omega⟩
    else
      match find? rest key with
      | none => none
      | some ⟨found, smaller⟩ => some ⟨found, by simp; omega⟩

/-- The kind that the member `type` names. -/
def typeName (members : Members) : Except DecodeError String :=
  match members.get? "type" with
  | none => .error (.notANode "object without `type`")
  | some (.string name) => .ok name
  | some value => .error (.unexpectedShape "node" "type" "string" value.kindName)

def require (members : Members) (kind field : String) :
    Except DecodeError { value : Json // sizeOf value < sizeOf members } :=
  match members.find? field with
  | none => .error (.missingField kind field)
  | some found => .ok found

def requireString (members : Members) (kind field : String) : Except DecodeError String := do
  let ⟨value, _⟩ ← members.require kind field
  match value with
  | .string text => pure text
  | other => .error (.unexpectedShape kind field "string" other.kindName)

def requireArray (members : Members) (kind field : String) :
    Except DecodeError { items : List Json // sizeOf items < sizeOf members } := do
  let ⟨value, smaller⟩ ← members.require kind field
  match value, smaller with
  | .array items, smaller => pure ⟨items, by simp at smaller; omega⟩
  | other, _ => .error (.unexpectedShape kind field "array" other.kindName)

/-- A flag that is off when its member is missing. -/
def flag (members : Members) (kind field : String) : Except DecodeError Bool :=
  match members.get? field with
  | none => .ok false
  | some (.bool value) => .ok value
  | some other => .error (.unexpectedShape kind field "boolean" other.kindName)

theorem sizeOf_without_le (members : Members) (key : String) :
    sizeOf (members.without key) ≤ sizeOf members := by
  induction members with
  | nil => simp [without, Keyed.remove]
  | cons head rest ih =>
    simp only [without, Keyed.remove, List.filter_cons] at ih ⊢
    split <;> simp <;> omega

end Members

namespace Node

mutual

def decode (value : Json) : Except DecodeError Node :=
  match value with
  | .object members => do
    let kind ← Members.typeName members
    let rest : Members := Members.without members "type"
    match Kind.ofName kind with
    | .importDeclaration => do
      let ⟨items, _⟩ ← Members.requireArray members kind "specifiers"
      let specifiers ← decodeAll items
      let ⟨origin, _⟩ ← Members.require members kind "source"
      match ← decode origin with
      | .literal source =>
        pure (.importDeclaration specifiers source ((rest.without "specifiers").without "source"))
      | found => .error (.unexpectedShape kind "source" "StringLiteral" found.kindName)
    | .importSpecifier => do
      let ⟨first, _⟩ ← Members.require members kind "imported"
      let imported ← decode first
      let ⟨second, _⟩ ← Members.require members kind "local"
      let binding ← decode second
      pure (.importSpecifier imported binding ((rest.without "imported").without "local"))
    | .element => do
      let ⟨first, _⟩ ← Members.require members kind "openingElement"
      let opening ← decodeOpening first
      let closing ←
        match Members.find? members "closingElement" with
        | none => pure .missing
        | some ⟨last, _⟩ => decodeClosing last
      let ⟨items, _⟩ ← Members.requireArray members kind "children"
      let children ← decodeAll items
      pure (.element opening closing children
        (((rest.without "openingElement").without "closingElement").without "children"))
    | .attr => do
      let ⟨first, _⟩ ← Members.require members kind "name"
      let name ← decode first
      let given ←
        match Members.find? members "value" with
        | none => pure none
        | some ⟨second, _⟩ => decodeOptional second
      pure (.attr name given ((rest.without "name").without "value"))
    | .container => do
      let ⟨only, _⟩ ← Members.require members kind "expression"
      let expression ← decode only
      pure (.container expression (rest.without "expression"))
    | .jsxIdentifier => do
      let name ← Members.requireString members kind "name"
      pure (.jsxIdentifier name (rest.without "name"))
    | .literal => do
      let text ← Members.requireString members kind "value"
      pure (.literal ⟨text, rest.without "value"⟩)
    | .identifier => do
      let name ← Members.requireString members kind "name"
      pure (.identifier name (rest.without "name"))
    | .other _ => do
      have _ := Members.sizeOf_without_le members "type"
      let fields ← decodeFields rest
      pure (.other kind fields)
  | found => .error (.notANode found.kindName)
termination_by 2 * sizeOf value

def decodeAll (items : List Json) : Except DecodeError (List Node) :=
  match items with
  | [] => pure []
  | item :: rest => do
    let node ← decode item
    let nodes ← decodeAll rest
    pure (node :: nodes)
termination_by 2 * sizeOf items

/-- Read a node that may be null. -/
def decodeOptional (value : Json) : Except DecodeError (Option Node) :=
  match value with
  | .null => pure none
  | given => do
    let node ← decode given
    pure (some node)
termination_by 2 * sizeOf value + 1

/-- Read an opening tag, whatever its type is called. -/
def decodeOpening (value : Json) : Except DecodeError Opening :=
  match value with
  | .object members => do
    let kind ← Members.typeName members
    let ⟨first, _⟩ ← Members.require members kind "name"
    let name ← decode first
    let ⟨items, _⟩ ← Members.requireArray members kind "attributes"
    let attributes ← decodeAll items
    let selfClosing ← Members.flag members kind "selfClosing"
    pure (.tag name attributes selfClosing
      ((((Members.without members "type").without "name").without "attributes").without "selfClosing"))
  | found => .error (.notANode found.kindName)
termination_by 2 * sizeOf value

/-- Read a closing tag, which may be null. -/
def decodeClosing (value : Json) : Except DecodeError Closing :=
  match value with
  | .null => pure .missing
  | .object members => do
    let kind ← Members.typeName members
    let ⟨first, _⟩ ← Members.require members kind "name"
    let name ← decode first
    pure (.tag name ((Members.without members "type").without "name"))
  | found => .error (.notANode found.kindName)
termination_by 2 * sizeOf value

/-- Read a field: arrays are lists, an object with a string `type` is a node, and the rest stays
as it is. -/
def decodeField (value : Json) : Except DecodeError Field :=
  match value with
  | .array items => do
    let fields ← decodeItems items
    pure (.list fields)
  | .object members =>
    match Members.get? members "type" with
    | some (.string _) => do
      let node ← decode (.object members)
      pure (.node node)
    | _ => pure (.plain (.object members))
  | scalar => pure (.plain scalar)
termination_by 2 * sizeOf value + 1

def decodeItems (items : List Json) : Except DecodeError (List Field) :=
  match items with
  | [] => pure []
  | item :: rest => do
    let field ← decodeField item
    let fields ← decodeItems rest
    pure (field :: fields)
termination_by 2 * sizeOf items

/-- Read members as fields, in their order. -/
def decodeFields (members : Members) : Except DecodeError (List (String × Field)) :=
  match members with
  | [] => pure []
  | (name, value) :: rest => do
    let field ← decodeField value
    let fields ← decodeFields rest
    pure ((name, field) :: fields)
termination_by 2 * sizeOf members

end

end Node

end Caption
