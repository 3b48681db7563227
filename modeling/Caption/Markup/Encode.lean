import Caption.Json.Printer
import Caption.Markup.Query

/-!
Writing syntax trees as JSON values: the structural members of a node are put over the members it
keeps, and the optional ones are written as null where they are missing.
-/
namespace Caption

/-- The members of an object of a kind. -/
def Members.ofKind (kind : String) (extra : Members) : Members :=
  extra.set "type" (.string kind)

mutual

def Node.encode : Node → Json
  | .importDeclaration specifiers source extra =>
    .object <| ((Members.ofKind "ImportDeclaration" extra).set
      "specifiers" (.array (Node.encodeAll specifiers))).set
      "source" (.object ((Members.ofKind "StringLiteral" source.extra).set
        "value" (.string source.value)))
  | .importSpecifier imported binding extra =>
    .object <| ((Members.ofKind "ImportSpecifier" extra).set
      "imported" imported.encode).set
      "local" binding.encode
  | .element opening closing children extra =>
    .object <| (((Members.ofKind "JSXElement" extra).set
      "openingElement" opening.encode).set
      "closingElement" closing.encode).set
      "children" (.array (Node.encodeAll children))
  | .attr name none extra =>
    .object <| ((Members.ofKind "JSXAttribute" extra).set "name" name.encode).set "value" .null
  | .attr name (some value) extra =>
    .object <| ((Members.ofKind "JSXAttribute" extra).set
      "name" name.encode).set
      "value" value.encode
  | .container expression extra =>
    .object <| (Members.ofKind "JSXExpressionContainer" extra).set
      "expression" expression.encode
  | .jsxIdentifier name extra =>
    .object <| (Members.ofKind "JSXIdentifier" extra).set "name" (.string name)
  | .literal text =>
    .object <| (Members.ofKind "StringLiteral" text.extra).set "value" (.string text.value)
  | .identifier name extra =>
    .object <| (Members.ofKind "Identifier" extra).set "name" (.string name)
  | .other kind fields =>
    .object <| Keyed.putAll Prod.fst (Field.encodeFields fields) [("type", .string kind)]

def Node.encodeAll : List Node → List Json
  | [] => []
  | node :: rest => node.encode :: Node.encodeAll rest

def Opening.encode : Opening → Json
  | .tag name attributes selfClosing extra =>
    .object <| (((Members.ofKind "JSXOpeningElement" extra).set
      "name" name.encode).set
      "attributes" (.array (Node.encodeAll attributes))).set
      "selfClosing" (.bool selfClosing)

def Closing.encode : Closing → Json
  | .missing => .null
  | .tag name extra =>
    .object <| (Members.ofKind "JSXClosingElement" extra).set "name" name.encode

def Field.encode : Field → Json
  | .node inner => inner.encode
  | .list items => .array (Field.encodeAll items)
  | .plain value => value

def Field.encodeAll : List Field → List Json
  | [] => []
  | field :: rest => field.encode :: Field.encodeAll rest

def Field.encodeFields : List (String × Field) → List (String × Json)
  | [] => []
  | (name, field) :: rest => (name, field.encode) :: Field.encodeFields rest

end

def Program.encode (program : Program) : Json :=
  .object <| (Members.ofKind "Program" program.extra).set
    "body" (.array (Node.encodeAll program.body))

namespace SourceFile

/-- The value of a file, or of the bare program if there is no file around it. -/
def encode (source : SourceFile) : Json :=
  match source.file with
  | none => source.program.encode
  | some extra => .object <| (Members.ofKind "File" extra).set "program" source.program.encode

def render (source : SourceFile) : String := source.encode.pretty

end SourceFile

end Caption
