import Caption.Markup.Children

/-!
Questions about nodes: their kind, their label, and the names of elements, attributes and imports.
A name is only a plain identifier; a namespaced or dotted one never matches.
-/
namespace Caption

/-- The kinds of node with a constructor of their own, and all others by name. -/
inductive Kind where
  | importDeclaration
  | importSpecifier
  | element
  | attr
  | container
  | jsxIdentifier
  | literal
  | identifier
  | other (name : String)
deriving DecidableEq

namespace Kind

def name : Kind → String
  | .importDeclaration => "ImportDeclaration"
  | .importSpecifier => "ImportSpecifier"
  | .element => "JSXElement"
  | .attr => "JSXAttribute"
  | .container => "JSXExpressionContainer"
  | .jsxIdentifier => "JSXIdentifier"
  | .literal => "StringLiteral"
  | .identifier => "Identifier"
  | .other name => name

def ofName (name : String) : Kind :=
  if name = "ImportDeclaration" then .importDeclaration
  else if name = "ImportSpecifier" then .importSpecifier
  else if name = "JSXElement" then .element
  else if name = "JSXAttribute" then .attr
  else if name = "JSXExpressionContainer" then .container
  else if name = "JSXIdentifier" then .jsxIdentifier
  else if name = "StringLiteral" then .literal
  else if name = "Identifier" then .identifier
  else .other name

end Kind

namespace Node

def kind : Node → Kind
  | .importDeclaration _ _ _ => .importDeclaration
  | .importSpecifier _ _ _ => .importSpecifier
  | .element _ _ _ _ => .element
  | .attr _ _ _ => .attr
  | .container _ _ => .container
  | .jsxIdentifier _ _ => .jsxIdentifier
  | .literal _ => .literal
  | .identifier _ _ => .identifier
  | .other kind _ => .other kind

def kindName (node : Node) : String := node.kind.name

def isElement : Node → Bool
  | .element _ _ _ _ => true
  | _ => false

/-- The plain name of an element or attribute, whose name is itself a node. -/
def plainName? : Node → Option String
  | .jsxIdentifier name _ => some name
  | _ => none

def elementName? : Node → Option String
  | .element opening _ _ _ => opening.name.plainName?
  | _ => none

def attributeName? : Node → Option String
  | .attr name _ _ => name.plainName?
  | _ => none

def attributeValue? : Node → Option Node
  | .attr _ value _ => value
  | _ => none

/-- The name that an import specifier imports; a string in its place is not a name. -/
def specifiedName? : Node → Option String
  | .importSpecifier (.identifier name _) _ _ => some name
  | _ => none

/-- The module that an import declaration names. -/
def importSource? : Node → Option String
  | .importDeclaration _ source _ => some source.value
  | _ => none

/-- Whether an import declaration imports a name, under whatever local name. -/
def importsName (name : String) : Node → Bool
  | .importDeclaration specifiers _ _ =>
    specifiers.any fun specifier => specifier.specifiedName? == some name
  | _ => false

def attributes : Node → List Node
  | .element opening _ _ _ => opening.attributes
  | _ => []

/-- The position of the first attribute of a name. -/
def attributeIndex? (name : String) (node : Node) : Option Nat :=
  node.attributes.findIdx? fun candidate => candidate.attributeName? == some name

def firstAttribute? (name : String) (node : Node) : Option Node :=
  node.attributes.find? fun candidate => candidate.attributeName? == some name

/-- The elements that stand directly in an element. -/
def elementChildren : Node → List Node
  | .element _ _ children _ => children.filter isElement
  | _ => []

/-- Whether the opening tag of an element closes it. -/
def isSelfClosing : Node → Bool
  | .element opening _ _ _ => opening.selfClosing
  | _ => false

def isClosed : Node → Bool
  | .element _ (.tag _ _) _ _ => true
  | _ => false

/-- Whether an expression container holds nothing. -/
def isEmptyContainer : Node → Bool
  | .container expression _ => expression.kindName == "JSXEmptyExpression"
  | _ => false

/-- The text of a string literal. -/
def text? : Node → Option String
  | .literal text => some text.value
  | _ => none

def fields : Node → List (String × Field)
  | .other _ fields => fields
  | _ => []

def field? (name : String) (node : Node) : Option Field :=
  (node.fields.find? fun field => field.1 == name).map Prod.snd

/-- One line about a node, without its children. -/
def label : Node → String
  | .importDeclaration specifiers source _ =>
    "\x7b " ++ String.intercalate ", " (specifiers.filterMap specifiedName?) ++ " \x7d from \"" ++
      source.value ++ "\""
  | .importSpecifier imported binding extra =>
    (specifiedName? (.importSpecifier imported binding extra)).getD "?"
  | .element opening _ _ _ => "<" ++ opening.name.plainName?.getD "?" ++ ">"
  | .attr name _ _ => name.plainName?.getD "?"
  | .container _ _ => "\x7b…\x7d"
  | .jsxIdentifier name _ => name
  | .literal text => "\"" ++ text.value ++ "\""
  | .identifier name _ => name
  | .other kind _ => kind

end Node

/-- The first attribute of a name, and the attributes without it. -/
def takeAttribute (name : String) : List Node → Option (Node × List Node)
  | [] => none
  | head :: rest =>
    if head.attributeName? = some name then some (head, rest)
    else (takeAttribute name rest).map fun (taken, others) => (taken, head :: others)

theorem sizeOfAll_takeAttribute {name : String} {nodes others : List Node} {taken : Node}
    (found : takeAttribute name nodes = some (taken, others)) :
    Node.sizeOfAll nodes = taken.size + Node.sizeOfAll others := by
  induction nodes generalizing others with
  | nil => simp [takeAttribute] at found
  | cons head rest ih =>
    simp only [takeAttribute] at found
    split at found
    · simp_all [Node.sizeOfAll]
    · simp only [Option.map_eq_some_iff, Prod.exists, Prod.mk.injEq] at found
      obtain ⟨first, tail, inner, rfl, rfl⟩ := found
      have whole := ih inner
      simp only [Node.sizeOfAll]
      omega

end Caption
