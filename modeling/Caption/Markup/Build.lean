import Caption.Markup.Query

/-!
Building nodes that were not read from anywhere, and so have no members beyond their structure.
-/
namespace Caption

namespace Node

def string (value : String) : Node := .literal ⟨value, []⟩

def jsxName (name : String) : Node := .jsxIdentifier name []

def newElement (name : String) (attributes children : List Node) : Node :=
  .element (.tag (jsxName name) attributes false []) (.tag (jsxName name) []) children []

def newSelfClosing (name : String) (attributes : List Node) : Node :=
  .element (.tag (jsxName name) attributes true []) .missing [] []

def newAttribute (name : String) (value : Option Node) : Node := .attr (jsxName name) value []

def newStringAttribute (name value : String) : Node := newAttribute name (some (string value))

def newContainer (expression : Node) : Node := .container expression []

def newExpressionAttribute (name : String) (expression : Node) : Node :=
  newAttribute name (some (newContainer expression))

def emptyContainer : Node := newContainer (.other "JSXEmptyExpression" [])

/-- A specifier that imports a name as itself. -/
def newSpecifier (name : String) : Node :=
  .importSpecifier (.identifier name []) (.identifier name []) []

/-- An import of names as themselves. -/
def newImport (names : List String) (source : String) : Node :=
  .importDeclaration (names.map newSpecifier) ⟨source, []⟩ []

end Node

/-- A field that lists nodes. -/
def Field.ofNodes (nodes : List Node) : Field := .list (nodes.map .node)

end Caption
