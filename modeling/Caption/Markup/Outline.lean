import Caption.Markup.Query

/-!
The outline of a source file: one line a node, in document order, with connectors that show how
the nodes nest.
-/
namespace Caption

/-- A drawn node: its icon, its label, and the nodes below it. -/
inductive Outline where
  | item (icon label : String) (parts : List Outline)

namespace Node

def icon (node : Node) : String :=
  match node.kind with
  | .importDeclaration => "⇲"
  | .importSpecifier => "⇢"
  | .element => "◇"
  | .attr => "="
  | .container => "\x7b \x7d"
  | .jsxIdentifier => "⟨⟩"
  | .literal => "\""
  | .identifier => "𝑥"
  | .other _ => "∙"

/-- The longest label that is drawn whole. -/
def labelLimit : Nat := 60

/-- A text cut after `labelLimit` characters, with an ellipsis in place of the others. -/
def shorten (text : String) : String :=
  if labelLimit < text.toList.length then String.ofList (text.toList.take labelLimit ++ ['…'])
  else text

/-- The outline below and with a node. -/
def outline (node : Node) : Outline :=
  .item node.icon (shorten node.label) (node.children.attach.map fun child => outline child.1)
termination_by node.size
decreasing_by exact Node.size_lt_of_mem_children child.2

end Node

namespace Outline

mutual

/-- The lines of a node and of what is below it. -/
def lines (margin : String) (last : Bool) : Outline → List String
  | .item icon label parts =>
    (margin ++ (if last then "└─" else "├─") ++ " " ++ icon ++ " " ++ label) ::
      linesOfAll (margin ++ (if last then "  " else "│ ")) parts

def linesOfAll (margin : String) : List Outline → List String
  | [] => []
  | head :: rest => lines margin rest.isEmpty head ++ linesOfAll margin rest

end

end Outline

namespace SourceFile

def outlines (source : SourceFile) : List Outline := source.program.body.map Node.outline

/-- The drawing of a file: a heading and a line for every node, each ended by a line feed. -/
def draw (source : SourceFile) : String :=
  let heading := "⧉ Program (" ++ Nat.repr source.program.body.length ++ " statements)"
  String.join ((heading :: Outline.linesOfAll "" source.outlines).map fun line => line ++ "\n")

end SourceFile

end Caption
