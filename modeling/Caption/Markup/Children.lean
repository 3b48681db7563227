import Caption.Markup.Node

/-!
The children of a node in document order, and putting other nodes in their places. The names of
elements and the source of an import are parts of their node, not children.
-/
namespace Caption

mutual

/-- The nodes of a field, those in lists from left to right. -/
def Field.nodes : Field → List Node
  | .node inner => [inner]
  | .list items => Field.nodesOfAll items
  | .plain _ => []

def Field.nodesOfAll : List Field → List Node
  | [] => []
  | field :: rest => field.nodes ++ Field.nodesOfAll rest

end

def Field.nodesOfFields (fields : List (String × Field)) : List Node :=
  fields.flatMap fun field => field.2.nodes

mutual

/-- Put the first of the given nodes into the places of a field, and return those left over. -/
def Field.refill : Field → List Node → Field × List Node
  | .node _, replacement :: rest => (.node replacement, rest)
  | .node inner, [] => (.node inner, [])
  | .list items, replacements =>
    let (filled, rest) := Field.refillAll items replacements
    (.list filled, rest)
  | .plain value, replacements => (.plain value, replacements)

def Field.refillAll : List Field → List Node → List Field × List Node
  | [], replacements => ([], replacements)
  | field :: rest, replacements =>
    let (filled, others) := field.refill replacements
    let (filledRest, unused) := Field.refillAll rest others
    (filled :: filledRest, unused)

end

def Field.refillFields : List (String × Field) → List Node → List (String × Field)
  | [], _ => []
  | (name, field) :: rest, replacements =>
    let (filled, others) := field.refill replacements
    (name, filled) :: Field.refillFields rest others

namespace Node

/-- The children of a node in document order. -/
def children : Node → List Node
  | .importDeclaration specifiers _ _ => specifiers
  | .importSpecifier imported binding _ => [imported, binding]
  | .element opening _ children _ => opening.attributes ++ children
  | .attr name none _ => [name]
  | .attr name (some value) _ => [name, value]
  | .container expression _ => [expression]
  | .jsxIdentifier _ _ => []
  | .literal _ => []
  | .identifier _ _ => []
  | .other _ fields => Field.nodesOfFields fields

/-- The node with other children in the same places; as many are expected as there are. -/
def withChildren : Node → List Node → Node
  | .importDeclaration _ source extra, replacements => .importDeclaration replacements source extra
  | .importSpecifier _ _ extra, [imported, binding] => .importSpecifier imported binding extra
  | .element opening closing _ extra, replacements =>
    let count := opening.attributes.length
    .element (opening.withAttributes (replacements.take count)) closing
      (replacements.drop count) extra
  | .attr _ none extra, [name] => .attr name none extra
  | .attr _ (some _) extra, [name, value] => .attr name (some value) extra
  | .container _ extra, [expression] => .container expression extra
  | .other kind fields, replacements => .other kind (Field.refillFields fields replacements)
  | node, _ => node

/-- Replace every child by its image. -/
def mapChildren (change : Node → Node) (node : Node) : Node :=
  node.withChildren (node.children.map change)

end Node

/-! A child is smaller than its node. -/

theorem Node.size_le_sizeOfAll {node : Node} {nodes : List Node} (member : node ∈ nodes) :
    node.size ≤ Node.sizeOfAll nodes := by
  induction nodes with
  | nil => simp at member
  | cons head rest ih =>
    simp only [Node.sizeOfAll]
    rcases List.mem_cons.mp member with rfl | later
    · omega
    · have bounded := ih later
      omega

mutual

theorem Field.size_node_le : (field : Field) → ∀ child ∈ field.nodes, child.size ≤ field.size
  | .node only, child, member => by
    simp only [Field.nodes, List.mem_singleton] at member
    simp [Field.size, member]
  | .list items, child, member => by
    simp only [Field.nodes] at member
    simp only [Field.size]
    exact Field.size_node_le_all items child member
  | .plain _, child, member => by simp [Field.nodes] at member

theorem Field.size_node_le_all :
    (fields : List Field) → ∀ child ∈ Field.nodesOfAll fields, child.size ≤ Field.sizeOfAll fields
  | [], child, member => by simp [Field.nodesOfAll] at member
  | field :: rest, child, member => by
    simp only [Field.nodesOfAll, List.mem_append] at member
    simp only [Field.sizeOfAll]
    rcases member with first | later
    · have bounded := Field.size_node_le field child first
      omega
    · have bounded := Field.size_node_le_all rest child later
      omega

end

theorem Field.size_node_le_fields {node : Node} (fields : List (String × Field))
    (member : node ∈ Field.nodesOfFields fields) : node.size ≤ Field.sizeOfFields fields := by
  induction fields with
  | nil => simp [Field.nodesOfFields] at member
  | cons head rest ih =>
    obtain ⟨name, field⟩ := head
    simp only [Field.nodesOfFields, List.flatMap_cons, List.mem_append] at member
    simp only [Field.sizeOfFields]
    rcases member with first | later
    · have bounded := field.size_node_le node first
      omega
    · have bounded := ih later
      omega

theorem Node.size_lt_of_mem_children {node child : Node} (member : child ∈ node.children) :
    child.size < node.size := by
  cases node with
  | importDeclaration specifiers source extra =>
    have bounded := Node.size_le_sizeOfAll member
    simp only [Node.children] at bounded
    simp only [Node.size]
    omega
  | importSpecifier imported binding extra =>
    simp only [Node.children, List.mem_cons, List.not_mem_nil, or_false] at member
    simp only [Node.size]
    rcases member with rfl | rfl <;> omega
  | element opening closing children extra =>
    obtain ⟨name, attributes, selfClosing, rest⟩ := opening
    simp only [Node.children, Opening.attributes, List.mem_append] at member
    simp only [Node.size, Opening.size]
    rcases member with first | later
    · have bounded := Node.size_le_sizeOfAll first
      omega
    · have bounded := Node.size_le_sizeOfAll later
      omega
  | attr name value extra =>
    cases value with
    | none =>
      simp only [Node.children, List.mem_singleton] at member
      simp [Node.size, member]
    | some value =>
      simp only [Node.children, List.mem_cons, List.not_mem_nil, or_false] at member
      simp only [Node.size]
      rcases member with rfl | rfl <;> omega
  | container expression extra =>
    simp only [Node.children, List.mem_singleton] at member
    simp [Node.size, member]
  | other kind fields =>
    have bounded := Field.size_node_le_fields fields member
    simp only [Node.size]
    omega
  | _ => simp [Node.children] at member

end Caption
