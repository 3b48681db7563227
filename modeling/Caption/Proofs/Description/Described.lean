import Caption.Description.Pass
import Caption.Proofs.Markup.Traversal

/-!
What the description pass makes of a node, by recursion on the node alone: nothing is walked again
and no state is passed on. An element is put into one wrapper for each of its leading markers.
-/
namespace Caption

namespace Node

def isMarker (options : Options) (candidate : Node) : Bool :=
  candidate.attributeName? == some options.marker

/-- The description that a marker stands for: the empty text without a value, a literal for itself,
and braces for what is inside. No other value is a description. -/
def description? : Node → Option Node
  | .attr _ value _ =>
    match value with
    | none => some (string "")
    | some (.literal text) => some (.literal text)
    | some (.container expression _) => some expression
    | some _ => none
  | _ => none

theorem markerContent?_eq_description? (marker : Node) :
    marker.markerContent? = marker.description? := by
  cases marker with
  | attr name value extra =>
    cases value with
    | none => rfl
    | some value => cases value <;> rfl
  | _ => rfl

theorem exists_value_of_description {marker content : Node}
    (found : marker.description? = some content) :
    ∃ name value extra, marker = attr name value extra ∧
      (value = none ∧ content = string "" ∨
        (∃ text, value = some (literal text) ∧ content = literal text) ∨
        ∃ rest, value = some (container content rest)) := by
  cases marker with
  | attr name value extra =>
    refine ⟨name, value, extra, rfl, ?_⟩
    cases value with
    | none => exact Or.inl ⟨rfl, (Option.some.inj found).symm⟩
    | some value =>
      cases value with
      | literal text => exact Or.inr (Or.inl ⟨text, rfl, (Option.some.inj found).symm⟩)
      | container expression rest =>
        obtain rfl := Option.some.inj found
        exact Or.inr (Or.inr ⟨rest, rfl⟩)
      | _ => cases found
  | _ => cases found

/-- Whether a marker has a value that can be a description. -/
def isSupported (marker : Node) : Bool := marker.description?.isSome

/-- The markers of an element up to the first one whose value cannot be a description. -/
def leadingMarkers (options : Options) (attributes : List Node) : List Node :=
  (attributes.filter (isMarker options)).takeWhile isSupported

def leadingContents (options : Options) (attributes : List Node) : List Node :=
  (leadingMarkers options attributes).filterMap description?

/-- The attributes of an element without its leading markers. -/
def otherAttributes (options : Options) : List Node → List Node
  | [] => []
  | candidate :: rest =>
    if candidate.isMarker options then
      if candidate.isSupported then otherAttributes options rest else candidate :: rest
    else candidate :: otherAttributes options rest

/-- A node inside one wrapper for each description, the first one outermost. -/
def wrapAll (options : Options) (contents : List Node) (inner : Node) : Node :=
  contents.foldr (wrap options) inner

/-- An element whose leading markers have become wrappers. -/
def wrapMarked (options : Options) (opening : Opening) (closing : Closing) (children : List Node)
    (extra : Members) : Node :=
  wrapAll options (leadingContents options opening.attributes)
    (.element (opening.withAttributes (otherAttributes options opening.attributes)) closing children
      extra)

end Node

mutual

/-- The node that a description pass leaves in the place of a node. -/
def Node.described (options : Options) : Node → Node
  | .importDeclaration specifiers source extra =>
    .importDeclaration (Node.describedAll options specifiers) source extra
  | .importSpecifier imported binding extra =>
    .importSpecifier (imported.described options) (binding.described options) extra
  | .element (.tag name attributes selfClosing rest) closing children extra =>
    Node.wrapMarked options (.tag name (Node.describedAll options attributes) selfClosing rest)
      closing (Node.describedAll options children) extra
  | .attr name none extra => .attr (name.described options) none extra
  | .attr name (some value) extra =>
    .attr (name.described options) (some (value.described options)) extra
  | .container expression extra => .container (expression.described options) extra
  | .jsxIdentifier name extra => .jsxIdentifier name extra
  | .literal text => .literal text
  | .identifier name extra => .identifier name extra
  | .other kind fields => .other kind (Field.describedFields options fields)

def Node.describedAll (options : Options) : List Node → List Node
  | [] => []
  | node :: rest => node.described options :: Node.describedAll options rest

def Field.described (options : Options) : Field → Field
  | .node inner => .node (inner.described options)
  | .list items => .list (Field.describedAll options items)
  | .plain value => .plain value

def Field.describedAll (options : Options) : List Field → List Field
  | [] => []
  | field :: rest => field.described options :: Field.describedAll options rest

def Field.describedFields (options : Options) : List (String × Field) → List (String × Field)
  | [] => []
  | (name, field) :: rest => (name, field.described options) :: Field.describedFields options rest

end

section

variable (options : Options)

theorem Node.describedAll_eq_map (nodes : List Node) :
    Node.describedAll options nodes = nodes.map (Node.described options) := by
  induction nodes with
  | nil => rfl
  | cons head rest ih => rw [Node.describedAll, ih, List.map_cons]

mutual

theorem Field.described_eq_mapNodes :
    (field : Field) → field.described options = field.mapNodes (Node.described options)
  | .node inner => by rw [Field.described, Field.mapNodes]
  | .list items => by
    rw [Field.described, Field.mapNodes, Field.describedAll_eq_mapNodesOfAll items]
  | .plain value => by rw [Field.described, Field.mapNodes]

theorem Field.describedAll_eq_mapNodesOfAll :
    (fields : List Field) →
      Field.describedAll options fields = Field.mapNodesOfAll (Node.described options) fields
  | [] => rfl
  | field :: rest => by
    rw [Field.describedAll, Field.mapNodesOfAll, Field.described_eq_mapNodes field,
      Field.describedAll_eq_mapNodesOfAll rest]

end

theorem Field.describedFields_eq_mapNodesOfFields (fields : List (String × Field)) :
    Field.describedFields options fields =
      Field.mapNodesOfFields (Node.described options) fields := by
  induction fields with
  | nil => rfl
  | cons named rest ih =>
    obtain ⟨name, field⟩ := named
    rw [Field.describedFields, ih, Field.described_eq_mapNodes]
    rfl

end

namespace Node

variable {options : Options}

/-- Away from elements the pass changes the children of a node and nothing else. -/
theorem described_of_not_element {node : Node} (plain : node.isElement = false) :
    node.described options = node.mapChildren (described options) := by
  cases node with
  | importDeclaration specifiers source extra =>
    rw [described, describedAll_eq_map]
    rfl
  | element opening closing inside extra => simp [isElement] at plain
  | attr name value extra => cases value <;> rfl
  | other kind fields =>
    rw [described, Field.describedFields_eq_mapNodesOfFields]
    simp only [mapChildren, children, withChildren, Field.refillFields_map]
  | _ => rfl

/-- At an element the pass goes into its attributes and children, and then moves the leading
markers into wrappers. -/
theorem described_element (opening : Opening) (closing : Closing) (inside : List Node)
    (extra : Members) :
    (element opening closing inside extra).described options =
      wrapMarked options (opening.withAttributes (opening.attributes.map (described options))) closing
        (inside.map (described options)) extra := by
  cases opening
  rw [described, describedAll_eq_map, describedAll_eq_map]
  rfl

end Node

end Caption
