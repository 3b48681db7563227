import Caption.Json.Basic

/-!
Syntax trees of modules with JSX markup. The kinds a description pass looks into have their own
constructors; every other kind keeps its fields as they come.
-/
namespace Caption

structure Literal where
  value : String
  extra : Members
deriving DecidableEq

mutual

/-- A syntax node. `extra` holds the members that carry no structure, such as positions. -/
inductive Node where
  | importDeclaration (specifiers : List Node) (source : Literal) (extra : Members)
  | importSpecifier (imported : Node) (binding : Node) (extra : Members)
  | element (opening : Opening) (closing : Closing) (children : List Node) (extra : Members)
  | attr (name : Node) (value : Option Node) (extra : Members)
  | container (expression : Node) (extra : Members)
  | jsxIdentifier (name : String) (extra : Members)
  | literal (literal : Literal)
  | identifier (name : String) (extra : Members)
  | other (kind : String) (fields : List (String × Field))

/-- The opening tag of an element. -/
inductive Opening where
  | tag (name : Node) (attributes : List Node) (selfClosing : Bool) (extra : Members)

/-- The closing tag of an element, which a self-closing one lacks. -/
inductive Closing where
  | missing
  | tag (name : Node) (extra : Members)

/-- A field of a node without a constructor of its own: nodes may stand in lists of any depth. -/
inductive Field where
  | node (node : Node)
  | list (items : List Field)
  | plain (value : Json)

end

instance : Inhabited Node := ⟨.jsxIdentifier "" []⟩

instance : Inhabited Field := ⟨.plain .null⟩

namespace Opening

def name : Opening → Node
  | .tag name _ _ _ => name

def attributes : Opening → List Node
  | .tag _ attributes _ _ => attributes

def selfClosing : Opening → Bool
  | .tag _ _ selfClosing _ => selfClosing

def withAttributes (opening : Opening) (attributes : List Node) : Opening :=
  match opening with
  | .tag name _ selfClosing extra => .tag name attributes selfClosing extra

end Opening

/-- A module: its statements and the other members of its object. -/
structure Program where
  body : List Node
  extra : Members

/-- A program, by itself or inside a file whose other members are kept. -/
structure SourceFile where
  program : Program
  file : Option Members

mutual

/-- The nodes of a tree, names included. -/
def Node.size : Node → Nat
  | .importDeclaration specifiers _ _ => Node.sizeOfAll specifiers + 2
  | .importSpecifier imported binding _ => imported.size + binding.size + 1
  | .element opening closing children _ =>
    opening.size + closing.size + Node.sizeOfAll children + 1
  | .attr name none _ => name.size + 1
  | .attr name (some value) _ => name.size + value.size + 1
  | .container expression _ => expression.size + 1
  | .jsxIdentifier _ _ => 1
  | .literal _ => 1
  | .identifier _ _ => 1
  | .other _ fields => Field.sizeOfFields fields + 1

def Node.sizeOfAll : List Node → Nat
  | [] => 0
  | node :: rest => node.size + Node.sizeOfAll rest

def Opening.size : Opening → Nat
  | .tag name attributes _ _ => name.size + Node.sizeOfAll attributes

def Closing.size : Closing → Nat
  | .missing => 0
  | .tag name _ => name.size

def Field.size : Field → Nat
  | .node inner => inner.size
  | .list items => Field.sizeOfAll items
  | .plain _ => 0

def Field.sizeOfAll : List Field → Nat
  | [] => 0
  | field :: rest => field.size + Field.sizeOfAll rest

def Field.sizeOfFields : List (String × Field) → Nat
  | [] => 0
  | (_, field) :: rest => field.size + Field.sizeOfFields rest

end

theorem Node.size_pos (node : Node) : 0 < node.size := by
  cases node with
  | attr name value extra => cases value <;> simp [Node.size]
  | _ => simp [Node.size]

mutual

def Node.same : Node → Node → Bool
  | .importDeclaration specifiers source extra, .importDeclaration others target rest =>
    Node.sameAll specifiers others && decide (source = target) && decide (extra = rest)
  | .importSpecifier imported binding extra, .importSpecifier other target rest =>
    imported.same other && binding.same target && decide (extra = rest)
  | .element opening closing children extra, .element start finish others rest =>
    opening.same start && closing.same finish && Node.sameAll children others &&
      decide (extra = rest)
  | .attr name none extra, .attr other none rest =>
    name.same other && decide (extra = rest)
  | .attr name (some value) extra, .attr other (some target) rest =>
    name.same other && value.same target && decide (extra = rest)
  | .container expression extra, .container other rest =>
    expression.same other && decide (extra = rest)
  | .jsxIdentifier name extra, .jsxIdentifier other rest =>
    decide (name = other) && decide (extra = rest)
  | .literal literal, .literal other => decide (literal = other)
  | .identifier name extra, .identifier other rest =>
    decide (name = other) && decide (extra = rest)
  | .other kind fields, .other name others =>
    decide (kind = name) && Field.sameFields fields others
  | _, _ => false

def Node.sameAll : List Node → List Node → Bool
  | [], [] => true
  | left :: lefts, right :: rights => left.same right && Node.sameAll lefts rights
  | _, _ => false

def Opening.same : Opening → Opening → Bool
  | .tag name attributes selfClosing extra, .tag other others closes rest =>
    name.same other && Node.sameAll attributes others && decide (selfClosing = closes) &&
      decide (extra = rest)

def Closing.same : Closing → Closing → Bool
  | .missing, .missing => true
  | .tag name extra, .tag other rest => name.same other && decide (extra = rest)
  | _, _ => false

def Field.same : Field → Field → Bool
  | .node left, .node right => left.same right
  | .list left, .list right => Field.sameAll left right
  | .plain left, .plain right => decide (left = right)
  | _, _ => false

def Field.sameAll : List Field → List Field → Bool
  | [], [] => true
  | left :: lefts, right :: rights => left.same right && Field.sameAll lefts rights
  | _, _ => false

def Field.sameFields : List (String × Field) → List (String × Field) → Bool
  | [], [] => true
  | (name, left) :: lefts, (other, right) :: rights =>
    decide (name = other) && left.same right && Field.sameFields lefts rights
  | _, _ => false

end

mutual

theorem Node.same_iff : (left right : Node) → (left.same right = true ↔ left = right)
  | .importDeclaration specifiers source extra, right => by
    cases right <;> simp [Node.same, Node.sameAll_iff specifiers, and_assoc]
  | .importSpecifier imported binding extra, right => by
    cases right <;> simp [Node.same, Node.same_iff imported, Node.same_iff binding, and_assoc]
  | .element opening closing children extra, right => by
    cases right <;> simp [Node.same, Opening.same_iff opening, Closing.same_iff closing,
      Node.sameAll_iff children, and_assoc]
  | .attr name none extra, right => by
    cases right with
    | attr other value rest => cases value <;> simp [Node.same, Node.same_iff name]
    | _ => simp [Node.same]
  | .attr name (some value) extra, right => by
    cases right with
    | attr other target rest =>
      cases target <;> simp [Node.same, Node.same_iff name, Node.same_iff value, and_assoc]
    | _ => simp [Node.same]
  | .container expression extra, right => by
    cases right <;> simp [Node.same, Node.same_iff expression]
  | .jsxIdentifier name extra, right => by cases right <;> simp [Node.same]
  | .literal literal, right => by cases right <;> simp [Node.same]
  | .identifier name extra, right => by cases right <;> simp [Node.same]
  | .other kind fields, right => by
    cases right <;> simp [Node.same, Field.sameFields_iff fields]

theorem Node.sameAll_iff :
    (left right : List Node) → (Node.sameAll left right = true ↔ left = right)
  | [], right => by cases right <;> simp [Node.sameAll]
  | node :: rest, right => by
    cases right <;> simp [Node.sameAll, Node.same_iff node, Node.sameAll_iff rest]

theorem Opening.same_iff : (left right : Opening) → (left.same right = true ↔ left = right)
  | .tag name attributes selfClosing extra, right => by
    cases right
    simp [Opening.same, Node.same_iff name, Node.sameAll_iff attributes, and_assoc]

theorem Closing.same_iff : (left right : Closing) → (left.same right = true ↔ left = right)
  | .missing, right => by cases right <;> simp [Closing.same]
  | .tag name extra, right => by cases right <;> simp [Closing.same, Node.same_iff name]

theorem Field.same_iff : (left right : Field) → (left.same right = true ↔ left = right)
  | .node inner, right => by cases right <;> simp [Field.same, Node.same_iff inner]
  | .list items, right => by cases right <;> simp [Field.same, Field.sameAll_iff items]
  | .plain value, right => by cases right <;> simp [Field.same]

theorem Field.sameAll_iff :
    (left right : List Field) → (Field.sameAll left right = true ↔ left = right)
  | [], right => by cases right <;> simp [Field.sameAll]
  | field :: rest, right => by
    cases right <;> simp [Field.sameAll, Field.same_iff field, Field.sameAll_iff rest]

theorem Field.sameFields_iff :
    (left right : List (String × Field)) → (Field.sameFields left right = true ↔ left = right)
  | [], right => by cases right <;> simp [Field.sameFields]
  | (name, field) :: rest, right => by
    cases right with
    | nil => simp [Field.sameFields]
    | cons other others =>
      obtain ⟨key, target⟩ := other
      simp [Field.sameFields, Field.same_iff field, Field.sameFields_iff rest]

end

instance : DecidableEq Node := fun left right => decidable_of_iff _ (Node.same_iff left right)

deriving instance DecidableEq for Program

deriving instance DecidableEq for SourceFile

end Caption
