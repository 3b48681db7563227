import Mathlib.Data.List.Basic
import Caption.Proofs.Markup.Traversal

/-!
Replacing the children of a node. What is written goes into the places that are read, one child
after the other, and the frame of the node stays: a node is known by its frame and its children, so
that nothing else can have changed.
-/
namespace Caption

/-- A field without its nodes: where they stand, and all that stands beside them. -/
inductive Field.Frame where
  | node
  | list (items : List Field.Frame)
  | plain (value : Json)

/-- An opening tag without its attributes, but for how many it has. -/
inductive Opening.Frame where
  | tag (name : Node) (attributes : Nat) (selfClosing : Bool) (extra : Members)

/-- A node without its children: how many there are in each place, and all that is no child. -/
inductive Node.Frame where
  | importDeclaration (specifiers : Nat) (source : Literal) (extra : Members)
  | importSpecifier (extra : Members)
  | element (opening : Opening.Frame) (closing : Closing) (children : Nat) (extra : Members)
  | attr (valued : Bool) (extra : Members)
  | container (extra : Members)
  | jsxIdentifier (name : String) (extra : Members)
  | literal (held : Literal)
  | identifier (name : String) (extra : Members)
  | other (kind : String) (fields : List (String × Field.Frame))

mutual

def Field.frame : Field → Field.Frame
  | .node _ => .node
  | .list items => .list (Field.frameOfAll items)
  | .plain value => .plain value

def Field.frameOfAll : List Field → List Field.Frame
  | [] => []
  | field :: rest => field.frame :: Field.frameOfAll rest

end

def Field.frameOfFields (fields : List (String × Field)) : List (String × Field.Frame) :=
  fields.map fun named => (named.1, named.2.frame)

def Opening.frame : Opening → Opening.Frame
  | .tag name attributes selfClosing extra => .tag name attributes.length selfClosing extra

def Node.frame : Node → Node.Frame
  | .importDeclaration specifiers source extra =>
    .importDeclaration specifiers.length source extra
  | .importSpecifier _ _ extra => .importSpecifier extra
  | .element opening closing children extra =>
    .element opening.frame closing children.length extra
  | .attr _ value extra => .attr value.isSome extra
  | .container _ extra => .container extra
  | .jsxIdentifier name extra => .jsxIdentifier name extra
  | .literal held => .literal held
  | .identifier name extra => .identifier name extra
  | .other kind fields => .other kind (Field.frameOfFields fields)

mutual

/-- A field is known by its frame and its nodes. The nodes that follow it are told apart from its
own, as the frame says how many it has. -/
theorem Field.eq_of_frame : (left right : Field) → left.frame = right.frame →
    ∀ {more others : List Node}, left.nodes ++ more = right.nodes ++ others →
      left = right ∧ more = others
  | .node inner, right, frame, more, others, nodes => by
    cases right with
    | node other =>
      simp only [Field.nodes, List.cons_append, List.nil_append, List.cons.injEq] at nodes
      exact ⟨congrArg Field.node nodes.1, nodes.2⟩
    | _ => simp [Field.frame] at frame
  | .list items, right, frame, more, others, nodes => by
    cases right with
    | list rows =>
      simp only [Field.frame, Field.Frame.list.injEq] at frame
      obtain ⟨same, rest⟩ := Field.eq_of_frameOfAll items rows frame nodes
      exact ⟨congrArg Field.list same, rest⟩
    | _ => simp [Field.frame] at frame
  | .plain value, right, frame, more, others, nodes => by
    cases right with
    | plain other =>
      simp only [Field.frame, Field.Frame.plain.injEq] at frame
      exact ⟨congrArg Field.plain frame, nodes⟩
    | _ => simp [Field.frame] at frame

theorem Field.eq_of_frameOfAll : (left right : List Field) →
    Field.frameOfAll left = Field.frameOfAll right →
      ∀ {more others : List Node},
        Field.nodesOfAll left ++ more = Field.nodesOfAll right ++ others →
          left = right ∧ more = others
  | [], right, frames, more, others, nodes => by
    cases right with
    | nil => exact ⟨rfl, nodes⟩
    | cons field rest => simp [Field.frameOfAll] at frames
  | field :: rest, right, frames, more, others, nodes => by
    cases right with
    | nil => simp [Field.frameOfAll] at frames
    | cons other later =>
      simp only [Field.frameOfAll, List.cons.injEq] at frames
      simp only [Field.nodesOfAll, List.append_assoc] at nodes
      obtain ⟨head, following⟩ := Field.eq_of_frame field other frames.1 nodes
      obtain ⟨tail, remaining⟩ := Field.eq_of_frameOfAll rest later frames.2 following
      exact ⟨by rw [head, tail], remaining⟩

end

theorem Field.eq_of_frameOfFields {left right : List (String × Field)}
    (frames : Field.frameOfFields left = Field.frameOfFields right)
    (nodes : Field.nodesOfFields left = Field.nodesOfFields right) : left = right := by
  induction left generalizing right with
  | nil =>
    cases right with
    | nil => rfl
    | cons named rest => simp [Field.frameOfFields] at frames
  | cons named rest ih =>
    cases right with
    | nil => simp [Field.frameOfFields] at frames
    | cons other later =>
      simp only [Field.frameOfFields, List.map_cons, List.cons.injEq, Prod.mk.injEq] at frames
      simp only [Field.nodesOfFields, List.flatMap_cons] at nodes
      obtain ⟨field, following⟩ := Field.eq_of_frame named.2 other.2 frames.1.2 nodes
      rw [Prod.ext frames.1.1 field, ih frames.2 following]

mutual

/-- Refilling a field with as many nodes as it holds puts them in its places, and those that follow
are left over. -/
theorem Field.refill_append : (field : Field) → (mine others : List Node) →
    mine.length = field.nodes.length →
      ∃ filled, field.refill (mine ++ others) = (filled, others) ∧ filled.frame = field.frame ∧
        filled.nodes = mine
  | .node inner, mine, others, fits => by
    obtain ⟨replacement, rfl⟩ := List.length_eq_one_iff.mp fits
    exact ⟨.node replacement, rfl, rfl, rfl⟩
  | .list items, mine, others, fits => by
    obtain ⟨filled, refilled, frames, nodes⟩ := Field.refillAll_append items mine others fits
    refine ⟨.list filled, ?_, ?_, nodes⟩
    · rw [Field.refill, refilled]
    · rw [Field.frame, Field.frame, frames]
  | .plain value, mine, others, fits => by
    obtain rfl := List.length_eq_zero_iff.mp fits
    exact ⟨.plain value, rfl, rfl, rfl⟩

theorem Field.refillAll_append : (fields : List Field) → (mine others : List Node) →
    mine.length = (Field.nodesOfAll fields).length →
      ∃ filled, Field.refillAll fields (mine ++ others) = (filled, others) ∧
        Field.frameOfAll filled = Field.frameOfAll fields ∧ Field.nodesOfAll filled = mine
  | [], mine, others, fits => by
    obtain rfl := List.length_eq_zero_iff.mp fits
    exact ⟨[], rfl, rfl, rfl⟩
  | field :: rest, mine, others, fits => by
    simp only [Field.nodesOfAll, List.length_append] at fits
    obtain ⟨first, second, rfl, count⟩ : ∃ first second, mine = first ++ second ∧
        first.length = field.nodes.length :=
      ⟨mine.take field.nodes.length, mine.drop field.nodes.length, by simp, by simp; omega⟩
    rw [List.length_append] at fits
    obtain ⟨head, refilled, frame, nodes⟩ := Field.refill_append field first (second ++ others) count
    obtain ⟨tail, refilledRest, frames, nodesRest⟩ :=
      Field.refillAll_append rest second others (by omega)
    refine ⟨head :: tail, ?_, ?_, ?_⟩
    · rw [List.append_assoc, Field.refillAll, refilled]
      simp only [refilledRest]
    · rw [Field.frameOfAll, Field.frameOfAll, frame, frames]
    · rw [Field.nodesOfAll, nodes, nodesRest]

end

theorem Field.refillFields_of_fits (fields : List (String × Field)) {replacements : List Node}
    (fits : replacements.length = (Field.nodesOfFields fields).length) :
    Field.frameOfFields (Field.refillFields fields replacements) = Field.frameOfFields fields ∧
      Field.nodesOfFields (Field.refillFields fields replacements) = replacements := by
  induction fields generalizing replacements with
  | nil =>
    obtain rfl := List.length_eq_zero_iff.mp fits
    exact ⟨rfl, rfl⟩
  | cons named rest ih =>
    obtain ⟨name, field⟩ := named
    simp only [Field.nodesOfFields, List.flatMap_cons, List.length_append] at fits ih
    obtain ⟨first, second, rfl, count⟩ : ∃ first second, replacements = first ++ second ∧
        first.length = field.nodes.length :=
      ⟨replacements.take field.nodes.length, replacements.drop field.nodes.length, by simp,
        by simp; omega⟩
    rw [List.length_append] at fits
    obtain ⟨filled, refilled, frame, nodes⟩ := Field.refill_append field first second count
    have others : second.length = (rest.flatMap fun named => named.2.nodes).length := by omega
    obtain ⟨frames, nodesRest⟩ := ih others
    rw [Field.refillFields, refilled]
    constructor
    · simp only [Field.frameOfFields, List.map_cons, frame] at frames ⊢
      rw [frames]
    · simp only [Field.nodesOfFields, List.flatMap_cons, nodes] at nodesRest ⊢
      rw [nodesRest]

namespace Node

variable {node left right other : Node} {replacements : List Node}

theorem eq_of_frame (frame : left.frame = right.frame) (children : left.children = right.children) :
    left = right := by
  cases left with
  | importDeclaration specifiers source extra =>
    cases right <;> simp_all [Node.frame, Node.children]
  | importSpecifier imported binding extra =>
    cases right <;> simp_all [Node.frame, Node.children]
  | element opening closing inside extra =>
    cases right with
    | element start finish others rest =>
      obtain ⟨name, attributes, selfClosing, tagExtra⟩ := opening
      obtain ⟨title, items, closes, tagRest⟩ := start
      simp only [Node.frame, Opening.frame, Node.Frame.element.injEq,
        Opening.Frame.tag.injEq] at frame
      obtain ⟨⟨rfl, count, rfl, rfl⟩, rfl, _, rfl⟩ := frame
      simp only [Node.children, Opening.attributes] at children
      obtain ⟨rfl, rfl⟩ := List.append_inj children count
      rfl
    | _ => simp [Node.frame] at frame
  | attr name value extra =>
    cases right with
    | attr title target rest =>
      cases value <;> cases target <;> simp_all [Node.frame, Node.children]
    | _ => simp [Node.frame] at frame
  | container expression extra =>
    cases right <;> simp_all [Node.frame, Node.children]
  | jsxIdentifier name extra => cases right <;> simp_all [Node.frame]
  | literal held => cases right <;> simp_all [Node.frame]
  | identifier name extra => cases right <;> simp_all [Node.frame]
  | other kind fields =>
    cases right with
    | other name others =>
      simp only [Node.frame, Node.Frame.other.injEq] at frame
      rw [frame.1, Field.eq_of_frameOfFields frame.2 children]
    | _ => simp [Node.frame] at frame

/-- Children written into a node are the ones read from it afterwards, in their order, and the frame
stays. -/
theorem withChildren_of_fits (fits : replacements.length = node.children.length) :
    (node.withChildren replacements).frame = node.frame ∧
      (node.withChildren replacements).children = replacements := by
  cases node with
  | importDeclaration specifiers source extra =>
    simp only [children] at fits
    simp [withChildren, frame, children, fits]
  | importSpecifier imported binding extra =>
    obtain ⟨first, second, rfl⟩ := List.length_eq_two.mp fits
    exact ⟨rfl, rfl⟩
  | element opening closing inside extra =>
    obtain ⟨name, attributes, selfClosing, tagExtra⟩ := opening
    simp only [children, Opening.attributes, List.length_append] at fits
    have taken : min attributes.length replacements.length = attributes.length := by omega
    have dropped : replacements.length - attributes.length = inside.length := by omega
    simp [withChildren, frame, children, Opening.frame, Opening.attributes, Opening.withAttributes,
      taken, dropped]
  | attr name value extra =>
    cases value with
    | none =>
      obtain ⟨title, rfl⟩ := List.length_eq_one_iff.mp fits
      exact ⟨rfl, rfl⟩
    | some value =>
      obtain ⟨title, target, rfl⟩ := List.length_eq_two.mp fits
      exact ⟨rfl, rfl⟩
  | container expression extra =>
    obtain ⟨inner, rfl⟩ := List.length_eq_one_iff.mp fits
    exact ⟨rfl, rfl⟩
  | other kind fields =>
    obtain ⟨frames, nodes⟩ := Field.refillFields_of_fits fields fits
    exact ⟨congrArg (Node.Frame.other kind) frames, nodes⟩
  | _ =>
    obtain rfl := List.length_eq_zero_iff.mp fits
    exact ⟨rfl, rfl⟩

theorem withChildren_eq_iff (fits : replacements.length = node.children.length) :
    node.withChildren replacements = other ↔
      other.frame = node.frame ∧ other.children = replacements := by
  obtain ⟨frame, children⟩ := withChildren_of_fits fits
  constructor
  · rintro rfl
    exact ⟨frame, children⟩
  · rintro ⟨sameFrame, sameChildren⟩
    exact eq_of_frame (frame.trans sameFrame.symm) (children.trans sameChildren.symm)

theorem mapChildren_eq_iff {change : Node → Node} :
    node.mapChildren change = other ↔
      other.frame = node.frame ∧ other.children = node.children.map change :=
  withChildren_eq_iff (List.length_map _)

theorem mapChildren_id (node : Node) : node.mapChildren id = node :=
  mapChildren_eq_self fun _ _ => rfl

/-- A change after another one is their composition at once. -/
theorem mapChildren_mapChildren (node : Node) (first second : Node → Node) :
    (node.mapChildren first).mapChildren second = node.mapChildren (second ∘ first) := by
  obtain ⟨frame, children⟩ := mapChildren_eq_iff.mp (Eq.refl (node.mapChildren (second ∘ first)))
  obtain ⟨frameFirst, childrenFirst⟩ := mapChildren_eq_iff.mp (Eq.refl (node.mapChildren first))
  rw [mapChildren_eq_iff, frame, frameFirst, children, childrenFirst, List.map_map]
  exact ⟨rfl, rfl⟩

/-- The children of a node are written where they are read: to put as many others in their places
gives the one node that has the same frame and those children. Images of the children take their
places in the same order, the children themselves give the node back, and the images of images are
those of the composition. -/
theorem withChildren_replaces_children (node : Node) :
    (∀ replacements : List Node, replacements.length = node.children.length →
      ∀ other, node.withChildren replacements = other ↔
        other.frame = node.frame ∧ other.children = replacements) ∧
    (∀ change : Node → Node,
      (node.mapChildren change).frame = node.frame ∧
        (node.mapChildren change).children = node.children.map change) ∧
    node.mapChildren id = node ∧
    ∀ first second : Node → Node,
      (node.mapChildren first).mapChildren second = node.mapChildren (second ∘ first) :=
  ⟨fun _ fits _ => withChildren_eq_iff fits, fun _ => mapChildren_eq_iff.mp rfl,
    mapChildren_id node, mapChildren_mapChildren node⟩

/-- A call with a list of lists among its arguments. -/
def scattered (callee first second : Node) : Node :=
  .other "CallExpression"
    [("callee", .node callee), ("optional", .plain (.bool false)),
      ("arguments", .list [.plain .null, .list [.node first, .list []], .node second])]

theorem withChildren_scattered_replaces_children :
    let name (text : String) : Node := .identifier text []
    let call := scattered (name "f") (name "x") (name "y")
    call.children = [name "f", name "x", name "y"] ∧
      call.withChildren [name "g", name "y", name "x"] =
        scattered (name "g") (name "y") (name "x") := by
  intro name call
  have replaced := (withChildren_replaces_children call).1 [name "g", name "y", name "x"] rfl
  exact ⟨rfl, (replaced _).mpr ⟨rfl, rfl⟩⟩

end Node

end Caption
