import Caption.Proofs.Description.Rewriting
import Caption.Proofs.Markup.Keeping

/-!
The description pass and what a tree keeps: it moves nodes with what they keep and builds nodes that
keep nothing, so that a tree that is written tidily is so after a pass as well.
-/
namespace Caption

namespace Node

variable {options : Options} {fits : Json → Prop}

/-- Whether all values that a node keeps beside its structure are fitting ones. -/
def Keeps (fits : Json → Prop) (node : Node) : Prop := ∀ value ∈ node.kept, fits value

theorem forall_keptAll {nodes : List Node} :
    (∀ value ∈ keptAll nodes, fits value) ↔ ∀ node ∈ nodes, node.Keeps fits := by
  induction nodes with
  | nil => simp [keptAll]
  | cons node rest ih => rw [keptAll, List.forall_mem_append, ih, List.forall_mem_cons, Keeps]

theorem otherAttributes_sublist (attributes : List Node) :
    (otherAttributes options attributes).Sublist attributes := by
  induction attributes with
  | nil => exact List.Sublist.refl _
  | cons candidate rest ih =>
    rw [otherAttributes]
    split
    · split
      · exact ih.cons candidate
      · exact List.Sublist.refl _
    · exact ih.cons_cons candidate

variable (bare : fits (.object []))
include bare

theorem keeps_asAttributeValue {content : Node} (keeps : content.Keeps fits) :
    content.asAttributeValue.Keeps fits := by
  unfold asAttributeValue
  split
  · exact keeps
  · exact List.forall_mem_cons.mpr ⟨bare, keeps⟩

theorem keeps_newAttribute (name : String) {value : Node} (keeps : value.Keeps fits) :
    (newAttribute name (some value)).Keeps fits :=
  List.forall_mem_cons.mpr ⟨bare, List.forall_mem_cons.mpr ⟨bare, keeps⟩⟩

/-- A new element keeps what its attributes and children keep, and nothing of its own. -/
theorem keeps_newElement (name : String) {attributes children : List Node}
    (listed : ∀ candidate ∈ attributes, candidate.Keeps fits)
    (inside : ∀ child ∈ children, child.Keeps fits) :
    (newElement name attributes children).Keeps fits := by
  simp only [newElement, jsxName, Keeps, kept, Opening.kept, Closing.kept, List.forall_mem_cons,
    List.forall_mem_append, forall_keptAll]
  exact ⟨bare, ⟨bare, ⟨bare, List.forall_mem_nil _⟩, listed⟩,
    ⟨bare, bare, List.forall_mem_nil _⟩, inside⟩

theorem keeps_wrap {content inner : Node} (keeps : content.Keeps fits)
    (within : inner.Keeps fits) : (wrap options content inner).Keeps fits :=
  keeps_newElement bare _
    (List.forall_mem_singleton.mpr (keeps_newAttribute bare _ (keeps_asAttributeValue bare keeps)))
    (List.forall_mem_singleton.mpr within)

theorem keeps_wrapAll {contents : List Node} {inner : Node}
    (keeps : ∀ content ∈ contents, content.Keeps fits) (within : inner.Keeps fits) :
    (wrapAll options contents inner).Keeps fits := by
  induction contents with
  | nil => exact within
  | cons content rest ih =>
    obtain ⟨first, others⟩ := List.forall_mem_cons.mp keeps
    exact keeps_wrap bare first (ih others)

theorem keeps_description {marker content : Node} (keeps : marker.Keeps fits)
    (resolved : marker.description? = some content) : content.Keeps fits := by
  obtain ⟨name, value, extra, rfl, given⟩ := exists_value_of_description resolved
  obtain ⟨rfl, rfl⟩ | ⟨text, rfl, rfl⟩ | ⟨rest, rfl⟩ := given
  · exact List.forall_mem_singleton.mpr bare
  · exact (List.forall_mem_append.mp (List.forall_mem_cons.mp keeps).2).2
  · have inner := (List.forall_mem_append.mp (List.forall_mem_cons.mp keeps).2).2
    exact (List.forall_mem_cons.mp inner).2

theorem keeps_leadingContents {attributes : List Node}
    (keeps : ∀ candidate ∈ attributes, candidate.Keeps fits) :
    ∀ content ∈ leadingContents options attributes, content.Keeps fits := by
  intro content described
  obtain ⟨marker, leading, resolved⟩ := List.mem_filterMap.mp described
  have marked := (List.takeWhile_sublist _).subset leading
  exact keeps_description bare (keeps marker (List.mem_filter.mp marked).1) resolved

/-- Wrapping an element moves its markers and leaves the rest of it alone. -/
theorem keeps_wrapMarked {opening : Opening} {closing : Closing} {children : List Node}
    {extra : Members}
    (keeps : (element opening closing children extra).Keeps fits) :
    (wrapMarked options opening closing children extra).Keeps fits := by
  obtain ⟨name, attributes, selfClosing, rest⟩ := opening
  simp only [Keeps, kept, Opening.kept, List.forall_mem_cons, List.forall_mem_append,
    forall_keptAll] at keeps
  obtain ⟨own, ⟨outer, named, listed⟩, closed, inside⟩ := keeps
  refine keeps_wrapAll bare (keeps_leadingContents bare listed) ?_
  simp only [Opening.withAttributes, Keeps, kept, Opening.kept, List.forall_mem_cons,
    List.forall_mem_append, forall_keptAll]
  exact ⟨own, ⟨outer, named, fun candidate left =>
    listed candidate ((otherAttributes_sublist attributes).subset left)⟩, closed, inside⟩

end Node

section Described

variable {fits : Json → Prop} (options : Options)

mutual

/-- A pass leaves a node with nothing kept that was not kept before, apart from what new nodes have:
no members at all. -/
theorem Node.keeps_described (bare : fits (.object [])) :
    (node : Node) → node.Keeps fits → (node.described options).Keeps fits
  | .importDeclaration specifiers source extra, keeps => by
    simp only [Node.Keeps, Node.described, Node.kept, List.forall_mem_cons] at keeps ⊢
    obtain ⟨own, origin, listed⟩ := keeps
    exact ⟨own, origin, Node.keepsAll_described bare specifiers listed⟩
  | .importSpecifier imported binding extra, keeps => by
    simp only [Node.Keeps, Node.described, Node.kept, List.forall_mem_cons,
      List.forall_mem_append] at keeps ⊢
    obtain ⟨own, first, second⟩ := keeps
    exact ⟨own, Node.keeps_described bare imported first, Node.keeps_described bare binding second⟩
  | .element (.tag name attributes selfClosing rest) closing children extra, keeps => by
    refine Node.keeps_wrapMarked bare ?_
    simp only [Node.Keeps, Node.kept, Opening.kept, List.forall_mem_cons,
      List.forall_mem_append] at keeps ⊢
    obtain ⟨own, ⟨outer, named, listed⟩, closed, inside⟩ := keeps
    exact ⟨own, ⟨outer, named, Node.keepsAll_described bare attributes listed⟩, closed,
      Node.keepsAll_described bare children inside⟩
  | .attr name none extra, keeps => by
    simp only [Node.Keeps, Node.described, Node.kept, List.forall_mem_cons] at keeps ⊢
    exact ⟨keeps.1, Node.keeps_described bare name keeps.2⟩
  | .attr name (some value) extra, keeps => by
    simp only [Node.Keeps, Node.described, Node.kept, List.forall_mem_cons,
      List.forall_mem_append] at keeps ⊢
    obtain ⟨own, named, given⟩ := keeps
    exact ⟨own, Node.keeps_described bare name named, Node.keeps_described bare value given⟩
  | .container expression extra, keeps => by
    simp only [Node.Keeps, Node.described, Node.kept, List.forall_mem_cons] at keeps ⊢
    exact ⟨keeps.1, Node.keeps_described bare expression keeps.2⟩
  | .jsxIdentifier name extra, keeps => keeps
  | .literal text, keeps => keeps
  | .identifier name extra, keeps => keeps
  | .other name fields, keeps => Field.keepsFields_described bare fields keeps

theorem Node.keepsAll_described (bare : fits (.object [])) :
    (nodes : List Node) → (∀ value ∈ Node.keptAll nodes, fits value) →
      ∀ value ∈ Node.keptAll (Node.describedAll options nodes), fits value
  | [], keeps => keeps
  | node :: rest, keeps => by
    obtain ⟨first, others⟩ := List.forall_mem_append.mp keeps
    exact List.forall_mem_append.mpr
      ⟨Node.keeps_described bare node first, Node.keepsAll_described bare rest others⟩

theorem Field.keeps_described (bare : fits (.object [])) :
    (field : Field) → (∀ value ∈ field.kept, fits value) →
      ∀ value ∈ (field.described options).kept, fits value
  | .node inner, keeps => Node.keeps_described bare inner keeps
  | .list items, keeps => Field.keepsAll_described bare items keeps
  | .plain _, keeps => keeps

theorem Field.keepsAll_described (bare : fits (.object [])) :
    (fields : List Field) → (∀ value ∈ Field.keptAll fields, fits value) →
      ∀ value ∈ Field.keptAll (Field.describedAll options fields), fits value
  | [], keeps => keeps
  | field :: rest, keeps => by
    obtain ⟨first, others⟩ := List.forall_mem_append.mp keeps
    exact List.forall_mem_append.mpr
      ⟨Field.keeps_described bare field first, Field.keepsAll_described bare rest others⟩

theorem Field.keepsFields_described (bare : fits (.object [])) :
    (fields : List (String × Field)) → (∀ value ∈ Field.keptFields fields, fits value) →
      ∀ value ∈ Field.keptFields (Field.describedFields options fields), fits value
  | [], keeps => keeps
  | (_, field) :: rest, keeps => by
    obtain ⟨first, others⟩ := List.forall_mem_append.mp keeps
    exact List.forall_mem_append.mpr
      ⟨Field.keeps_described bare field first, Field.keepsFields_described bare rest others⟩

end

end Described

theorem Node.keeps_newImport {fits : Json → Prop} (bare : fits (.object [])) (names : List String)
    (source : String) : (newImport names source).Keeps fits := by
  refine List.forall_mem_cons.mpr ⟨bare, List.forall_mem_cons.mpr ⟨bare, ?_⟩⟩
  refine forall_keptAll.mpr fun specifier listed => ?_
  obtain ⟨name, _, rfl⟩ := List.mem_map.mp listed
  simp [newSpecifier, Keeps, kept, bare]

/-- A pass leaves a file with nothing kept that was not kept before, apart from what new nodes
have. -/
theorem SourceFile.keeps_describe {fits : Json → Prop} (bare : fits (.object []))
    (options : Options) {source : SourceFile} (keeps : ∀ value ∈ source.kept, fits value) :
    ∀ value ∈ (source.describe options).1.kept, fits value := by
  obtain ⟨around, inside⟩ := List.forall_mem_append.mp keeps
  obtain ⟨own, statements⟩ := List.forall_mem_cons.mp inside
  refine List.forall_mem_append.mpr ⟨around, ?_⟩
  rw [describe, Program.describe_eq]
  refine List.forall_mem_cons.mpr ⟨own, Node.forall_keptAll.mpr fun statement listed => ?_⟩
  rcases List.mem_append.mp listed with added | kept
  · split at added
    · obtain rfl := List.mem_singleton.mp added
      exact Node.keeps_newImport bare _ _
    · cases added
  · obtain ⟨node, given, rfl⟩ := List.mem_map.mp kept
    exact Node.keeps_described options bare node (Node.forall_keptAll.mp statements node given)

end Caption
