import Caption.Proofs.Description.Rewriting
import Caption.Proofs.Markup.WellFormed

/-!
The description pass and well-formed trees: the nodes it builds keep no members at all, and those it
moves are well formed where they were, so what a pass leaves can be written and read again.
-/
namespace Caption

namespace Node

variable {options : Options}

theorem wellFormedAll_iff {nodes : List Node} :
    WellFormedAll nodes ↔ ∀ node ∈ nodes, node.WellFormed := by
  induction nodes with
  | nil => simp [WellFormedAll]
  | cons node rest ih => simp [WellFormedAll, ih]

theorem wellFormed_jsxName (name : String) : (jsxName name).WellFormed := by
  simp [jsxName, Node.WellFormed, Members.Lacks]

theorem wellFormed_string (value : String) : (string value).WellFormed := by
  simp [string, Node.WellFormed, Members.Lacks]

theorem wellFormed_asAttributeValue {content : Node} (fitting : content.WellFormed) :
    content.asAttributeValue.WellFormed := by
  unfold asAttributeValue
  split
  · exact fitting
  · exact ⟨fitting, by simp [Members.Lacks]⟩

theorem wellFormed_newAttribute (name : String) {value : Node} (fitting : value.WellFormed) :
    (newAttribute name (some value)).WellFormed :=
  ⟨wellFormed_jsxName _, fitting, by simp [Members.Lacks]⟩

theorem wellFormed_newElement (name : String) {attributes children : List Node}
    (listed : WellFormedAll attributes) (inside : WellFormedAll children) :
    (newElement name attributes children).WellFormed := by
  refine ⟨⟨wellFormed_jsxName _, listed, ?_⟩, ⟨wellFormed_jsxName _, ?_⟩, inside, ?_⟩ <;>
    simp [Members.Lacks]

theorem wellFormed_wrap {content inner : Node} (fitting : content.WellFormed)
    (within : inner.WellFormed) : (wrap options content inner).WellFormed :=
  wellFormed_newElement _ ⟨wellFormed_newAttribute _ (wellFormed_asAttributeValue fitting), trivial⟩
    ⟨within, trivial⟩

theorem wellFormed_wrapAll {contents : List Node} {inner : Node} (fitting : WellFormedAll contents)
    (within : inner.WellFormed) : (wrapAll options contents inner).WellFormed := by
  induction contents with
  | nil => exact within
  | cons content rest ih => exact wellFormed_wrap fitting.1 (ih fitting.2)

theorem wellFormed_description {marker content : Node} (fitting : marker.WellFormed)
    (resolved : marker.description? = some content) : content.WellFormed := by
  obtain ⟨name, value, extra, rfl, given⟩ := exists_value_of_description resolved
  obtain ⟨rfl, rfl⟩ | ⟨text, rfl, rfl⟩ | ⟨rest, rfl⟩ := given
  · exact wellFormed_string ""
  · exact fitting.2.1
  · exact fitting.2.1.1

theorem wellFormedAll_leadingContents {attributes : List Node} (fitting : WellFormedAll attributes) :
    WellFormedAll (leadingContents options attributes) := by
  refine wellFormedAll_iff.mpr fun content described => ?_
  obtain ⟨marker, leading, resolved⟩ := List.mem_filterMap.mp described
  have marked := (List.takeWhile_sublist _).subset leading
  have given := (List.mem_filter.mp marked).1
  exact wellFormed_description (wellFormedAll_iff.mp fitting marker given) resolved

theorem wellFormedAll_otherAttributes {attributes : List Node} (fitting : WellFormedAll attributes) :
    WellFormedAll (otherAttributes options attributes) := by
  induction attributes with
  | nil => trivial
  | cons candidate rest ih =>
    rw [otherAttributes]
    split
    · split
      · exact ih fitting.2
      · exact fitting
    · exact ⟨fitting.1, ih fitting.2⟩

theorem wellFormed_newImport (names : List String) (source : String) :
    (newImport names source).WellFormed := by
  refine ⟨wellFormedAll_iff.mpr fun specifier listed => ?_, ?_, ?_⟩
  · obtain ⟨name, _, rfl⟩ := List.mem_map.mp listed
    simp [newSpecifier, Node.WellFormed, Members.Lacks]
  · simp [Members.Lacks]
  · simp [Members.Lacks]

end Node

theorem Field.names_describedFields (options : Options) (fields : List (String × Field)) :
    (Field.describedFields options fields).map Prod.fst = fields.map Prod.fst := by
  induction fields with
  | nil => rfl
  | cons named rest ih => simp [Field.describedFields, ih]

section

variable (options : Options)

mutual

theorem Node.wellFormed_described :
    (node : Node) → node.WellFormed → (node.described options).WellFormed
  | .importDeclaration specifiers source extra, fitting =>
    ⟨Node.wellFormedAll_described specifiers fitting.1, fitting.2⟩
  | .importSpecifier imported binding extra, fitting =>
    ⟨Node.wellFormed_described imported fitting.1, Node.wellFormed_described binding fitting.2.1,
      fitting.2.2⟩
  | .element (.tag name attributes selfClosing rest) closing children extra, fitting => by
    obtain ⟨⟨named, listed, kept⟩, closed, inside, others⟩ := fitting
    have changed := Node.wellFormedAll_described attributes listed
    refine Node.wellFormed_wrapAll (Node.wellFormedAll_leadingContents changed) ?_
    exact ⟨⟨named, Node.wellFormedAll_otherAttributes changed, kept⟩, closed,
      Node.wellFormedAll_described children inside, others⟩
  | .attr name none extra, fitting => ⟨Node.wellFormed_described name fitting.1, fitting.2⟩
  | .attr name (some value) extra, fitting =>
    ⟨Node.wellFormed_described name fitting.1, Node.wellFormed_described value fitting.2.1,
      fitting.2.2⟩
  | .container expression extra, fitting =>
    ⟨Node.wellFormed_described expression fitting.1, fitting.2⟩
  | .jsxIdentifier name extra, fitting => fitting
  | .literal text, fitting => fitting
  | .identifier name extra, fitting => fitting
  | .other kind fields, fitting => by
    obtain ⟨own, sorted, untyped, inner⟩ := fitting
    have names := Field.names_describedFields options fields
    exact ⟨own, (Keyed.sorted_congr names).mpr sorted, names ▸ untyped,
      Field.wellFormed_describedFields fields inner⟩

theorem Node.wellFormedAll_described :
    (nodes : List Node) → Node.WellFormedAll nodes →
      Node.WellFormedAll (Node.describedAll options nodes)
  | [], _ => trivial
  | node :: rest, fitting =>
    ⟨Node.wellFormed_described node fitting.1, Node.wellFormedAll_described rest fitting.2⟩

theorem Field.wellFormed_described :
    (field : Field) → field.WellFormed → (field.described options).WellFormed
  | .node inner, fitting => Node.wellFormed_described inner fitting
  | .list items, fitting => Field.wellFormedAll_described items fitting
  | .plain _, fitting => fitting

theorem Field.wellFormedAll_described :
    (fields : List Field) → Field.WellFormedAll fields →
      Field.WellFormedAll (Field.describedAll options fields)
  | [], _ => trivial
  | field :: rest, fitting =>
    ⟨Field.wellFormed_described field fitting.1, Field.wellFormedAll_described rest fitting.2⟩

theorem Field.wellFormed_describedFields :
    (fields : List (String × Field)) → Field.WellFormedFields fields →
      Field.WellFormedFields (Field.describedFields options fields)
  | [], _ => trivial
  | (_, field) :: rest, fitting =>
    ⟨Field.wellFormed_described field fitting.1, Field.wellFormed_describedFields rest fitting.2⟩

end

end

/-- A pass leaves a well-formed program well formed. -/
theorem Program.wellFormed_describe (options : Options) {program : Program}
    (fitting : program.WellFormed) : (program.describe options).1.WellFormed := by
  rw [Program.describe_eq]
  refine ⟨Node.wellFormedAll_iff.mpr fun statement listed => ?_, fitting.2⟩
  rcases List.mem_append.mp listed with added | kept
  · split at added
    · obtain rfl := List.mem_singleton.mp added
      exact Node.wellFormed_newImport _ _
    · cases added
  · obtain ⟨node, given, rfl⟩ := List.mem_map.mp kept
    exact Node.wellFormed_described options node (Node.wellFormedAll_iff.mp fitting.1 node given)

namespace SourceFile

/-- Just the well-formed files are read again from their own values; whatever is read from a value
with increasing keys is one of them; and a description pass leaves one well formed, so that what it
leaves is read again from its own value. -/
theorem reads_again_iff_wellFormed :
    (∀ source : SourceFile, decode source.encode = .ok source ↔ source.WellFormed) ∧
      (∀ value source, value.Canonical → decode value = .ok source → source.WellFormed) ∧
      ∀ (source : SourceFile) (options : Options), source.WellFormed →
        (source.describe options).1.WellFormed ∧
          decode (source.describe options).1.encode = .ok (source.describe options).1 := by
  refine ⟨fun source => decode_encode_iff, fun value source => wellFormed_of_decode, ?_⟩
  intro source options fitting
  have described : (source.describe options).1.WellFormed :=
    ⟨Program.wellFormed_describe options fitting.1, fitting.2⟩
  exact ⟨described, decode_encode_iff.mpr described⟩

/-- A marked element in a field of a statement, in a file with members of its own. -/
def markedInField : SourceFile :=
  ⟨⟨[.other "ExpressionStatement"
      [("directive", .plain .null),
        ("expression", .node (Node.newSelfClosing "p" [Node.newStringAttribute "llm" "home"]))]],
    [("start", .number (.integer 0))]⟩, some [("errors", .array [])]⟩

theorem reads_again_markedInField :
    markedInField.WellFormed ∧ markedInField.encode.Canonical ∧
      decode markedInField.encode = .ok markedInField ∧
      (markedInField.describe {}).1.WellFormed ∧
      decode (markedInField.describe {}).1.encode = .ok (markedInField.describe {}).1 := by
  have element : (Node.newSelfClosing "p" [Node.newStringAttribute "llm" "home"]).WellFormed := by
    refine ⟨⟨Node.wellFormed_jsxName "p", ⟨⟨Node.wellFormed_jsxName "llm",
      Node.wellFormed_string "home", ?_⟩, trivial⟩, ?_⟩, trivial, trivial, ?_⟩ <;> decide
  have fitting : markedInField.WellFormed := by
    refine ⟨⟨⟨⟨?_, ?_, ?_, trivial, element, trivial⟩, trivial⟩, ?_⟩, ?_⟩ <;> decide
  have canonical : markedInField.encode.Canonical := by decide
  have read := (reads_again_iff_wellFormed.1 markedInField).mpr fitting
  exact ⟨reads_again_iff_wellFormed.2.1 _ _ canonical read, canonical, read,
    reads_again_iff_wellFormed.2.2 markedInField {} fitting⟩

end SourceFile

end Caption
