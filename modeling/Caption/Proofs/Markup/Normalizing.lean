import Caption.Proofs.Markup.Normal
import Caption.Proofs.Markup.Reading

/-!
Reading and writing a syntax tree brings its value into normal form, whatever the tree.
-/
namespace Caption

theorem Json.normalized_of_isPlain {value : Json} (plain : value.IsPlain) (role : Role) :
    value.normalized role = value := by
  cases value with
  | array items => cases plain
  | object members =>
    rw [normalized]
    split
    · rename_i kind named
      exact absurd named (plain kind)
    · rfl
  | _ => rfl

namespace Node

open Json (canonical_of_get? normalizedMembers object_eq_normalized)
open Members (sorted_set sorted_besides)

theorem literal_encode_eq_normalized {text : Literal} {value : Json} (canonical : value.Canonical)
    (read : decode value = .ok (.literal text)) :
    (Node.literal text).encode = value.normalized .node := by
  obtain ⟨content, extra⟩ := text
  obtain ⟨members, rfl, named, given, rest⟩ := decode_eq_ok.mp read
  obtain rfl : extra = _ := rest
  refine object_eq_normalized canonical.1 named (by decide)
    (sorted_set (sorted_set (sorted_besides canonical.1 _))) ?_ ?_
  · simp [Role.keys, Kind.ofName, Members.ofKind, Kind.keys]
  · simp [Role.keys, Role.complete, Role.member, Role.ofMember, Kind.ofName, Kind.keys,
      Members.ofKind, Json.normalized, named, given]

/-- An attribute without a value is written like one whose value is null. -/
theorem attr_eq_normalized {members : Members} {label name content : Json}
    (sorted : members.Sorted) (named : members.get? "type" = some (.string "JSXAttribute"))
    (given : members.get? "name" = some label) (first : name = label.normalized .node)
    (second : content = (members.getD "value" .null).normalized .node) :
    .object (((Members.ofKind "JSXAttribute" (members.besides Kind.attr.keys)).set "name" name).set
      "value" content) = (Json.object members).normalized .node := by
  have written : Members.getD (normalizedMembers (Role.node.member "JSXAttribute") members)
      "value" .null = (members.getD "value" .null).normalized .node :=
    Json.getD_normalizedMembers rfl
  refine object_eq_normalized sorted named (by decide)
    (sorted_set (sorted_set (sorted_set (sorted_besides sorted _)))) ?_ ?_
  · simp [Role.keys, Kind.ofName, Members.ofKind, Kind.keys]
  · simp [Role.keys, Role.complete, Role.member, Role.ofMember, Kind.ofName, Kind.keys,
      Members.ofKind, Json.normalized, named, given, first, second, written]

/-- The fields of a node of another kind have increasing keys and no `type` among them, so that none
is lost when they are stored beside it. -/
theorem other_eq_normalized {members : Members} {kind : String} {fields : List (String × Field)}
    (sorted : members.Sorted) (named : members.get? "type" = some (.string kind))
    (own : Kind.ofName kind = .other kind)
    (all : Field.encodeFields fields = normalizedMembers (fun _ => .node) (members.besides [])) :
    (Node.other kind fields).encode = (Json.object members).normalized .node := by
  have increasing : Members.Sorted (Field.encodeFields fields) := by
    rw [all]
    exact Json.sorted_normalizedMembers (sorted_besides sorted []) _
  have untyped : "type" ∉ (Field.encodeFields fields).map Prod.fst := by
    rw [all, Json.names_normalizedMembers]
    exact Members.lacks_nil_iff.mp (Members.lacks_besides members [])
  have taken : Role.node.member kind = fun _ => .node := by
    funext name
    rw [Role.member, own]
    rfl
  have uncompleted (others : Members) : Role.node.complete kind others = others := by
    rw [Role.complete]
    simp only [own]
  rw [Node.encode, Json.normalized_object named, uncompleted, taken]
  refine congrArg _ (Members.ext_besides [] ?_ (Json.sorted_normalizedMembers sorted _) ?_ ?_)
  · exact Keyed.sorted_putAll _ (List.pairwise_singleton _ _)
  · rw [Members.besides_putAll increasing untyped, Json.besides_normalizedMembers, all]
  · simp [Members.get?_type_putAll increasing untyped, named, Json.normalized]

mutual

/-- What is written for a node is the normal form of the value that it was read from. -/
theorem encode_eq_normalized : (node : Node) → ∀ {value : Json}, value.Canonical →
    decode value = .ok node → node.encode = value.normalized .node
  | .importDeclaration specifiers source extra, value, canonical, read => by
    obtain ⟨members, rfl, named, ⟨items, listed, inner⟩, ⟨origin, given, first⟩, rfl⟩ :=
      decode_eq_ok.mp read
    have all := encodeAll_eq_normalizedItems specifiers (canonical_of_get? canonical.2 listed) inner
    have literal := literal_encode_eq_normalized (canonical_of_get? canonical.2 given) first
    rw [Node.encode, Members.ofKind] at literal
    refine object_eq_normalized canonical.1 named (by decide)
      (sorted_set (sorted_set (sorted_set (sorted_besides canonical.1 _)))) ?_ ?_
    · simp [Role.keys, Kind.ofName, Members.ofKind, Kind.keys]
    · simp [Role.keys, Role.complete, Role.member, Role.ofMember, Role.items, Kind.ofName, Kind.keys,
        Members.ofKind, Json.normalized, named, listed, given, all, literal]
  | .importSpecifier imported binding extra, value, canonical, read => by
    obtain ⟨members, rfl, named, ⟨left, given, first⟩, ⟨right, bound, second⟩, rfl⟩ :=
      decode_eq_ok.mp read
    have start := encode_eq_normalized imported (canonical_of_get? canonical.2 given) first
    have finish := encode_eq_normalized binding (canonical_of_get? canonical.2 bound) second
    refine object_eq_normalized canonical.1 named (by decide)
      (sorted_set (sorted_set (sorted_set (sorted_besides canonical.1 _)))) ?_ ?_
    · simp [Role.keys, Kind.ofName, Members.ofKind, Kind.keys]
    · simp [Role.keys, Role.complete, Role.member, Role.ofMember, Kind.ofName, Kind.keys,
        Members.ofKind, Json.normalized, named, given, bound, start, finish]
  | .element opening closing children extra, value, canonical, read => by
    obtain ⟨members, rfl, named, ⟨start, given, first⟩, last, ⟨items, listed, inner⟩, rfl⟩ :=
      decode_eq_ok.mp read
    have opened := opening_encode_eq_normalized opening (canonical_of_get? canonical.2 given) first
    have closed := closing_encode_eq_normalized closing (Json.canonical_getD canonical.2 _) last
    have all := encodeAll_eq_normalizedItems children (canonical_of_get? canonical.2 listed) inner
    have written : Members.getD (normalizedMembers (Role.node.member "JSXElement") members)
        "closingElement" .null = (Members.getD members "closingElement" .null).normalized .closing :=
      Json.getD_normalizedMembers rfl
    refine object_eq_normalized canonical.1 named (by decide)
      (sorted_set (sorted_set (sorted_set (sorted_set (sorted_besides canonical.1 _))))) ?_ ?_
    · simp [Role.keys, Kind.ofName, Members.ofKind, Kind.keys]
    · simp [Role.keys, Role.complete, Role.member, Role.ofMember, Role.items, Kind.ofName, Kind.keys,
        Members.ofKind, Json.normalized, named, given, listed, opened, closed, all, written]
  | .attr name none extra, value, canonical, read => by
    obtain ⟨members, rfl, named, ⟨label, given, first⟩, second, rfl⟩ := decode_eq_ok.mp read
    refine attr_eq_normalized canonical.1 named given
      (encode_eq_normalized name (canonical_of_get? canonical.2 given) first) ?_
    rw [decodeOptional_eq_none.mp second]
    rfl
  | .attr name (some content) extra, value, canonical, read => by
    obtain ⟨members, rfl, named, ⟨label, given, first⟩, second, rfl⟩ := decode_eq_ok.mp read
    exact attr_eq_normalized canonical.1 named given
      (encode_eq_normalized name (canonical_of_get? canonical.2 given) first)
      (encode_eq_normalized content (Json.canonical_getD canonical.2 _)
        (decodeOptional_eq_some.mp second))
  | .container expression extra, value, canonical, read => by
    obtain ⟨members, rfl, named, ⟨inner, given, first⟩, rfl⟩ := decode_eq_ok.mp read
    have only := encode_eq_normalized expression (canonical_of_get? canonical.2 given) first
    refine object_eq_normalized canonical.1 named (by decide)
      (sorted_set (sorted_set (sorted_besides canonical.1 _))) ?_ ?_
    · simp [Role.keys, Kind.ofName, Members.ofKind, Kind.keys]
    · simp [Role.keys, Role.complete, Role.member, Role.ofMember, Kind.ofName, Kind.keys,
        Members.ofKind, Json.normalized, named, given, only]
  | .jsxIdentifier name extra, value, canonical, read => by
    obtain ⟨members, rfl, named, given, rfl⟩ := decode_eq_ok.mp read
    refine object_eq_normalized canonical.1 named (by decide)
      (sorted_set (sorted_set (sorted_besides canonical.1 _))) ?_ ?_
    · simp [Role.keys, Kind.ofName, Members.ofKind, Kind.keys]
    · simp [Role.keys, Role.complete, Role.member, Role.ofMember, Kind.ofName, Kind.keys,
        Members.ofKind, Json.normalized, named, given]
  | .literal text, value, canonical, read => literal_encode_eq_normalized canonical read
  | .identifier name extra, value, canonical, read => by
    obtain ⟨members, rfl, named, given, rfl⟩ := decode_eq_ok.mp read
    refine object_eq_normalized canonical.1 named (by decide)
      (sorted_set (sorted_set (sorted_besides canonical.1 _))) ?_ ?_
    · simp [Role.keys, Kind.ofName, Members.ofKind, Kind.keys]
    · simp [Role.keys, Role.complete, Role.member, Role.ofMember, Kind.ofName, Kind.keys,
        Members.ofKind, Json.normalized, named, given]
  | .other kind fields, value, canonical, read => by
    obtain ⟨members, rfl, named, own, inner⟩ := decode_eq_ok.mp read
    have all := encodeFields_eq_normalizedMembers fields
      (Json.canonicalMembers_besides canonical.2 []) inner
    exact other_eq_normalized canonical.1 named own all

theorem encodeAll_eq_normalizedItems : (nodes : List Node) → ∀ {items : List Json},
    Json.CanonicalItems items → decodeAll items = .ok nodes →
      encodeAll nodes = Json.normalizedItems .node items
  | [], items, canonical, read => by
    rw [decodeAll_eq_nil.mp read]
    rfl
  | node :: rest, items, canonical, read => by
    obtain ⟨item, others, rfl, first, later⟩ := decodeAll_eq_cons.mp read
    rw [encodeAll, Json.normalizedItems, encode_eq_normalized node canonical.1 first,
      encodeAll_eq_normalizedItems rest canonical.2 later]

theorem opening_encode_eq_normalized : (opening : Opening) → ∀ {value : Json}, value.Canonical →
    decodeOpening value = .ok opening → opening.encode = value.normalized .opening
  | .tag name attributes selfClosing extra, value, canonical, read => by
    obtain ⟨members, rfl, ⟨kind, named⟩, ⟨label, given, first⟩, ⟨items, listed, inner⟩, closes,
      rfl⟩ := decodeOpening_eq_ok.mp read
    have start := encode_eq_normalized name (canonical_of_get? canonical.2 given) first
    have all := encodeAll_eq_normalizedItems attributes (canonical_of_get? canonical.2 listed) inner
    have written : Members.getD (normalizedMembers (Role.opening.member kind) members)
        "selfClosing" (.bool false) = (Members.getD members "selfClosing" (.bool false)).normalized .kept :=
      Json.getD_normalizedMembers rfl
    refine object_eq_normalized canonical.1 named (by simp)
      (sorted_set (sorted_set (sorted_set (sorted_set (sorted_besides canonical.1 _))))) ?_ ?_
    · simp [Role.keys, Members.ofKind, Opening.keys]
    · simp [Role.keys, Role.complete, Role.member, Role.items, Opening.keys, Members.ofKind,
        Json.normalized, given, listed, start, all, closes, written]

theorem closing_encode_eq_normalized : (closing : Closing) → ∀ {value : Json}, value.Canonical →
    decodeClosing value = .ok closing → closing.encode = value.normalized .closing
  | .missing, value, canonical, read => by
    rw [decodeClosing_eq_missing.mp read]
    rfl
  | .tag name extra, value, canonical, read => by
    obtain ⟨members, rfl, ⟨kind, named⟩, ⟨label, given, first⟩, rfl⟩ := decodeClosing_eq_tag.mp read
    have start := encode_eq_normalized name (canonical_of_get? canonical.2 given) first
    refine object_eq_normalized canonical.1 named (by simp)
      (sorted_set (sorted_set (sorted_besides canonical.1 _))) ?_ ?_
    · simp [Role.keys, Members.ofKind, Closing.keys]
    · simp [Role.keys, Role.complete, Role.member, Closing.keys, Members.ofKind, given, start]

theorem field_encode_eq_normalized : (field : Field) → ∀ {value : Json}, value.Canonical →
    field.ReadFrom value → field.encode = value.normalized .node
  | .node inner, value, canonical, read => encode_eq_normalized inner canonical read
  | .list fields, value, canonical, read => by
    obtain ⟨items, rfl, inner⟩ := read
    rw [Field.encode, Json.normalized, Role.items]
    exact congrArg _ (encodeItems_eq_normalizedItems fields canonical inner)
  | .plain kept, value, canonical, read => by
    obtain ⟨plain, rfl⟩ := read
    exact (Json.normalized_of_isPlain plain .node).symm

theorem encodeItems_eq_normalizedItems : (fields : List Field) → ∀ {items : List Json},
    Json.CanonicalItems items → decodeItems items = .ok fields →
      Field.encodeAll fields = Json.normalizedItems .node items
  | [], items, canonical, read => by
    rw [decodeItems_eq_nil.mp read]
    rfl
  | field :: rest, items, canonical, read => by
    obtain ⟨item, others, rfl, first, later⟩ := decodeItems_eq_cons.mp read
    rw [Field.encodeAll, Json.normalizedItems, field_encode_eq_normalized field canonical.1 first,
      encodeItems_eq_normalizedItems rest canonical.2 later]

theorem encodeFields_eq_normalizedMembers : (fields : List (String × Field)) →
    ∀ {members : Members}, Json.CanonicalMembers members → decodeFields members = .ok fields →
      Field.encodeFields fields = Json.normalizedMembers (fun _ => .node) members
  | [], members, canonical, read => by
    rw [decodeFields_eq_nil.mp read]
    rfl
  | (name, field) :: rest, members, canonical, read => by
    obtain ⟨value, others, rfl, first, later⟩ := decodeFields_eq_cons.mp read
    rw [Field.encodeFields, Json.normalizedMembers, field_encode_eq_normalized field canonical.1 first,
      encodeFields_eq_normalizedMembers rest canonical.2 later]

end

end Node

theorem Program.encode_eq_normalized {members : Members} {program : Program} {role : Role}
    (canonical : (Json.object members).Canonical) (readable : program.ReadFrom members)
    (outer : role = .program ∨ role = .root) :
    program.encode = (Json.object members).normalized role := by
  obtain ⟨body, extra⟩ := program
  obtain ⟨named, ⟨items, listed, read⟩, kept⟩ := readable
  obtain rfl : extra = _ := kept
  have all := Node.encodeAll_eq_normalizedItems body
    (Json.canonical_of_get? canonical.2 listed) read
  refine Json.object_eq_normalized canonical.1 named ?_
    (Members.sorted_set (Members.sorted_set (Members.sorted_besides canonical.1 _))) ?_ ?_
  · rcases outer with rfl | rfl <;> simp
  · rcases outer with rfl | rfl <;> simp [Role.keys, Members.ofKind, Program.keys]
  · rcases outer with rfl | rfl <;>
      simp [Role.keys, Role.complete, Role.member, Role.items, Program.keys, Members.ofKind,
        Json.normalized, named, listed, all]

namespace SourceFile

theorem encode_eq_normalized {value : Json} {source : SourceFile} (canonical : value.Canonical)
    (read : decode value = .ok source) : source.encode = value.normalized .root := by
  obtain ⟨members, rfl, readable⟩ := decode_eq_ok.mp read
  obtain ⟨program, file⟩ := source
  cases file with
  | none => exact Program.encode_eq_normalized canonical readable (Or.inr rfl)
  | some extra =>
    obtain ⟨named, ⟨inner, given, first⟩, rfl⟩ := readable
    obtain ⟨others, rfl, within⟩ := decodeInner_eq_ok.mp first
    have written := Program.encode_eq_normalized (Json.canonical_of_get? canonical.2 given) within
      (Or.inl rfl)
    refine Json.object_eq_normalized canonical.1 named (by simp)
      (Members.sorted_set (Members.sorted_set (Members.sorted_besides canonical.1 _))) ?_ ?_
    · simp [Role.keys, Members.ofKind, keys]
    · simp [Role.keys, Role.complete, Role.member, keys, Members.ofKind, Json.normalized, named,
        given, written]

/-- What reading and writing makes of a value with increasing keys: its normal form, and so the value
itself just if it is in that form. -/
theorem encode_decoded_eq_normalized {value : Json} {source : SourceFile}
    (canonical : value.Canonical) (read : decode value = .ok source) :
    source.encode = value.normalized .root ∧ (source.encode = value ↔ value.IsNormal .root) := by
  have written := encode_eq_normalized canonical read
  refine ⟨written, ?_⟩
  rw [written]
  exact Json.normalized_eq_self_iff value canonical

/-- A bare marker of an element that is the field of a statement, written without what is always
written. -/
def bareMarker : Json :=
  .object [("body", .array [.object [
    ("argument", .object [
      ("children", .array []),
      ("openingElement", .object [
        ("attributes", .array [.object [
          ("name", .object [("name", .string "llm"), ("type", .string "JSXIdentifier")]),
          ("type", .string "JSXAttribute")]]),
        ("name", .object [("name", .string "p"), ("type", .string "JSXIdentifier")]),
        ("type", .string "Tag")]),
      ("type", .string "JSXElement")]),
    ("type", .string "ReturnStatement")]]),
  ("type", .string "Program")]

def bareMarkerTree : SourceFile :=
  ⟨⟨[.other "ReturnStatement" [("argument", .node (.element
    (.tag (.jsxIdentifier "p" []) [.attr (.jsxIdentifier "llm" []) none []] false [])
    .missing [] []))]], []⟩, none⟩

theorem decode_bareMarker : decode bareMarker = .ok bareMarkerTree := by
  refine decode_eq_ok.mpr ⟨_, rfl, rfl, ⟨_, rfl, Node.decodeAll_eq_cons.mpr
    ⟨_, _, rfl, ?statement, Node.decodeAll_eq_nil.mpr rfl⟩⟩, rfl⟩
  refine Node.decode_object_eq_ok.mpr ⟨rfl, rfl, Node.decodeFields_eq_cons.mpr
    ⟨_, _, rfl, ?element, Node.decodeFields_eq_nil.mpr rfl⟩⟩
  refine Node.decode_object_eq_ok.mpr ⟨rfl, ⟨_, rfl, ?opening⟩,
    Node.decodeClosing_eq_missing.mpr rfl, ⟨_, rfl, Node.decodeAll_eq_nil.mpr rfl⟩, rfl⟩
  refine Node.decodeOpening_eq_ok.mpr ⟨_, rfl, ⟨_, rfl⟩, ⟨_, rfl, ?name⟩, ⟨_, rfl,
    Node.decodeAll_eq_cons.mpr ⟨_, _, rfl, ?marker, Node.decodeAll_eq_nil.mpr rfl⟩⟩, rfl, rfl⟩
  case name => exact Node.decode_object_eq_ok.mpr ⟨rfl, rfl, rfl⟩
  case marker =>
    exact Node.decode_object_eq_ok.mpr ⟨rfl,
      ⟨_, rfl, Node.decode_object_eq_ok.mpr ⟨rfl, rfl, rfl⟩⟩,
      Node.decodeOptional_eq_none.mpr rfl, rfl⟩

theorem encode_decoded_bareMarker :
    bareMarker.Canonical ∧ decode bareMarker = .ok bareMarkerTree ∧
      bareMarkerTree.encode = bareMarker.normalized .root ∧
      (bareMarkerTree.encode = bareMarker ↔ bareMarker.IsNormal .root) := by
  have canonical : bareMarker.Canonical := by decide
  exact ⟨canonical, decode_bareMarker, encode_decoded_eq_normalized canonical decode_bareMarker⟩

end SourceFile

end Caption
