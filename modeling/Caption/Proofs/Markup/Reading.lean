import Caption.Proofs.Markup.Parts

/-!
What a node is read from. A value is read as a node if it is an object whose `type` names the kind
and whose structural members are read as the parts; all other members are kept.
-/
namespace Caption

/-- Whether the members of an object are read as a node. -/
def Node.ReadFrom (members : Members) : Node → Prop
  | .importDeclaration specifiers source extra =>
    members.get? "type" = some (.string "ImportDeclaration") ∧
      members.HoldsNodes "specifiers" specifiers ∧ members.HoldsNode "source" (.literal source) ∧
      extra = members.besides Kind.importDeclaration.keys
  | .importSpecifier imported binding extra =>
    members.get? "type" = some (.string "ImportSpecifier") ∧
      members.HoldsNode "imported" imported ∧ members.HoldsNode "local" binding ∧
      extra = members.besides Kind.importSpecifier.keys
  | .element opening closing children extra =>
    members.get? "type" = some (.string "JSXElement") ∧
      members.Holds decodeOpening "openingElement" opening ∧
      decodeClosing (members.getD "closingElement" .null) = .ok closing ∧
      members.HoldsNodes "children" children ∧ extra = members.besides Kind.element.keys
  | .attr name value extra =>
    members.get? "type" = some (.string "JSXAttribute") ∧ members.HoldsNode "name" name ∧
      decodeOptional (members.getD "value" .null) = .ok value ∧
      extra = members.besides Kind.attr.keys
  | .container expression extra =>
    members.get? "type" = some (.string "JSXExpressionContainer") ∧
      members.HoldsNode "expression" expression ∧ extra = members.besides Kind.container.keys
  | .jsxIdentifier name extra =>
    members.get? "type" = some (.string "JSXIdentifier") ∧
      members.get? "name" = some (.string name) ∧ extra = members.besides Kind.jsxIdentifier.keys
  | .literal text =>
    members.get? "type" = some (.string "StringLiteral") ∧
      members.get? "value" = some (.string text.value) ∧
      text.extra = members.besides Kind.literal.keys
  | .identifier name extra =>
    members.get? "type" = some (.string "Identifier") ∧
      members.get? "name" = some (.string name) ∧ extra = members.besides Kind.identifier.keys
  | .other kind fields =>
    members.get? "type" = some (.string kind) ∧ Kind.ofName kind = .other kind ∧
      decodeFields (members.besides []) = .ok fields

def Opening.ReadFrom (members : Members) : Opening → Prop
  | .tag name attributes selfClosing extra =>
    (∃ kind, members.get? "type" = some (.string kind)) ∧ members.HoldsNode "name" name ∧
      members.HoldsNodes "attributes" attributes ∧
      members.getD "selfClosing" (.bool false) = .bool selfClosing ∧
      extra = members.besides Opening.keys

def Closing.ReadFrom (members : Members) : Closing → Prop
  | .missing => False
  | .tag name extra =>
    (∃ kind, members.get? "type" = some (.string kind)) ∧ members.HoldsNode "name" name ∧
      extra = members.besides Closing.keys

def Program.ReadFrom (members : Members) (program : Program) : Prop :=
  members.get? "type" = some (.string "Program") ∧ members.HoldsNodes "body" program.body ∧
    program.extra = members.besides Program.keys

def SourceFile.ReadFrom (members : Members) : SourceFile → Prop
  | ⟨program, none⟩ => program.ReadFrom members
  | ⟨program, some extra⟩ =>
    members.get? "type" = some (.string "File") ∧
      members.Holds decodeInner "program" program ∧ extra = members.besides SourceFile.keys

/-- Whether a value is neither a list nor a node. -/
def Json.IsPlain : Json → Prop
  | .array _ => False
  | .object members => ∀ kind, Members.get? members "type" ≠ some (.string kind)
  | _ => True

def Field.ReadFrom (value : Json) : Field → Prop
  | .node inner => Node.decode value = .ok inner
  | .list fields => ∃ items, value = .array items ∧ Node.decodeItems items = .ok fields
  | .plain kept => kept.IsPlain ∧ value = kept

namespace Node

variable {members : Members} {node : Node}

section Kinds

theorem decode_importDeclaration
    (named : members.get? "type" = some (.string "ImportDeclaration")) :
    decode (.object members) = .ok node ↔
      ∃ specifiers source, members.HoldsNodes "specifiers" specifiers ∧
        members.HoldsNode "source" (.literal source) ∧
        node = .importDeclaration specifiers source
          (members.besides Kind.importDeclaration.keys) := by
  have kind : Kind.ofName "ImportDeclaration" = .importDeclaration := rfl
  rw [decode, Members.typeName_eq_ok.mpr named]
  simp only [Except.ok_bind, kind, Members.without_type, Members.besides_without, List.nil_append,
    List.cons_append, Members.bind_decodeAll_eq_ok, Members.bind_read_eq_ok decode]
  constructor
  · rintro ⟨specifiers, listed, origin, given, made⟩
    cases origin with
    | literal source => exact ⟨specifiers, source, listed, given, (Except.pure_eq_ok.mp made).symm⟩
    | _ => cases made
  · rintro ⟨specifiers, source, listed, given, rfl⟩
    exact ⟨specifiers, listed, .literal source, given, rfl⟩

theorem decode_importSpecifier (named : members.get? "type" = some (.string "ImportSpecifier")) :
    decode (.object members) = .ok node ↔
      ∃ imported, members.HoldsNode "imported" imported ∧
        ∃ binding, members.HoldsNode "local" binding ∧
          .importSpecifier imported binding (members.besides Kind.importSpecifier.keys) = node := by
  have kind : Kind.ofName "ImportSpecifier" = .importSpecifier := rfl
  rw [decode, Members.typeName_eq_ok.mpr named]
  simp only [Except.ok_bind, kind, Members.without_type, Members.besides_without, List.nil_append,
    List.cons_append, Members.bind_read_eq_ok decode, Except.pure_eq_ok, Kind.keys]

theorem decode_element (named : members.get? "type" = some (.string "JSXElement")) :
    decode (.object members) = .ok node ↔
      ∃ opening, members.Holds decodeOpening "openingElement" opening ∧
        ∃ closing, decodeClosing (members.getD "closingElement" .null) = .ok closing ∧
          ∃ children, members.HoldsNodes "children" children ∧
            .element opening closing children (members.besides Kind.element.keys) = node := by
  have kind : Kind.ofName "JSXElement" = .element := rfl
  rw [decode, Members.typeName_eq_ok.mpr named]
  simp only [Except.ok_bind, kind, Members.without_type, Members.besides_without, List.nil_append,
    List.cons_append, Members.bind_read_eq_ok decodeOpening, Kind.keys]
  refine exists_congr fun opening => and_congr_right fun _ => ?_
  rw [Members.getD, ← Members.find?_val]
  cases members.find? "closingElement" with
  | none =>
    rw [Option.map_none, Option.getD_none, Except.bind_eq_ok, decodeClosing]
    simp only [Members.bind_decodeAll_eq_ok, Except.pure_eq_ok]
  | some found =>
    rw [Option.map_some, Option.getD_some, Except.bind_eq_ok]
    simp only [Members.bind_decodeAll_eq_ok, Except.pure_eq_ok]

theorem decode_attr (named : members.get? "type" = some (.string "JSXAttribute")) :
    decode (.object members) = .ok node ↔
      ∃ name, members.HoldsNode "name" name ∧
        ∃ value, decodeOptional (members.getD "value" .null) = .ok value ∧
          .attr name value (members.besides Kind.attr.keys) = node := by
  have kind : Kind.ofName "JSXAttribute" = .attr := rfl
  rw [decode, Members.typeName_eq_ok.mpr named]
  simp only [Except.ok_bind, kind, Members.without_type, Members.besides_without, List.nil_append,
    List.cons_append, Members.bind_read_eq_ok decode, Kind.keys]
  refine exists_congr fun name => and_congr_right fun _ => ?_
  rw [Members.getD, ← Members.find?_val]
  cases members.find? "value" with
  | none => simp only [Option.map_none, Option.getD_none, decodeOptional, Except.bind_eq_ok,
      Except.pure_eq_ok]
  | some found => simp only [Option.map_some, Option.getD_some, Except.bind_eq_ok, Except.pure_eq_ok]

theorem decode_container (named : members.get? "type" = some (.string "JSXExpressionContainer")) :
    decode (.object members) = .ok node ↔
      ∃ expression, members.HoldsNode "expression" expression ∧
        .container expression (members.besides Kind.container.keys) = node := by
  have kind : Kind.ofName "JSXExpressionContainer" = .container := rfl
  rw [decode, Members.typeName_eq_ok.mpr named]
  simp only [Except.ok_bind, kind, Members.without_type, Members.besides_without, List.nil_append,
    Members.bind_read_eq_ok decode, Except.pure_eq_ok, Kind.keys]

theorem decode_jsxIdentifier (named : members.get? "type" = some (.string "JSXIdentifier")) :
    decode (.object members) = .ok node ↔
      ∃ name, members.get? "name" = some (.string name) ∧
        .jsxIdentifier name (members.besides Kind.jsxIdentifier.keys) = node := by
  have kind : Kind.ofName "JSXIdentifier" = .jsxIdentifier := rfl
  rw [decode, Members.typeName_eq_ok.mpr named]
  simp only [Except.ok_bind, kind, Members.without_type, Members.besides_without, List.nil_append,
    Except.bind_eq_ok, Members.requireString_eq_ok, Except.pure_eq_ok, Kind.keys]

theorem decode_literal (named : members.get? "type" = some (.string "StringLiteral")) :
    decode (.object members) = .ok node ↔
      ∃ text, members.get? "value" = some (.string text) ∧
        .literal ⟨text, members.besides Kind.literal.keys⟩ = node := by
  have kind : Kind.ofName "StringLiteral" = .literal := rfl
  rw [decode, Members.typeName_eq_ok.mpr named]
  simp only [Except.ok_bind, kind, Members.without_type, Members.besides_without, List.nil_append,
    Except.bind_eq_ok, Members.requireString_eq_ok, Except.pure_eq_ok, Kind.keys]

theorem decode_identifier (named : members.get? "type" = some (.string "Identifier")) :
    decode (.object members) = .ok node ↔
      ∃ name, members.get? "name" = some (.string name) ∧
        .identifier name (members.besides Kind.identifier.keys) = node := by
  have kind : Kind.ofName "Identifier" = .identifier := rfl
  rw [decode, Members.typeName_eq_ok.mpr named]
  simp only [Except.ok_bind, kind, Members.without_type, Members.besides_without, List.nil_append,
    Except.bind_eq_ok, Members.requireString_eq_ok, Except.pure_eq_ok, Kind.keys]

theorem decode_other {name : String} (named : members.get? "type" = some (.string name))
    (kind : Kind.ofName name = .other name) :
    decode (.object members) = .ok node ↔
      ∃ fields, decodeFields (members.besides []) = .ok fields ∧ .other name fields = node := by
  rw [decode, Members.typeName_eq_ok.mpr named]
  simp only [Except.ok_bind, kind, Members.without_type, Except.bind_eq_ok, Except.pure_eq_ok]

end Kinds

section Values

variable {value : Json} {items : List Json} {nodes : List Node}

theorem named_of_decode (read : decode (.object members) = .ok node) :
    ∃ name, members.get? "type" = some (.string name) := by
  rw [decode] at read
  obtain ⟨name, named, _⟩ := Except.bind_eq_ok.mp read
  exact ⟨name, Members.typeName_eq_ok.mp named⟩

theorem readFrom_of_decode (read : decode (.object members) = .ok node) :
    node.ReadFrom members := by
  obtain ⟨name, named⟩ := named_of_decode read
  have spelled := Kind.name_ofName name
  cases kind : Kind.ofName name <;> rw [kind] at spelled <;> subst spelled
  case importDeclaration =>
    obtain ⟨specifiers, source, listed, given, rfl⟩ := (decode_importDeclaration named).mp read
    exact ⟨named, listed, given, rfl⟩
  case importSpecifier =>
    obtain ⟨imported, first, binding, second, rfl⟩ := (decode_importSpecifier named).mp read
    exact ⟨named, first, second, rfl⟩
  case element =>
    obtain ⟨opening, first, closing, last, children, listed, rfl⟩ := (decode_element named).mp read
    exact ⟨named, first, last, listed, rfl⟩
  case attr =>
    obtain ⟨label, first, given, second, rfl⟩ := (decode_attr named).mp read
    exact ⟨named, first, second, rfl⟩
  case container =>
    obtain ⟨expression, given, rfl⟩ := (decode_container named).mp read
    exact ⟨named, given, rfl⟩
  case jsxIdentifier =>
    obtain ⟨label, given, rfl⟩ := (decode_jsxIdentifier named).mp read
    exact ⟨named, given, rfl⟩
  case literal =>
    obtain ⟨text, given, rfl⟩ := (decode_literal named).mp read
    exact ⟨named, given, rfl⟩
  case identifier =>
    obtain ⟨label, given, rfl⟩ := (decode_identifier named).mp read
    exact ⟨named, given, rfl⟩
  case other =>
    obtain ⟨fields, given, rfl⟩ := (decode_other named kind).mp read
    exact ⟨named, kind, given⟩

theorem decode_of_readFrom (readable : node.ReadFrom members) :
    decode (.object members) = .ok node := by
  cases node with
  | importDeclaration specifiers source extra =>
    obtain ⟨named, listed, given, rfl⟩ := readable
    exact (decode_importDeclaration named).mpr ⟨specifiers, source, listed, given, rfl⟩
  | importSpecifier imported binding extra =>
    obtain ⟨named, first, second, rfl⟩ := readable
    exact (decode_importSpecifier named).mpr ⟨imported, first, binding, second, rfl⟩
  | element opening closing children extra =>
    obtain ⟨named, first, last, listed, rfl⟩ := readable
    exact (decode_element named).mpr ⟨opening, first, closing, last, children, listed, rfl⟩
  | attr label given extra =>
    obtain ⟨named, first, second, rfl⟩ := readable
    exact (decode_attr named).mpr ⟨label, first, given, second, rfl⟩
  | container expression extra =>
    obtain ⟨named, given, rfl⟩ := readable
    exact (decode_container named).mpr ⟨expression, given, rfl⟩
  | jsxIdentifier label extra =>
    obtain ⟨named, given, rfl⟩ := readable
    exact (decode_jsxIdentifier named).mpr ⟨label, given, rfl⟩
  | literal text =>
    obtain ⟨text, extra⟩ := text
    obtain ⟨named, given, rest⟩ := readable
    exact (decode_literal named).mpr ⟨text, given, by rw [← rest]⟩
  | identifier label extra =>
    obtain ⟨named, given, rfl⟩ := readable
    exact (decode_identifier named).mpr ⟨label, given, rfl⟩
  | other kind fields =>
    obtain ⟨named, own, given⟩ := readable
    exact (decode_other named own).mpr ⟨fields, given, rfl⟩

theorem decode_object_eq_ok : decode (.object members) = .ok node ↔ node.ReadFrom members :=
  ⟨readFrom_of_decode, decode_of_readFrom⟩

theorem decode_eq_ok :
    decode value = .ok node ↔ ∃ members, value = .object members ∧ node.ReadFrom members := by
  constructor
  · intro read
    cases value with
    | object members => exact ⟨members, rfl, readFrom_of_decode read⟩
    | _ => simp [decode] at read
  · rintro ⟨members, rfl, readable⟩
    exact decode_of_readFrom readable

theorem decodeAll_eq_nil : decodeAll items = .ok [] ↔ items = [] := by
  cases items with
  | nil => simp [decodeAll, Except.pure_eq_ok]
  | cons item rest =>
    rw [decodeAll]
    simp only [Except.bind_eq_ok, Except.pure_eq_ok, reduceCtorEq, and_false, exists_false]

theorem decodeAll_eq_cons :
    decodeAll items = .ok (node :: nodes) ↔
      ∃ item rest, items = item :: rest ∧ decode item = .ok node ∧ decodeAll rest = .ok nodes := by
  cases items with
  | nil => simp [decodeAll, Except.pure_eq_ok]
  | cons item rest =>
    rw [decodeAll]
    simp only [Except.bind_eq_ok, Except.pure_eq_ok]
    constructor
    · rintro ⟨_, first, _, others, rfl, rfl⟩
      exact ⟨item, rest, rfl, first, others⟩
    · rintro ⟨_, _, ⟨rfl, rfl⟩, first, others⟩
      exact ⟨node, first, nodes, others, rfl⟩

theorem decodeOptional_eq_none : decodeOptional value = .ok none ↔ value = .null := by
  unfold decodeOptional
  split
  · simp only [Except.pure_eq_ok]
  · rename_i given
    simp only [Except.bind_eq_ok, Except.pure_eq_ok, reduceCtorEq, and_false, exists_false,
      false_iff]
    exact given

theorem decodeOptional_eq_some : decodeOptional value = .ok (some node) ↔ decode value = .ok node := by
  unfold decodeOptional
  split
  · simp [decode_eq_ok, Except.pure_eq_ok]
  · simp only [Except.bind_eq_ok, Except.pure_eq_ok, Option.some.injEq, exists_eq_right]

theorem decodeOpening_eq_ok {opening : Opening} :
    decodeOpening value = .ok opening ↔
      ∃ members, value = .object members ∧ opening.ReadFrom members := by
  cases value with
  | object members =>
    rw [decodeOpening, Except.bind_eq_ok]
    obtain ⟨name, attributes, selfClosing, extra⟩ := opening
    simp only [Members.typeName_eq_ok, Members.bind_read_eq_ok decode,
      Members.bind_decodeAll_eq_ok, Members.without_type, Members.besides_without,
      List.nil_append, List.cons_append, Json.object.injEq, exists_eq_left', Opening.ReadFrom]
    simp only [Except.bind_eq_ok, Members.flag_eq_ok, Except.pure_eq_ok]
    constructor
    · rintro ⟨kind, named, _, first, _, listed, _, flagged, rfl, rfl, rfl, rfl⟩
      exact ⟨⟨kind, named⟩, first, listed, flagged, rfl⟩
    · rintro ⟨⟨kind, named⟩, first, listed, flagged, rfl⟩
      exact ⟨kind, named, name, first, attributes, listed, selfClosing, flagged, rfl⟩
  | _ => simp [decodeOpening]

theorem decodeClosing_eq_missing : decodeClosing value = .ok .missing ↔ value = .null := by
  cases value with
  | null => simp [decodeClosing, Except.pure_eq_ok]
  | object members =>
    rw [decodeClosing, Except.bind_eq_ok]
    simp only [Members.bind_read_eq_ok decode, Except.pure_eq_ok, reduceCtorEq, and_false,
      exists_false]
  | _ => simp [decodeClosing]

theorem decodeClosing_eq_tag {name : Node} {extra : Members} :
    decodeClosing value = .ok (.tag name extra) ↔
      ∃ members, value = .object members ∧ (Closing.tag name extra).ReadFrom members := by
  cases value with
  | object members =>
    rw [decodeClosing, Except.bind_eq_ok]
    simp only [Members.typeName_eq_ok, Members.bind_read_eq_ok decode, Members.without_type,
      Members.besides_without, List.nil_append, Json.object.injEq, exists_eq_left', Closing.ReadFrom,
      Except.pure_eq_ok]
    constructor
    · rintro ⟨kind, named, _, given, rfl, rfl⟩
      exact ⟨⟨kind, named⟩, given, rfl⟩
    · rintro ⟨⟨kind, named⟩, given, rfl⟩
      exact ⟨kind, named, name, given, rfl⟩
  | null => simp [decodeClosing, Except.pure_eq_ok]
  | _ => simp [decodeClosing]

end Values

section Fields

variable {value : Json} {items : List Json} {field : Field} {fields : List Field} {name : String}
  {named : List (String × Field)}

theorem decodeField_of_isPlain (plain : value.IsPlain) : decodeField value = .ok (.plain value) := by
  unfold decodeField
  split
  · cases plain
  · split
    · rename_i kind named
      exact absurd named (plain kind)
    · rfl
  · rfl

theorem decodeField_eq_ok : decodeField value = .ok field ↔ field.ReadFrom value := by
  constructor
  · intro read
    unfold decodeField at read
    split at read
    · rename_i items
      obtain ⟨fields, listed, made⟩ := Except.bind_eq_ok.mp read
      obtain rfl := Except.pure_eq_ok.mp made
      exact ⟨items, rfl, listed⟩
    · rename_i members
      split at read
      · obtain ⟨node, given, made⟩ := Except.bind_eq_ok.mp read
        obtain rfl := Except.pure_eq_ok.mp made
        exact given
      · rename_i unnamed
        obtain rfl := Except.pure_eq_ok.mp read
        exact ⟨unnamed, rfl⟩
    · rename_i notArray notObject
      obtain rfl := Except.pure_eq_ok.mp read
      refine ⟨?_, rfl⟩
      cases value <;> simp_all [Json.IsPlain]
  · intro readable
    cases field with
    | node node =>
      obtain ⟨members, rfl, inner⟩ := decode_eq_ok.mp readable
      obtain ⟨kind, named⟩ := named_of_decode readable
      rw [decodeField, named]
      exact Except.bind_eq_ok.mpr ⟨node, readable, rfl⟩
    | list fields =>
      obtain ⟨items, rfl, listed⟩ := readable
      rw [decodeField]
      exact Except.bind_eq_ok.mpr ⟨fields, listed, rfl⟩
    | plain kept =>
      obtain ⟨plain, rfl⟩ := readable
      exact decodeField_of_isPlain plain

theorem decodeItems_eq_nil : decodeItems items = .ok [] ↔ items = [] := by
  cases items with
  | nil => simp [decodeItems, Except.pure_eq_ok]
  | cons item rest =>
    rw [decodeItems]
    simp only [Except.bind_eq_ok, Except.pure_eq_ok, reduceCtorEq, and_false, exists_false]

theorem decodeItems_eq_cons :
    decodeItems items = .ok (field :: fields) ↔
      ∃ item rest, items = item :: rest ∧ field.ReadFrom item ∧ decodeItems rest = .ok fields := by
  cases items with
  | nil => simp [decodeItems, Except.pure_eq_ok]
  | cons item rest =>
    rw [decodeItems]
    simp only [Except.bind_eq_ok, Except.pure_eq_ok, decodeField_eq_ok]
    constructor
    · rintro ⟨_, first, _, others, rfl, rfl⟩
      exact ⟨item, rest, rfl, first, others⟩
    · rintro ⟨_, _, ⟨rfl, rfl⟩, first, others⟩
      exact ⟨field, first, fields, others, rfl⟩

theorem decodeFields_eq_nil : decodeFields members = .ok [] ↔ members = [] := by
  cases members with
  | nil => simp [decodeFields, Except.pure_eq_ok]
  | cons head rest =>
    rw [decodeFields]
    simp only [Except.bind_eq_ok, Except.pure_eq_ok, reduceCtorEq, and_false, exists_false]

theorem decodeFields_eq_cons :
    decodeFields members = .ok ((name, field) :: named) ↔
      ∃ value rest, members = (name, value) :: rest ∧ field.ReadFrom value ∧
        decodeFields rest = .ok named := by
  cases members with
  | nil => simp [decodeFields, Except.pure_eq_ok]
  | cons head rest =>
    obtain ⟨label, value⟩ := head
    rw [decodeFields]
    simp only [Except.bind_eq_ok, Except.pure_eq_ok, decodeField_eq_ok]
    constructor
    · rintro ⟨_, first, _, others, rfl, rfl⟩
      exact ⟨value, rest, rfl, first, others⟩
    · rintro ⟨_, _, ⟨rfl, rfl⟩, first, others⟩
      exact ⟨field, first, named, others, rfl⟩

end Fields

end Node

theorem Program.decode_eq_ok {members : Members} {program : Program} :
    Program.decode members = .ok program ↔ members.HoldsNodes "body" program.body ∧
      program.extra = members.besides Program.keys := by
  obtain ⟨body, extra⟩ := program
  rw [decode]
  simp only [Members.bind_decodeAll_eq_ok, Members.without_type, Members.besides_without,
    List.nil_append, Except.pure_eq_ok, Program.mk.injEq]
  constructor
  · rintro ⟨_, listed, rfl, rfl⟩
    exact ⟨listed, rfl⟩
  · rintro ⟨listed, rfl⟩
    exact ⟨body, listed, rfl, rfl⟩

namespace SourceFile

variable {value : Json} {program : Program}

theorem decodeInner_eq_ok :
    decodeInner value = .ok program ↔
      ∃ members, value = .object members ∧ program.ReadFrom members := by
  cases value with
  | object members =>
    rw [decodeInner, Except.bind_eq_ok]
    simp only [Members.typeName_eq_ok, Json.object.injEq, exists_eq_left']
    constructor
    · rintro ⟨kind, named, read⟩
      split at read
      · rename_i spelled
        subst spelled
        exact ⟨named, Program.decode_eq_ok.mp read⟩
      · cases read
    · rintro ⟨named, read⟩
      exact ⟨"Program", named, Program.decode_eq_ok.mpr read⟩
  | _ => simp [decodeInner]

theorem decode_eq_ok {source : SourceFile} :
    decode value = .ok source ↔
      ∃ members, value = .object members ∧ source.ReadFrom members := by
  cases value with
  | object members =>
    rw [decode, Except.bind_eq_ok]
    simp only [Members.typeName_eq_ok, Members.without_type, Members.besides_without,
      List.nil_append, Json.object.injEq, exists_eq_left']
    constructor
    · rintro ⟨kind, named, read⟩
      split at read
      · rename_i spelled
        subst spelled
        obtain ⟨program, given, made⟩ := (Members.bind_read_eq_ok decodeInner).mp read
        obtain rfl := Except.pure_eq_ok.mp made
        exact ⟨named, given, rfl⟩
      · split at read
        · rename_i spelled
          subst spelled
          obtain ⟨program, given, made⟩ := Except.bind_eq_ok.mp read
          obtain rfl := Except.pure_eq_ok.mp made
          exact ⟨named, Program.decode_eq_ok.mp given⟩
        · cases read
    · intro readable
      obtain ⟨program, file⟩ := source
      cases file with
      | none =>
        obtain ⟨named, read⟩ := readable
        refine ⟨"Program", named, ?_⟩
        exact Except.bind_eq_ok.mpr ⟨program, Program.decode_eq_ok.mpr read, rfl⟩
      | some extra =>
        obtain ⟨named, given, rfl⟩ := readable
        exact ⟨"File", named, (Members.bind_read_eq_ok decodeInner).mpr ⟨program, given, rfl⟩⟩
  | _ => simp [decode]

theorem read_eq_ok {text : String} {source : SourceFile} :
    read text = .ok source ↔ ∃ value, Json.read? text = some value ∧ decode value = .ok source := by
  rw [read]
  cases Json.read? text with
  | none => simp
  | some value => simp

end SourceFile

end Caption
