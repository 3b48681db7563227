import Caption.Proofs.Json.Canonical
import Caption.Proofs.Markup.Reading

/-!
Well-formed trees: no kept member takes the place of a structural one, and no field hides a node.
They are exactly the trees that are read again from their own values.
-/
namespace Caption

mutual

/-- Whether a node keeps none of its structural members beside them, and no field of another kind
hides a node. -/
def Node.WellFormed : Node → Prop
  | .importDeclaration specifiers source extra =>
    Node.WellFormedAll specifiers ∧ source.extra.Lacks Kind.literal.keys ∧
      extra.Lacks Kind.importDeclaration.keys
  | .importSpecifier imported binding extra =>
    imported.WellFormed ∧ binding.WellFormed ∧ extra.Lacks Kind.importSpecifier.keys
  | .element opening closing children extra =>
    opening.WellFormed ∧ closing.WellFormed ∧ Node.WellFormedAll children ∧
      extra.Lacks Kind.element.keys
  | .attr name none extra => name.WellFormed ∧ extra.Lacks Kind.attr.keys
  | .attr name (some value) extra =>
    name.WellFormed ∧ value.WellFormed ∧ extra.Lacks Kind.attr.keys
  | .container expression extra => expression.WellFormed ∧ extra.Lacks Kind.container.keys
  | .jsxIdentifier _ extra => extra.Lacks Kind.jsxIdentifier.keys
  | .literal text => text.extra.Lacks Kind.literal.keys
  | .identifier _ extra => extra.Lacks Kind.identifier.keys
  | .other kind fields =>
    kind ∉ Kind.typedNames ∧ Keyed.Sorted Prod.fst fields ∧
      "type" ∉ fields.map Prod.fst ∧ Field.WellFormedFields fields

def Node.WellFormedAll : List Node → Prop
  | [] => True
  | node :: rest => node.WellFormed ∧ Node.WellFormedAll rest

/-- Whether an opening tag keeps none of its structural members beside them. -/
def Opening.WellFormed : Opening → Prop
  | .tag name attributes _ extra =>
    name.WellFormed ∧ Node.WellFormedAll attributes ∧ extra.Lacks Opening.keys

def Closing.WellFormed : Closing → Prop
  | .missing => True
  | .tag name extra => name.WellFormed ∧ extra.Lacks Closing.keys

/-- Whether a field is what its value is read as. -/
def Field.WellFormed : Field → Prop
  | .node inner => inner.WellFormed
  | .list items => Field.WellFormedAll items
  | .plain value => value.IsPlain

def Field.WellFormedAll : List Field → Prop
  | [] => True
  | field :: rest => field.WellFormed ∧ Field.WellFormedAll rest

def Field.WellFormedFields : List (String × Field) → Prop
  | [] => True
  | (_, field) :: rest => field.WellFormed ∧ Field.WellFormedFields rest

end

/-- Whether the statements are well formed and the program keeps no `body` beside them. -/
def Program.WellFormed (program : Program) : Prop :=
  Node.WellFormedAll program.body ∧ program.extra.Lacks Program.keys

/-- Whether the program is well formed and the file keeps no `program` beside it. -/
def SourceFile.WellFormed (source : SourceFile) : Prop :=
  source.program.WellFormed ∧ ∀ extra ∈ source.file, extra.Lacks SourceFile.keys

namespace Node

variable {members : Members} {value : Json}

theorem names_of_decodeFields {fields : List (String × Field)}
    (read : decodeFields members = .ok fields) : members.map Prod.fst = fields.map Prod.fst := by
  induction fields generalizing members with
  | nil => simp [decodeFields_eq_nil.mp read]
  | cons named rest ih =>
    obtain ⟨value, others, rfl, _, later⟩ := decodeFields_eq_cons.mp read
    simp [ih later]

theorem names_encodeFields (fields : List (String × Field)) :
    (Field.encodeFields fields).map Prod.fst = fields.map Prod.fst := by
  induction fields with
  | nil => rfl
  | cons named rest ih =>
    obtain ⟨name, field⟩ := named
    simp [Field.encodeFields, ih]

/-- A node of another kind is read again if its fields are and have the names they are written
under. -/
theorem readFrom_encode_other {kind : String} {fields : List (String × Field)}
    (again : decodeFields (Field.encodeFields fields) = .ok fields ↔ Field.WellFormedFields fields) :
    (Node.other kind fields).ReadFrom
        (Keyed.putAll Prod.fst (Field.encodeFields fields) [("type", .string kind)]) ↔
      (Node.other kind fields).WellFormed := by
  have written := names_encodeFields fields
  have stored : Members.Sorted
      (Keyed.putAll Prod.fst (Field.encodeFields fields) [("type", .string kind)]) :=
    Keyed.sorted_putAll _ (List.pairwise_singleton _ _)
  rw [ReadFrom, Node.WellFormed, Kind.ofName_eq_other, ← again]
  constructor
  · rintro ⟨_, own, read⟩
    -- Fields have the names of the members they are read from, which increase and leave out `type`.
    have names := names_of_decodeFields read
    have sorted : Keyed.Sorted Prod.fst fields :=
      (Keyed.sorted_congr names).mp (Members.sorted_besides stored [])
    have untyped : "type" ∉ fields.map Prod.fst := by
      rw [← names]
      exact Members.lacks_nil_iff.mp (Members.lacks_besides _ [])
    rw [Members.besides_putAll ((Keyed.sorted_congr written).mpr sorted) (written ▸ untyped)] at read
    exact ⟨own, sorted, untyped, read⟩
  · rintro ⟨own, sorted, untyped, read⟩
    have increasing : Members.Sorted (Field.encodeFields fields) :=
      (Keyed.sorted_congr written).mpr sorted
    have free : "type" ∉ (Field.encodeFields fields).map Prod.fst := written ▸ untyped
    refine ⟨Members.get?_type_putAll increasing free _, own, ?_⟩
    rw [Members.besides_putAll increasing free]
    exact read

mutual

/-- A node is read again from its own value just if it is well formed. -/
theorem decode_encode_iff : (node : Node) → (decode node.encode = .ok node ↔ node.WellFormed)
  | .importDeclaration specifiers source extra => by
    rw [Node.encode, decode_object_eq_ok, ReadFrom, Node.WellFormed, ← decodeAll_encodeAll_iff]
    simp [Members.ofKind, Kind.keys, decode_object_eq_ok, ReadFrom]
  | .importSpecifier imported binding extra => by
    rw [Node.encode, decode_object_eq_ok, ReadFrom, Node.WellFormed, ← decode_encode_iff imported,
      ← decode_encode_iff binding]
    simp [Members.ofKind, Kind.keys]
  | .element opening closing children extra => by
    rw [Node.encode, decode_object_eq_ok, ReadFrom, Node.WellFormed,
      ← decodeOpening_encode_iff opening, ← decodeClosing_encode_iff closing,
      ← decodeAll_encodeAll_iff children]
    simp [Members.ofKind, Kind.keys]
  | .attr name none extra => by
    rw [Node.encode, decode_object_eq_ok, ReadFrom, Node.WellFormed, ← decode_encode_iff name]
    simp [Members.ofKind, Kind.keys, decodeOptional_eq_none]
  | .attr name (some value) extra => by
    rw [Node.encode, decode_object_eq_ok, ReadFrom, Node.WellFormed, ← decode_encode_iff name,
      ← decode_encode_iff value]
    simp [Members.ofKind, Kind.keys, decodeOptional_eq_some]
  | .container expression extra => by
    rw [Node.encode, decode_object_eq_ok, ReadFrom, Node.WellFormed, ← decode_encode_iff expression]
    simp [Members.ofKind, Kind.keys]
  | .jsxIdentifier name extra => by
    rw [Node.encode, decode_object_eq_ok, ReadFrom, Node.WellFormed]
    simp [Members.ofKind, Kind.keys]
  | .literal text => by
    rw [Node.encode, decode_object_eq_ok, ReadFrom, Node.WellFormed]
    simp [Members.ofKind, Kind.keys]
  | .identifier name extra => by
    rw [Node.encode, decode_object_eq_ok, ReadFrom, Node.WellFormed]
    simp [Members.ofKind, Kind.keys]
  | .other kind fields => by
    rw [Node.encode, decode_object_eq_ok]
    exact readFrom_encode_other (decodeFields_encodeFields_iff fields)

theorem decodeAll_encodeAll_iff :
    (nodes : List Node) → (decodeAll (encodeAll nodes) = .ok nodes ↔ WellFormedAll nodes)
  | [] => by simp [encodeAll, decodeAll_eq_nil, WellFormedAll]
  | node :: rest => by
    rw [encodeAll, decodeAll_eq_cons, WellFormedAll, ← decode_encode_iff node,
      ← decodeAll_encodeAll_iff rest]
    simp [and_assoc]

theorem decodeOpening_encode_iff :
    (opening : Opening) → (decodeOpening opening.encode = .ok opening ↔ opening.WellFormed)
  | .tag name attributes selfClosing extra => by
    rw [Opening.encode, decodeOpening_eq_ok, Opening.WellFormed, ← decode_encode_iff name,
      ← decodeAll_encodeAll_iff attributes]
    simp [Opening.ReadFrom, Members.ofKind, Opening.keys]

theorem decodeClosing_encode_iff :
    (closing : Closing) → (decodeClosing closing.encode = .ok closing ↔ closing.WellFormed)
  | .missing => by simp [Closing.encode, Closing.WellFormed, decodeClosing_eq_missing]
  | .tag name extra => by
    rw [Closing.encode, decodeClosing_eq_tag, Closing.WellFormed, ← decode_encode_iff name]
    simp [Closing.ReadFrom, Members.ofKind, Closing.keys]

theorem readFrom_encode_iff :
    (field : Field) → (field.ReadFrom field.encode ↔ field.WellFormed)
  | .node inner => decode_encode_iff inner
  | .list items => by
    rw [Field.encode, Field.ReadFrom, Field.WellFormed, ← decodeItems_encodeAll_iff items]
    simp
  | .plain value => by simp [Field.encode, Field.ReadFrom, Field.WellFormed]

theorem decodeItems_encodeAll_iff :
    (fields : List Field) →
      (decodeItems (Field.encodeAll fields) = .ok fields ↔ Field.WellFormedAll fields)
  | [] => by simp [Field.encodeAll, decodeItems_eq_nil, Field.WellFormedAll]
  | field :: rest => by
    rw [Field.encodeAll, decodeItems_eq_cons, Field.WellFormedAll, ← readFrom_encode_iff field,
      ← decodeItems_encodeAll_iff rest]
    simp [and_assoc]

theorem decodeFields_encodeFields_iff :
    (fields : List (String × Field)) →
      (decodeFields (Field.encodeFields fields) = .ok fields ↔ Field.WellFormedFields fields)
  | [] => by simp [Field.encodeFields, decodeFields_eq_nil, Field.WellFormedFields]
  | (name, field) :: rest => by
    rw [Field.encodeFields, decodeFields_eq_cons, Field.WellFormedFields,
      ← readFrom_encode_iff field, ← decodeFields_encodeFields_iff rest]
    simp [and_assoc]

end

section Canonical

open Json (canonical_of_get?)

mutual

theorem wellFormed_of_decode : (node : Node) → ∀ {value : Json}, value.Canonical →
    decode value = .ok node → node.WellFormed
  | .importDeclaration specifiers source extra, value, canonical, read => by
    obtain ⟨members, rfl, _, ⟨items, listed, inner⟩, ⟨origin, _, first⟩, rfl⟩ := decode_eq_ok.mp read
    obtain ⟨kept, _, _, _, rest⟩ := decode_eq_ok.mp first
    refine ⟨wellFormedAll_of_decodeAll specifiers (canonical_of_get? canonical.2 listed) inner, ?_,
      Members.lacks_besides members _⟩
    rw [rest]
    exact Members.lacks_besides kept _
  | .importSpecifier imported binding extra, value, canonical, read => by
    obtain ⟨members, rfl, _, ⟨left, given, first⟩, ⟨right, bound, second⟩, rfl⟩ :=
      decode_eq_ok.mp read
    exact ⟨wellFormed_of_decode imported (canonical_of_get? canonical.2 given) first,
      wellFormed_of_decode binding (canonical_of_get? canonical.2 bound) second,
      Members.lacks_besides members _⟩
  | .element opening closing children extra, value, canonical, read => by
    obtain ⟨members, rfl, _, ⟨start, given, first⟩, last, ⟨items, listed, inner⟩, rfl⟩ :=
      decode_eq_ok.mp read
    exact ⟨wellFormed_of_decodeOpening opening (canonical_of_get? canonical.2 given) first,
      wellFormed_of_decodeClosing closing (Json.canonical_getD canonical.2 _) last,
      wellFormedAll_of_decodeAll children (canonical_of_get? canonical.2 listed) inner,
      Members.lacks_besides members _⟩
  | .attr name none extra, value, canonical, read => by
    obtain ⟨members, rfl, _, ⟨label, given, first⟩, _, rfl⟩ := decode_eq_ok.mp read
    exact ⟨wellFormed_of_decode name (canonical_of_get? canonical.2 given) first,
      Members.lacks_besides members _⟩
  | .attr name (some content) extra, value, canonical, read => by
    obtain ⟨members, rfl, _, ⟨label, given, first⟩, second, rfl⟩ := decode_eq_ok.mp read
    exact ⟨wellFormed_of_decode name (canonical_of_get? canonical.2 given) first,
      wellFormed_of_decode content (Json.canonical_getD canonical.2 _)
        (decodeOptional_eq_some.mp second),
      Members.lacks_besides members _⟩
  | .container expression extra, value, canonical, read => by
    obtain ⟨members, rfl, _, ⟨inner, given, first⟩, rfl⟩ := decode_eq_ok.mp read
    exact ⟨wellFormed_of_decode expression (canonical_of_get? canonical.2 given) first,
      Members.lacks_besides members _⟩
  | .jsxIdentifier name extra, value, canonical, read => by
    obtain ⟨members, rfl, _, _, rfl⟩ := decode_eq_ok.mp read
    exact Members.lacks_besides members _
  | .literal text, value, canonical, read => by
    obtain ⟨members, rfl, _, _, rest⟩ := decode_eq_ok.mp read
    rw [Node.WellFormed, rest]
    exact Members.lacks_besides members _
  | .identifier name extra, value, canonical, read => by
    obtain ⟨members, rfl, _, _, rfl⟩ := decode_eq_ok.mp read
    exact Members.lacks_besides members _
  | .other kind fields, value, canonical, read => by
    obtain ⟨members, rfl, _, own, inner⟩ := decode_eq_ok.mp read
    have names := names_of_decodeFields inner
    refine ⟨Kind.ofName_eq_other.mp own, (Keyed.sorted_congr names).mp ?_, ?_, ?_⟩
    · exact Members.sorted_besides canonical.1 []
    · rw [← names]
      exact Members.lacks_nil_iff.mp (Members.lacks_besides members [])
    · exact wellFormedFields_of_decodeFields fields (Json.canonicalMembers_besides canonical.2 []) inner

theorem wellFormedAll_of_decodeAll : (nodes : List Node) → ∀ {items : List Json},
    Json.CanonicalItems items → decodeAll items = .ok nodes → WellFormedAll nodes
  | [], items, canonical, read => trivial
  | node :: rest, items, canonical, read => by
    obtain ⟨item, others, rfl, first, later⟩ := decodeAll_eq_cons.mp read
    exact ⟨wellFormed_of_decode node canonical.1 first,
      wellFormedAll_of_decodeAll rest canonical.2 later⟩

theorem wellFormed_of_decodeOpening : (opening : Opening) → ∀ {value : Json}, value.Canonical →
    decodeOpening value = .ok opening → opening.WellFormed
  | .tag name attributes selfClosing extra, value, canonical, read => by
    obtain ⟨members, rfl, _, ⟨label, given, first⟩, ⟨items, listed, inner⟩, _, rfl⟩ :=
      decodeOpening_eq_ok.mp read
    exact ⟨wellFormed_of_decode name (canonical_of_get? canonical.2 given) first,
      wellFormedAll_of_decodeAll attributes (canonical_of_get? canonical.2 listed) inner,
      Members.lacks_besides members _⟩

theorem wellFormed_of_decodeClosing : (closing : Closing) → ∀ {value : Json}, value.Canonical →
    decodeClosing value = .ok closing → closing.WellFormed
  | .missing, value, canonical, read => trivial
  | .tag name extra, value, canonical, read => by
    obtain ⟨members, rfl, _, ⟨label, given, first⟩, rfl⟩ := decodeClosing_eq_tag.mp read
    exact ⟨wellFormed_of_decode name (canonical_of_get? canonical.2 given) first,
      Members.lacks_besides members _⟩

theorem wellFormed_of_readFrom : (field : Field) → ∀ {value : Json}, value.Canonical →
    field.ReadFrom value → field.WellFormed
  | .node inner, value, canonical, read => wellFormed_of_decode inner canonical read
  | .list fields, value, canonical, read => by
    obtain ⟨items, rfl, inner⟩ := read
    exact wellFormedAll_of_decodeItems fields canonical inner
  | .plain kept, value, canonical, read => read.1

theorem wellFormedAll_of_decodeItems : (fields : List Field) → ∀ {items : List Json},
    Json.CanonicalItems items → decodeItems items = .ok fields → Field.WellFormedAll fields
  | [], items, canonical, read => trivial
  | field :: rest, items, canonical, read => by
    obtain ⟨item, others, rfl, first, later⟩ := decodeItems_eq_cons.mp read
    exact ⟨wellFormed_of_readFrom field canonical.1 first,
      wellFormedAll_of_decodeItems rest canonical.2 later⟩

theorem wellFormedFields_of_decodeFields : (fields : List (String × Field)) → ∀ {members : Members},
    Json.CanonicalMembers members → decodeFields members = .ok fields →
      Field.WellFormedFields fields
  | [], members, canonical, read => trivial
  | (name, field) :: rest, members, canonical, read => by
    obtain ⟨value, others, rfl, first, later⟩ := decodeFields_eq_cons.mp read
    exact ⟨wellFormed_of_readFrom field canonical.1 first,
      wellFormedFields_of_decodeFields rest canonical.2 later⟩

end

end Canonical

end Node

theorem Program.wellFormed_of_readFrom {members : Members} {program : Program}
    (canonical : (Json.object members).Canonical) (readable : program.ReadFrom members) :
    program.WellFormed := by
  obtain ⟨_, ⟨items, listed, read⟩, kept⟩ := readable
  refine ⟨Node.wellFormedAll_of_decodeAll program.body (Json.canonical_of_get? canonical.2 listed)
    read, ?_⟩
  rw [kept]
  exact Members.lacks_besides members _

namespace SourceFile

variable {source : SourceFile} {value : Json}

/-- A source file is read again from its own value just if it is well formed. -/
theorem decode_encode_iff : decode source.encode = .ok source ↔ source.WellFormed := by
  obtain ⟨⟨body, extra⟩, file⟩ := source
  cases file with
  | none =>
    simp [encode, Program.encode, decode_eq_ok, ReadFrom, Program.ReadFrom, SourceFile.WellFormed,
      Program.WellFormed, Members.ofKind, Program.keys, Node.decodeAll_encodeAll_iff]
  | some outer =>
    simp [encode, Program.encode, decode_eq_ok, ReadFrom, decodeInner_eq_ok, Program.ReadFrom,
      SourceFile.WellFormed, Program.WellFormed, Members.ofKind, Program.keys, keys,
      Node.decodeAll_encodeAll_iff]

theorem wellFormed_of_decode (canonical : value.Canonical) (read : decode value = .ok source) :
    source.WellFormed := by
  obtain ⟨members, rfl, readable⟩ := decode_eq_ok.mp read
  obtain ⟨program, file⟩ := source
  cases file with
  | none => exact ⟨Program.wellFormed_of_readFrom canonical readable, by simp⟩
  | some extra =>
    obtain ⟨_, ⟨inner, given, first⟩, rfl⟩ := readable
    obtain ⟨others, rfl, second⟩ := decodeInner_eq_ok.mp first
    refine ⟨Program.wellFormed_of_readFrom (Json.canonical_of_get? canonical.2 given) second, ?_⟩
    rintro extra ⟨⟩
    exact Members.lacks_besides members _

/-- Every value of a text has increasing keys, so that whatever is read from one is well formed. -/
theorem wellFormed_of_read {text : String} {source : SourceFile} (read : read text = .ok source) :
    source.WellFormed := by
  obtain ⟨value, parsed, decoded⟩ := read_eq_ok.mp read
  exact wellFormed_of_decode (Json.canonical_of_read? parsed) decoded

end SourceFile

end Caption
