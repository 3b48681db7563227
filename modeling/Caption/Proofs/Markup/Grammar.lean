import Caption.Proofs.Markup.Normal
import Caption.Proofs.Markup.Reading

/-!
The grammar of the values that are read as syntax trees: what a node of each kind needs, and what must
stand in the members that are looked at. Reading succeeds on just the values of the grammar.
-/
namespace Caption

namespace Json

/-- Whether a value is an object of a type. -/
def HasType (kind : String) : Json → Prop
  | .object members => Members.get? members "type" = some (.string kind)
  | _ => False

/-- Whether a value is another one, or stands in it in lists of any depth. -/
inductive Within (found : Json) : Json → Prop
  | self : Within found found
  | item {item : Json} {items : List Json} (listed : item ∈ items) (inner : Within found item) :
    Within found (.array items)

/-- Whether a value belongs to the grammar of what is taken in a role. Members that no rule names may
have any value. -/
inductive Fits : Role → Json → Prop
  | kept (value : Json) : Fits .kept value
  | importDeclaration {members : Members} {specifiers : List Json} {source : Json}
    (named : members.get? "type" = some (.string "ImportDeclaration"))
    (listed : members.get? "specifiers" = some (.array specifiers))
    (nodes : ∀ specifier ∈ specifiers, Fits .node specifier)
    (given : members.get? "source" = some source) (typed : source.HasType "StringLiteral")
    (origin : Fits .node source) : Fits .node (.object members)
  | importSpecifier {members : Members} {imported binding : Json}
    (named : members.get? "type" = some (.string "ImportSpecifier"))
    (given : members.get? "imported" = some imported) (first : Fits .node imported)
    (bound : members.get? "local" = some binding) (second : Fits .node binding) :
    Fits .node (.object members)
  | element {members : Members} {opening : Json} {children : List Json}
    (named : members.get? "type" = some (.string "JSXElement"))
    (given : members.get? "openingElement" = some opening) (first : Fits .opening opening)
    (last : ∀ closing, members.get? "closingElement" = some closing → Fits .closing closing)
    (listed : members.get? "children" = some (.array children))
    (nodes : ∀ child ∈ children, Fits .node child) : Fits .node (.object members)
  | attr {members : Members} {label : Json}
    (named : members.get? "type" = some (.string "JSXAttribute"))
    (given : members.get? "name" = some label) (first : Fits .node label)
    (second : ∀ content, members.get? "value" = some content → content ≠ .null →
      Fits .node content) : Fits .node (.object members)
  | container {members : Members} {expression : Json}
    (named : members.get? "type" = some (.string "JSXExpressionContainer"))
    (given : members.get? "expression" = some expression) (inner : Fits .node expression) :
    Fits .node (.object members)
  | jsxIdentifier {members : Members} {name : String}
    (named : members.get? "type" = some (.string "JSXIdentifier"))
    (given : members.get? "name" = some (.string name)) : Fits .node (.object members)
  | literal {members : Members} {text : String}
    (named : members.get? "type" = some (.string "StringLiteral"))
    (given : members.get? "value" = some (.string text)) : Fits .node (.object members)
  | identifier {members : Members} {name : String}
    (named : members.get? "type" = some (.string "Identifier"))
    (given : members.get? "name" = some (.string name)) : Fits .node (.object members)
  | other {members : Members} {kind : String}
    (named : members.get? "type" = some (.string kind)) (own : kind ∉ Kind.typedNames)
    (fields : ∀ member ∈ members, member.1 ≠ "type" → ∀ found type, Within found member.2 →
      found.HasType type → Fits .node found) : Fits .node (.object members)
  | opening {members : Members} {kind : String} {label : Json} {attributes : List Json}
    (named : members.get? "type" = some (.string kind))
    (given : members.get? "name" = some label) (first : Fits .node label)
    (listed : members.get? "attributes" = some (.array attributes))
    (nodes : ∀ item ∈ attributes, Fits .node item)
    (closes : ∀ value, members.get? "selfClosing" = some value → ∃ flag, value = .bool flag) :
    Fits .opening (.object members)
  | missing : Fits .closing .null
  | closing {members : Members} {kind : String} {label : Json}
    (named : members.get? "type" = some (.string kind))
    (given : members.get? "name" = some label) (first : Fits .node label) :
    Fits .closing (.object members)
  | program {members : Members} {body : List Json}
    (named : members.get? "type" = some (.string "Program"))
    (listed : members.get? "body" = some (.array body))
    (nodes : ∀ statement ∈ body, Fits .node statement) : Fits .program (.object members)
  | file {members : Members} {program : Json}
    (named : members.get? "type" = some (.string "File"))
    (given : members.get? "program" = some program) (inner : Fits .program program) :
    Fits .root (.object members)
  | bare {value : Json} (inner : Fits .program value) : Fits .root value

end Json

/-- Whether a value is read when it is taken in a role. -/
def Role.Reads : Role → Json → Prop
  | .kept, _ => True
  | .node, value => ∃ node, Node.decode value = .ok node
  | .opening, value => ∃ opening, Node.decodeOpening value = .ok opening
  | .closing, value => ∃ closing, Node.decodeClosing value = .ok closing
  | .program, value => ∃ program, SourceFile.decodeInner value = .ok program
  | .root, value => ∃ source, SourceFile.decode value = .ok source

/-- Reading a list succeeds if it stops at no item. -/
theorem exists_ok_iff_forall {ε α β : Type} {read : List α → Except ε β} {Readable : α → Prop}
    (nil : ∃ result, read [] = .ok result)
    (cons : ∀ item rest, (∃ result, read (item :: rest) = .ok result) ↔
      Readable item ∧ ∃ result, read rest = .ok result) (items : List α) :
    (∃ result, read items = .ok result) ↔ ∀ item ∈ items, Readable item := by
  induction items with
  | nil => simpa using nil
  | cons item rest ih => rw [cons, ih, List.forall_mem_cons]

namespace Node

theorem exists_decodeAll_iff (items : List Json) :
    (∃ nodes, decodeAll items = .ok nodes) ↔ ∀ item ∈ items, Role.node.Reads item := by
  refine exists_ok_iff_forall ⟨[], decodeAll_eq_nil.mpr rfl⟩ (fun item rest => ?_) items
  rw [decodeAll]
  simp only [Except.bind_eq_ok, Except.pure_eq_ok, Role.Reads]
  grind

theorem exists_decodeItems_iff (items : List Json) :
    (∃ fields, decodeItems items = .ok fields) ↔
      ∀ item ∈ items, ∃ field : Field, field.ReadFrom item := by
  refine exists_ok_iff_forall ⟨[], decodeItems_eq_nil.mpr rfl⟩ (fun item rest => ?_) items
  rw [decodeItems]
  simp only [Except.bind_eq_ok, Except.pure_eq_ok, decodeField_eq_ok]
  grind

theorem exists_decodeFields_iff (members : Members) :
    (∃ fields, decodeFields members = .ok fields) ↔
      ∀ member ∈ members, ∃ field : Field, field.ReadFrom member.2 := by
  refine exists_ok_iff_forall ⟨[], decodeFields_eq_nil.mpr rfl⟩ (fun item rest => ?_) members
  rw [decodeFields]
  simp only [Except.bind_eq_ok, Except.pure_eq_ok, decodeField_eq_ok]
  grind

theorem exists_readFrom_array (items : List Json) :
    (∃ field : Field, field.ReadFrom (.array items)) ↔
      ∀ item ∈ items, ∃ field : Field, field.ReadFrom item := by
  rw [← exists_decodeItems_iff]
  constructor
  · rintro ⟨field, read⟩
    cases field with
    | node node =>
      obtain ⟨members, same, _⟩ := decode_eq_ok.mp read
      cases same
    | list fields =>
      obtain ⟨others, same, listed⟩ := read
      cases same
      exact ⟨fields, listed⟩
    | plain kept =>
      obtain ⟨plain, rfl⟩ := read
      cases plain
  · rintro ⟨fields, listed⟩
    exact ⟨.list fields, items, rfl, listed⟩

theorem exists_readFrom_object (members : Members) :
    (∃ field : Field, field.ReadFrom (.object members)) ↔
      ∀ kind, (Json.object members).HasType kind → Role.node.Reads (.object members) := by
  constructor
  · rintro ⟨field, read⟩ kind typed
    cases field with
    | node node => exact ⟨node, read⟩
    | list fields =>
      obtain ⟨items, same, _⟩ := read
      cases same
    | plain kept =>
      obtain ⟨plain, rfl⟩ := read
      exact absurd typed (plain kind)
  · intro readable
    by_cases plain : (Json.object members).IsPlain
    · exact ⟨.plain (.object members), plain, rfl⟩
    · obtain ⟨kind, named⟩ : ∃ kind, members.get? "type" = some (.string kind) := by
        simpa [Json.IsPlain] using plain
      obtain ⟨node, read⟩ := readable kind named
      exact ⟨.node node, read⟩

/-- A field is read if all nodes in it are: the objects with a type in its lists. -/
theorem exists_readFrom_iff : (value : Json) →
    ((∃ field : Field, field.ReadFrom value) ↔
      ∀ found kind, Json.Within found value → found.HasType kind → Role.node.Reads found)
  | .object members => by
    rw [exists_readFrom_object]
    constructor
    · intro readable found kind within typed
      cases within
      exact readable kind typed
    · intro readable kind typed
      exact readable _ kind .self typed
  | .array items => by
    rw [exists_readFrom_array]
    constructor
    · intro readable found kind within typed
      cases within with
      | self => cases typed
      | item listed inner =>
        exact (exists_readFrom_iff _).mp (readable _ listed) found kind inner typed
    · intro readable item listed
      refine (exists_readFrom_iff item).mpr fun found kind inner typed => ?_
      exact readable found kind (.item listed inner) typed
  | .null | .bool _ | .number _ | .string _ => by
    refine iff_of_true ⟨.plain _, ?plain, rfl⟩ fun found kind within typed => ?typed
    case plain => trivial
    case typed =>
      cases within
      cases typed
termination_by value => sizeOf value
decreasing_by all_goals
  have smaller := List.sizeOf_lt_of_mem listed
  simp
  omega

end Node

section Sizes

variable {members : Members} {found value : Json}

theorem Members.sizeOf_lt_of_get? {key : String} (given : members.get? key = some value) :
    sizeOf value < sizeOf members := by
  rw [← find?_val] at given
  obtain ⟨⟨_, smaller⟩, _, rfl⟩ := Option.map_eq_some_iff.mp given
  exact smaller

theorem Json.sizeOf_le_of_within (within : Json.Within found value) :
    sizeOf found ≤ sizeOf value := by
  induction within with
  | self => exact Nat.le_refl _
  | item listed _ ih =>
    have smaller := List.sizeOf_lt_of_mem listed
    simp only [Json.array.sizeOf_spec]
    omega

end Sizes

namespace Json

section Members

/-! What is read from a member belongs to the grammar if all smaller values that are read do. -/

variable {members : Members} {key : String} {value : Json} {items : List Json}
  (below : ∀ smaller : Json, sizeOf smaller < sizeOf members → ∀ role : Role, role.Reads smaller →
    smaller.Fits role)
include below

theorem fits_of_get? (given : members.get? key = some value) {role : Role}
    (readable : role.Reads value) : value.Fits role :=
  below value (Members.sizeOf_lt_of_get? given) role readable

theorem fits_of_mem_get? (given : members.get? key = some (.array items)) {nodes : List Node}
    (read : Node.decodeAll items = .ok nodes) : ∀ item ∈ items, item.Fits .node := by
  intro item listed
  have outer := Members.sizeOf_lt_of_get? given
  have inner := List.sizeOf_lt_of_mem listed
  refine below item ?_ .node ((Node.exists_decodeAll_iff items).mp ⟨nodes, read⟩ item listed)
  simp only [array.sizeOf_spec] at outer
  omega

theorem fits_of_readFrom {node : Node} (readable : node.ReadFrom members) :
    (object members).Fits .node := by
  cases node with
  | importDeclaration specifiers source extra =>
    obtain ⟨named, ⟨items, listed, inner⟩, ⟨origin, given, first⟩, _⟩ := readable
    obtain ⟨inside, rfl, typed, _⟩ := Node.decode_eq_ok.mp first
    exact .importDeclaration named listed (fits_of_mem_get? below listed inner) given typed
      (fits_of_get? below given ⟨_, first⟩)
  | importSpecifier imported binding extra =>
    obtain ⟨named, ⟨_, given, first⟩, ⟨_, bound, second⟩, _⟩ := readable
    exact .importSpecifier named given (fits_of_get? below given ⟨_, first⟩) bound
      (fits_of_get? below bound ⟨_, second⟩)
  | element opening closing children extra =>
    obtain ⟨named, ⟨start, given, first⟩, last, ⟨items, listed, inner⟩, _⟩ := readable
    refine .element named given (fits_of_get? below given ⟨_, first⟩) (fun finish found => ?_)
      listed (fits_of_mem_get? below listed inner)
    rw [Members.getD, found] at last
    exact fits_of_get? below found ⟨closing, last⟩
  | attr name content extra =>
    obtain ⟨named, ⟨label, given, first⟩, second, _⟩ := readable
    refine .attr named given (fits_of_get? below given ⟨_, first⟩) fun value found full => ?_
    rw [Members.getD, found, Option.getD_some] at second
    cases content with
    | none => exact absurd (Node.decodeOptional_eq_none.mp second) full
    | some node => exact fits_of_get? below found ⟨node, Node.decodeOptional_eq_some.mp second⟩
  | container expression extra =>
    obtain ⟨named, ⟨inner, given, first⟩, _⟩ := readable
    exact .container named given (fits_of_get? below given ⟨_, first⟩)
  | jsxIdentifier name extra =>
    obtain ⟨named, given, _⟩ := readable
    exact .jsxIdentifier named given
  | literal text =>
    obtain ⟨named, given, _⟩ := readable
    exact .literal named given
  | identifier name extra =>
    obtain ⟨named, given, _⟩ := readable
    exact .identifier named given
  | other kind fields =>
    obtain ⟨named, own, read⟩ := readable
    refine .other named (Kind.ofName_eq_other.mp own) ?_
    intro member listed apart found type within typed
    have kept : member ∈ members.besides [] := List.mem_filter.mpr ⟨listed, by simpa using apart⟩
    have field := (Node.exists_decodeFields_iff _).mp ⟨fields, read⟩ member kept
    have outer := List.sizeOf_lt_of_mem listed
    have inner := sizeOf_le_of_within within
    refine below found ?_ .node ((Node.exists_readFrom_iff member.2).mp field found type within typed)
    obtain ⟨name, value⟩ := member
    simp only [Prod.mk.sizeOf_spec] at outer inner
    omega

theorem fits_of_opening {opening : Opening} (readable : opening.ReadFrom members) :
    (object members).Fits .opening := by
  obtain ⟨name, attributes, selfClosing, extra⟩ := opening
  obtain ⟨⟨kind, named⟩, ⟨label, given, first⟩, ⟨items, listed, inner⟩, closes, _⟩ := readable
  refine .opening named given (fits_of_get? below given ⟨_, first⟩) listed
    (fits_of_mem_get? below listed inner) fun value found => ?_
  rw [Members.getD, found] at closes
  exact ⟨selfClosing, closes⟩

theorem fits_of_closing {closing : Closing} (readable : closing.ReadFrom members) :
    (object members).Fits .closing := by
  cases closing with
  | missing => cases readable
  | tag name extra =>
    obtain ⟨⟨kind, named⟩, ⟨label, given, first⟩, _⟩ := readable
    exact .closing named given (fits_of_get? below given ⟨_, first⟩)

theorem fits_of_program {program : Program} (readable : program.ReadFrom members) :
    (object members).Fits .program := by
  obtain ⟨named, ⟨items, listed, inner⟩, _⟩ := readable
  exact .program named listed (fits_of_mem_get? below listed inner)

theorem fits_of_source {source : SourceFile} (readable : source.ReadFrom members) :
    (object members).Fits .root := by
  obtain ⟨program, file⟩ := source
  cases file with
  | none => exact .bare (fits_of_program below readable)
  | some extra =>
    obtain ⟨named, ⟨inner, given, first⟩, _⟩ := readable
    exact .file named given (fits_of_get? below given ⟨program, first⟩)

end Members

theorem fits_of_reads (value : Json) {role : Role} (readable : role.Reads value) :
    value.Fits role := by
  have below {members : Members} (same : value = .object members) (smaller : Json)
      (less : sizeOf smaller < sizeOf members) (role : Role) (read : role.Reads smaller) :
      smaller.Fits role :=
    have : sizeOf smaller < sizeOf value := by
      rw [same, object.sizeOf_spec]
      omega
    fits_of_reads smaller read
  cases role with
  | kept => exact .kept value
  | node =>
    obtain ⟨node, read⟩ := readable
    obtain ⟨members, same, inner⟩ := Node.decode_eq_ok.mp read
    exact same ▸ fits_of_readFrom (below same) inner
  | opening =>
    obtain ⟨opening, read⟩ := readable
    obtain ⟨members, same, inner⟩ := Node.decodeOpening_eq_ok.mp read
    exact same ▸ fits_of_opening (below same) inner
  | closing =>
    obtain ⟨closing, read⟩ := readable
    cases closing with
    | missing => exact Node.decodeClosing_eq_missing.mp read ▸ .missing
    | tag name extra =>
      obtain ⟨members, same, inner⟩ := Node.decodeClosing_eq_tag.mp read
      exact same ▸ fits_of_closing (below same) inner
  | program =>
    obtain ⟨program, read⟩ := readable
    obtain ⟨members, same, inner⟩ := SourceFile.decodeInner_eq_ok.mp read
    exact same ▸ fits_of_program (below same) inner
  | root =>
    obtain ⟨source, read⟩ := readable
    obtain ⟨members, same, inner⟩ := SourceFile.decode_eq_ok.mp read
    exact same ▸ fits_of_source (below same) inner
termination_by sizeOf value

theorem exists_literal {source : Json} (typed : source.HasType "StringLiteral")
    (readable : Role.node.Reads source) : ∃ text, Node.decode source = .ok (.literal text) := by
  cases source with
  | object members =>
    obtain ⟨node, read⟩ := readable
    obtain ⟨text, _, rfl⟩ := (Node.decode_literal typed).mp read
    exact ⟨_, read⟩
  | _ => cases typed

theorem reads_of_fits {value : Json} {role : Role} (fitting : value.Fits role) :
    role.Reads value := by
  induction fitting with
  | kept value => trivial
  | importDeclaration named listed _ given typed _ nodes origin =>
    obtain ⟨specifiers, read⟩ := (Node.exists_decodeAll_iff _).mpr nodes
    obtain ⟨text, source⟩ := exists_literal typed origin
    exact ⟨_, (Node.decode_importDeclaration named).mpr
      ⟨specifiers, text, ⟨_, listed, read⟩, ⟨_, given, source⟩, rfl⟩⟩
  | importSpecifier named given _ bound _ first second =>
    obtain ⟨imported, start⟩ := first
    obtain ⟨binding, finish⟩ := second
    exact ⟨_, (Node.decode_importSpecifier named).mpr
      ⟨imported, ⟨_, given, start⟩, binding, ⟨_, bound, finish⟩, rfl⟩⟩
  | @element members opening children named given _ last listed _ first closes nodes =>
    obtain ⟨start, opened⟩ := first
    obtain ⟨inside, read⟩ := (Node.exists_decodeAll_iff _).mpr nodes
    obtain ⟨finish, closed⟩ : Role.closing.Reads (members.getD "closingElement" .null) := by
      rw [Members.getD]
      cases found : members.get? "closingElement" with
      | none => exact ⟨.missing, Node.decodeClosing_eq_missing.mpr rfl⟩
      | some closing => exact closes closing found
    exact ⟨_, (Node.decode_element named).mpr
      ⟨start, ⟨_, given, opened⟩, finish, closed, inside, ⟨_, listed, read⟩, rfl⟩⟩
  | @attr members label named given _ _ first second =>
    obtain ⟨name, start⟩ := first
    obtain ⟨content, finish⟩ : ∃ content,
        Node.decodeOptional (members.getD "value" .null) = .ok content := by
      rw [Members.getD]
      cases found : members.get? "value" with
      | none => exact ⟨none, Node.decodeOptional_eq_none.mpr rfl⟩
      | some content =>
        by_cases empty : content = .null
        · exact ⟨none, Node.decodeOptional_eq_none.mpr empty⟩
        · obtain ⟨node, read⟩ := second content found empty
          exact ⟨some node, Node.decodeOptional_eq_some.mpr read⟩
    exact ⟨_, (Node.decode_attr named).mpr ⟨name, ⟨_, given, start⟩, content, finish, rfl⟩⟩
  | container named given _ inner =>
    obtain ⟨expression, read⟩ := inner
    exact ⟨_, (Node.decode_container named).mpr ⟨expression, ⟨_, given, read⟩, rfl⟩⟩
  | jsxIdentifier named given => exact ⟨_, (Node.decode_jsxIdentifier named).mpr ⟨_, given, rfl⟩⟩
  | literal named given => exact ⟨_, (Node.decode_literal named).mpr ⟨_, given, rfl⟩⟩
  | identifier named given => exact ⟨_, (Node.decode_identifier named).mpr ⟨_, given, rfl⟩⟩
  | @other members kind named own _ fields =>
    have readable : ∀ member ∈ members.besides [], ∃ field : Field, field.ReadFrom member.2 := by
      intro member kept
      obtain ⟨listed, apart⟩ := List.mem_filter.mp kept
      exact (Node.exists_readFrom_iff _).mpr (fields member listed (by simpa using apart))
    obtain ⟨named', read⟩ := (Node.exists_decodeFields_iff _).mpr readable
    exact ⟨_, (Node.decode_other named (Kind.ofName_eq_other.mpr own)).mpr ⟨named', read, rfl⟩⟩
  | @opening members kind label attributes named given _ listed _ closes first nodes =>
    obtain ⟨name, start⟩ := first
    obtain ⟨inside, read⟩ := (Node.exists_decodeAll_iff _).mpr nodes
    obtain ⟨flag, flagged⟩ : ∃ flag, members.getD "selfClosing" (.bool false) = .bool flag := by
      rw [Members.getD]
      cases found : members.get? "selfClosing" with
      | none => exact ⟨false, rfl⟩
      | some value => exact closes value found
    exact ⟨.tag name inside flag _, Node.decodeOpening_eq_ok.mpr
      ⟨members, rfl, ⟨kind, named⟩, ⟨_, given, start⟩, ⟨_, listed, read⟩, flagged, rfl⟩⟩
  | missing => exact ⟨.missing, Node.decodeClosing_eq_missing.mpr rfl⟩
  | closing named given _ first =>
    obtain ⟨name, read⟩ := first
    exact ⟨.tag name _, Node.decodeClosing_eq_tag.mpr
      ⟨_, rfl, ⟨_, named⟩, ⟨_, given, read⟩, rfl⟩⟩
  | program named listed _ nodes =>
    obtain ⟨body, read⟩ := (Node.exists_decodeAll_iff _).mpr nodes
    exact ⟨⟨body, _⟩, SourceFile.decodeInner_eq_ok.mpr ⟨_, rfl, named, ⟨_, listed, read⟩, rfl⟩⟩
  | file named given _ inner =>
    obtain ⟨program, read⟩ := inner
    exact ⟨⟨program, some _⟩, SourceFile.decode_eq_ok.mpr
      ⟨_, rfl, named, ⟨_, given, read⟩, rfl⟩⟩
  | bare _ inner =>
    obtain ⟨program, read⟩ := inner
    exact ⟨⟨program, none⟩, SourceFile.decode_eq_ok.mpr (SourceFile.decodeInner_eq_ok.mp read)⟩

end Json

/-- A value is read as a source file just if it belongs to the grammar of files and programs. -/
theorem SourceFile.decodes_iff_fits (value : Json) :
    (∃ source, decode value = .ok source) ↔ value.Fits .root :=
  ⟨fun readable => Json.fits_of_reads value readable, fun fitting => Json.reads_of_fits fitting⟩

end Caption
