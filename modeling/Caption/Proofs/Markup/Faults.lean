import Caption.Proofs.Markup.Grammar

/-!
What an error says of a value that is no syntax tree: what has to stand where in it, and what is wrong
there.
-/
namespace Caption

/-- What the value of a structural member has to be. -/
inductive Demand where
  /-- Something that is read in a role. -/
  | part (role : Role)
  /-- The same, unless it is missing or null. -/
  | optional (role : Role)
  /-- A node that is a string literal. -/
  | literal
  /-- An array of nodes. -/
  | nodes
  | text
  /-- A flag, unless it is missing. -/
  | flag
deriving DecidableEq

namespace Demand

/-- Whether the member has to be there. -/
def isRequired : Demand → Bool
  | .optional _ => false
  | .flag => false
  | _ => true

/-- The role in which the value is read. -/
def role? : Demand → Option Role
  | .part role => some role
  | .optional role => some role
  | .literal => some .node
  | _ => none

/-- The kind of value that has to stand there, where it is not read in a role. -/
def expected? : Demand → Option String
  | .nodes => some "array"
  | .text => some "string"
  | .flag => some "boolean"
  | _ => none

end Demand

/-- What an object of some `type` has to have if it is read in a role. A program that is the root has
what a program has to have. -/
def Role.demands (role : Role) (kind : String) : List (String × Demand) :=
  match role with
  | .kept => []
  | .node =>
    match Kind.ofName kind with
    | .importDeclaration => [("specifiers", .nodes), ("source", .literal)]
    | .importSpecifier => [("imported", .part .node), ("local", .part .node)]
    | .element =>
      [("openingElement", .part .opening), ("closingElement", .optional .closing),
        ("children", .nodes)]
    | .attr => [("name", .part .node), ("value", .optional .node)]
    | .container => [("expression", .part .node)]
    | .jsxIdentifier => [("name", .text)]
    | .literal => [("value", .text)]
    | .identifier => [("name", .text)]
    | .other _ => []
  | .opening => [("name", .part .node), ("attributes", .nodes), ("selfClosing", .flag)]
  | .closing => [("name", .part .node)]
  | .program => [("body", .nodes)]
  | .root => if kind = "File" then [("program", .part .program)] else []

namespace Json

/-- Whether a value is another one or stands anywhere in it. -/
inductive Contains : Json → Json → Prop
  | self (value : Json) : Contains value value
  | item {items : List Json} {item found : Json} (listed : item ∈ items)
    (inner : Contains item found) : Contains (.array items) found
  | member {members : Members} {member : String × Json} {found : Json} (listed : member ∈ members)
    (inner : Contains member.2 found) : Contains (.object members) found

/-- Whether a value stands in another one where something has to be read in a role. In fields of a kind
without a constructor of its own these are the objects with a type, in lists of any depth. -/
inductive Due (whole : Json) : Role → Json → Prop
  | root : Due whole .root whole
  | bare {members : Members} (outer : Due whole .root (.object members))
    (typed : members.get? "type" = some (.string "Program")) : Due whole .program (.object members)
  | part {role inner : Role} {members : Members} {kind key : String} {demand : Demand} {value : Json}
    (outer : Due whole role (.object members)) (typed : members.get? "type" = some (.string kind))
    (asked : (key, demand) ∈ role.demands kind) (taken : demand.role? = some inner)
    (given : members.get? key = some value) (present : demand.isRequired = false → value ≠ .null) :
    Due whole inner value
  | item {role : Role} {members : Members} {kind key : String} {items : List Json} {item : Json}
    (outer : Due whole role (.object members)) (typed : members.get? "type" = some (.string kind))
    (asked : (key, .nodes) ∈ role.demands kind) (given : members.get? key = some (.array items))
    (listed : item ∈ items) : Due whole .node item
  | field {members : Members} {kind type : String} {member : String × Json} {found : Json}
    (outer : Due whole .node (.object members)) (typed : members.get? "type" = some (.string kind))
    (own : kind ∉ Kind.typedNames) (listed : member ∈ members) (apart : member.1 ≠ "type")
    (within : Within found member.2) (named : found.HasType type) : Due whole .node found

end Json

namespace Role

variable {role inner : Role} {kind field : String} {demand : Demand}

theorem ne_type_of_mem_demands (asked : (field, demand) ∈ role.demands kind) : field ≠ "type" := by
  rintro rfl
  cases role with
  | node => cases named : Kind.ofName kind <;> simp [demands, named] at asked
  | root => by_cases file : kind = "File" <;> simp [demands, file] at asked
  | _ => simp [demands] at asked

/-- A member that is named as the program of a file is one. -/
theorem eq_part_of_mem_demands (asked : ("program", demand) ∈ role.demands kind) :
    demand = .part .program := by
  cases role with
  | node => cases named : Kind.ofName kind <;> simp [demands, named] at asked
  | root =>
    by_cases file : kind = "File"
    · simpa [demands, file] using asked
    · simp [demands, file] at asked
  | _ => simp [demands] at asked

/-- What can be asked for: nodes, tags, and programs in files only. -/
theorem of_mem_demands (asked : (field, demand) ∈ role.demands kind)
    (taken : demand.role? = some inner) :
    inner = .node ∨ inner = .opening ∨ inner = .closing ∧ demand.isRequired = false ∨
      inner = .program ∧ role = .root ∧ kind = "File" ∧ field = "program" := by
  cases role with
  | node =>
    cases named : Kind.ofName kind <;> simp [demands, named] at asked <;>
      grind [Demand.role?, Demand.isRequired]
  | root =>
    by_cases file : kind = "File"
    · obtain ⟨rfl, rfl⟩ : field = "program" ∧ demand = .part .program := by
        simpa [demands, file] using asked
      cases taken
      exact .inr (.inr (.inr ⟨rfl, rfl, file, rfl⟩))
    · simp [demands, file] at asked
  | _ => simp [demands] at asked <;> grind [Demand.role?]

theorem nodup_demands (role : Role) (kind : String) : ((role.demands kind).map Prod.fst).Nodup := by
  cases role with
  | node => cases named : Kind.ofName kind <;> simp [demands, named]
  | root => by_cases file : kind = "File" <;> simp [demands, file]
  | _ => simp [demands]

/-- A member is found as if none of those that are looked at before it had been taken out. -/
theorem get?_besides_of_demands {before after : List (String × Demand)}
    (order : role.demands kind = before ++ (field, demand) :: after) (members : Members) :
    (members.besides (before.map Prod.fst)).get? field = members.get? field := by
  have asked : (field, demand) ∈ role.demands kind := by simp [order]
  have apart := role.nodup_demands kind
  rw [order, List.map_append, List.map_cons] at apart
  have fresh : field ∉ before.map Prod.fst := fun earlier =>
    (List.nodup_append.mp apart).2.2 field earlier field List.mem_cons_self rfl
  have unseen : field ∉ "type" :: before.map Prod.fst :=
    List.not_mem_cons_of_ne_of_not_mem (ne_type_of_mem_demands asked) fresh
  rw [Members.get?_besides, if_neg unseen]

end Role

namespace Json

variable {whole value found middle : Json} {role : Role} {members : Members} {key kind : String}

namespace Contains

theorem trans (outer : Contains whole middle) (inner : Contains middle found) :
    Contains whole found := by
  induction outer with
  | self => exact inner
  | item listed _ ih => exact .item listed (ih inner)
  | member listed _ ih => exact .member listed (ih inner)

theorem of_within (within : Within found value) : Contains value found := by
  induction within with
  | self => exact .self _
  | item listed _ ih => exact .item listed ih

theorem of_get? (given : members.get? key = some value) : Contains (.object members) value :=
  .member (Members.mem_of_get? given) (.self value)

end Contains

namespace Due

theorem eq_whole (due : whole.Due .root value) : value = whole := by
  cases due with
  | root => rfl
  | part _ _ asked taken => simpa using Role.of_mem_demands asked taken

/-- What is read as a program has the type of one or is the program of a file. -/
theorem of_program (due : whole.Due .program value) :
    value.HasType "Program" ∨ ∃ members : Members, whole = .object members ∧
      members.get? "type" = some (.string "File") ∧ members.get? "program" = some value := by
  cases due with
  | bare _ typed => exact .inl typed
  | part outer typed asked taken given _ =>
    obtain ⟨rfl, rfl, rfl⟩ := by simpa using Role.of_mem_demands asked taken
    exact .inr ⟨_, outer.eq_whole.symm, typed, given⟩

theorem ne_kept (due : whole.Due role value) : role ≠ .kept := by
  rintro rfl
  cases due with
  | part _ _ asked taken => simpa using Role.of_mem_demands asked taken

theorem ne_null_of_closing (due : whole.Due .closing value) : value ≠ .null := by
  cases due with
  | part _ _ asked taken _ present => exact present (by simpa using Role.of_mem_demands asked taken)

theorem contains (due : whole.Due role value) : whole.Contains value := by
  induction due with
  | root => exact .self whole
  | bare _ _ ih => exact ih
  | part _ _ _ _ given _ ih => exact ih.trans (.of_get? given)
  | item _ _ _ given listed ih =>
    exact (ih.trans (.of_get? given)).trans (.item listed (.self _))
  | field _ _ _ listed _ within _ ih => exact ih.trans (.member listed (.of_within within))

end Due

end Json

/-- What an error says of the value that was to be read. -/
def DecodeError.NamesDefect (whole : Json) : DecodeError → Prop
  | .notJson => False
  | .notANode found =>
    ∃ role value, whole.Due role value ∧
      ((∀ members, value ≠ .object members) ∧ found = value.kindName ∨
        ∃ members : Members, value = .object members ∧ members.get? "type" = none ∧
          found = "object without `type`")
  | .missingField kind field =>
    ∃ (role : Role) (members : Members) (demand : Demand), whole.Due role (.object members) ∧
      members.get? "type" = some (.string kind) ∧ members.get? field = none ∧
      (field, demand) ∈ role.demands kind ∧ demand.isRequired = true
  | .unexpectedShape kind field expected found =>
    if kind = "node" ∧ field = "type" then
      ∃ (role : Role) (members : Members) (value : Json), whole.Due role (.object members) ∧
        members.get? "type" = some value ∧ found = value.kindName ∧ expected = "string" ∧
        found ≠ expected
    else if kind = "root" ∧ field = "type" then
      whole.HasType found ∧ expected = "File or Program" ∧ found ≠ "File" ∧ found ≠ "Program"
    else if kind = "File" ∧ field = "program" then
      ∃ (members : Members) (value : Json), whole = .object members ∧
        members.get? "type" = some (.string "File") ∧ members.get? "program" = some value ∧
        value.HasType found ∧ expected = "Program" ∧ found ≠ expected
    else
      ∃ (role : Role) (members : Members) (demand : Demand) (value : Json),
        whole.Due role (.object members) ∧ members.get? "type" = some (.string kind) ∧
        (field, demand) ∈ role.demands kind ∧ members.get? field = some value ∧
        found ≠ expected ∧
        if demand = .literal then value.HasType found ∧ expected = "StringLiteral"
        else found = value.kindName ∧ demand.expected? = some expected

namespace DecodeError.NamesDefect

variable {whole value : Json} {role : Role} {members : Members} {kind field : String}

theorem notObject (due : whole.Due role value) (other : ∀ members, value ≠ .object members) :
    (notANode value.kindName).NamesDefect whole :=
  ⟨role, value, due, .inl ⟨other, rfl⟩⟩

theorem untyped (due : whole.Due role (.object members)) (absent : members.get? "type" = none) :
    (notANode "object without `type`").NamesDefect whole :=
  ⟨role, _, due, .inr ⟨members, rfl, absent, rfl⟩⟩

theorem type (due : whole.Due role (.object members)) (given : members.get? "type" = some value)
    (other : value.kindName ≠ "string") :
    (unexpectedShape "node" "type" "string" value.kindName).NamesDefect whole := by
  rw [NamesDefect, if_pos ⟨rfl, rfl⟩]
  exact ⟨role, members, value, due, given, rfl, rfl, other⟩

theorem root (typed : whole.HasType kind) (file : kind ≠ "File") (program : kind ≠ "Program") :
    (unexpectedShape "root" "type" "File or Program" kind).NamesDefect whole := by
  rw [NamesDefect, if_neg (by simp), if_pos ⟨rfl, rfl⟩]
  exact ⟨typed, rfl, file, program⟩

theorem program (same : whole = .object members)
    (typed : members.get? "type" = some (.string "File"))
    (given : members.get? "program" = some value) (named : value.HasType kind)
    (other : kind ≠ "Program") :
    (unexpectedShape "File" "program" "Program" kind).NamesDefect whole := by
  rw [NamesDefect, if_neg (by simp), if_neg (by simp), if_pos ⟨rfl, rfl⟩]
  exact ⟨members, value, same, typed, given, named, rfl, other⟩

theorem missing {demand : Demand} (due : whole.Due role (.object members))
    (typed : members.get? "type" = some (.string kind)) (asked : (field, demand) ∈ role.demands kind)
    (required : demand.isRequired = true) (absent : members.get? field = none) :
    (missingField kind field).NamesDefect whole :=
  ⟨role, members, demand, due, typed, absent, asked, required⟩

section Member

variable {demand : Demand} {expected found : String} (due : whole.Due role (.object members))
  (typed : members.get? "type" = some (.string kind)) (asked : (field, demand) ∈ role.demands kind)
  (given : members.get? field = some value) (other : found ≠ expected)

include due typed asked given other

/-- An error about a member that is neither the type nor the program of a file. -/
theorem member (apart : demand ≠ .part .program)
    (tells : if demand = .literal then value.HasType found ∧ expected = "StringLiteral"
      else found = value.kindName ∧ demand.expected? = some expected) :
    (unexpectedShape kind field expected found).NamesDefect whole := by
  have untyped := Role.ne_type_of_mem_demands asked
  rw [NamesDefect, if_neg fun both => untyped both.2, if_neg fun both => untyped both.2, if_neg]
  · exact ⟨role, members, demand, value, due, typed, asked, given, other, tells⟩
  · rintro ⟨_, rfl⟩
    exact apart (Role.eq_part_of_mem_demands asked)

end Member

theorem shape {demand : Demand} {expected : String} (due : whole.Due role (.object members))
    (typed : members.get? "type" = some (.string kind)) (asked : (field, demand) ∈ role.demands kind)
    (expects : demand.expected? = some expected) (given : members.get? field = some value)
    (other : value.kindName ≠ expected) :
    (unexpectedShape kind field expected value.kindName).NamesDefect whole := by
  refine member due typed asked given other ?_ ?_
  · rintro rfl
    cases expects
  · rw [if_neg]
    · exact ⟨rfl, expects⟩
    · rintro rfl
      cases expects

theorem literal {found : String} (due : whole.Due role (.object members))
    (typed : members.get? "type" = some (.string kind))
    (asked : (field, .literal) ∈ role.demands kind) (given : members.get? field = some value)
    (named : value.HasType found) (other : found ≠ "StringLiteral") :
    (unexpectedShape kind field "StringLiteral" found).NamesDefect whole :=
  member due typed asked given other nofun (by rw [if_pos rfl]; exact ⟨named, rfl⟩)

end DecodeError.NamesDefect

end Caption
