import Caption.Proofs.Markup.Faults

/-!
Why reading a syntax tree fails. Every error is raised at a value that is due where it stands, and what
it says of that value is so; what was looked at before has been found in order.
-/
namespace Caption

/-- Whether reading a value in a role ends with an error. -/
def Role.Fails : Role → Json → DecodeError → Prop
  | .kept, _, _ => False
  | .node, value, error => Node.decode value = .error error
  | .opening, value, error => Node.decodeOpening value = .error error
  | .closing, value, error => Node.decodeClosing value = .error error
  | .program, value, error => SourceFile.decodeInner value = .error error
  | .root, value, error => SourceFile.decode value = .error error

namespace Members

variable {members : Members} {kind field : String} {error : DecodeError}

theorem get?_of_find? {found : { value : Json // sizeOf value < sizeOf members }}
    (given : members.find? field = some found) : members.get? field = some found.1 := by
  rw [← find?_val, given]
  rfl

theorem require_eq_error (failed : members.require kind field = .error error) :
    members.get? field = none ∧ error = .missingField kind field := by
  rw [require] at failed
  split at failed
  · rename_i missing
    rw [← find?_val, missing]
    exact ⟨rfl, (Except.error.inj failed).symm⟩
  · cases failed

theorem require_bind_eq_error {α : Type} {expected : String}
    {next : { value : Json // sizeOf value < sizeOf members } → Except DecodeError α}
    (tells : ∀ found, next found = .error error → found.1.kindName ≠ expected ∧
      error = .unexpectedShape kind field expected found.1.kindName)
    (failed : (members.require kind field >>= next) = .error error) :
    (members.get? field = none ∧ error = .missingField kind field) ∨
      ∃ value, members.get? field = some value ∧ value.kindName ≠ expected ∧
        error = .unexpectedShape kind field expected value.kindName := by
  rcases Except.bind_eq_error.mp failed with missing | ⟨⟨value, fits⟩, given, wrong⟩
  · exact .inl (require_eq_error missing)
  · exact .inr ⟨value, get?_of_require given, tells ⟨value, fits⟩ wrong⟩

theorem requireArray_eq_error (failed : members.requireArray kind field = .error error) :
    (members.get? field = none ∧ error = .missingField kind field) ∨
      ∃ value, members.get? field = some value ∧ value.kindName ≠ "array" ∧
        error = .unexpectedShape kind field "array" value.kindName := by
  refine require_bind_eq_error (fun ⟨value, fits⟩ wrong => ?_) failed
  cases value with
  | array items => cases wrong
  | _ => exact ⟨by simp [Json.kindName], (Except.error.inj wrong).symm⟩

theorem requireString_eq_error (failed : members.requireString kind field = .error error) :
    (members.get? field = none ∧ error = .missingField kind field) ∨
      ∃ value, members.get? field = some value ∧ value.kindName ≠ "string" ∧
        error = .unexpectedShape kind field "string" value.kindName := by
  refine require_bind_eq_error (fun ⟨value, fits⟩ wrong => ?_) failed
  cases value with
  | string text => cases wrong
  | _ => exact ⟨by simp [Json.kindName], (Except.error.inj wrong).symm⟩

theorem flag_eq_error (failed : members.flag kind field = .error error) :
    ∃ value, members.get? field = some value ∧ value.kindName ≠ "boolean" ∧
      error = .unexpectedShape kind field "boolean" value.kindName := by
  rw [flag] at failed
  split at failed
  · cases failed
  · cases failed
  · rename_i value notFlag given
    refine ⟨value, given, ?_, (Except.error.inj failed).symm⟩
    cases value with
    | bool value => exact absurd rfl (notFlag value)
    | _ => simp [Json.kindName]

theorem typeName_eq_error (failed : members.typeName = .error error) :
    (members.get? "type" = none ∧ error = .notANode "object without `type`") ∨
      ∃ value, members.get? "type" = some value ∧ value.kindName ≠ "string" ∧
        error = .unexpectedShape "node" "type" "string" value.kindName := by
  rw [typeName] at failed
  split at failed
  · rename_i missing
    exact .inl ⟨missing, (Except.error.inj failed).symm⟩
  · cases failed
  · rename_i value notText given
    refine .inr ⟨value, given, ?_, (Except.error.inj failed).symm⟩
    cases value with
    | string text => exact absurd rfl (notText text)
    | _ => simp [Json.kindName]

end Members

namespace Node

variable {error : DecodeError} {value : Json}

theorem hasType_of_decode {node : Node} (read : decode value = .ok node) :
    value.HasType node.kindName := by
  obtain ⟨members, rfl, readable⟩ := decode_eq_ok.mp read
  cases node <;> exact readable.1

theorem kindName_ne_of_decode {node : Node} (read : decode value = .ok node)
    (other : ∀ text, node ≠ .literal text) : node.kindName ≠ "StringLiteral" := by
  obtain ⟨members, rfl, readable⟩ := decode_eq_ok.mp read
  cases node with
  | literal text => exact absurd rfl (other text)
  | other kind fields =>
    intro same
    have own := Kind.ofName_eq_other.mp readable.2.1
    exact own (by simp [show kind = "StringLiteral" from same, Kind.typedNames])
  | _ => simp [kindName, kind, Kind.name]

theorem decodeAll_eq_error : {items : List Json} → decodeAll items = .error error →
    ∃ item ∈ items, decode item = .error error
  | [], failed => by
    rw [decodeAll] at failed
    cases failed
  | item :: rest, failed => by
    rw [decodeAll] at failed
    rcases Except.bind_eq_error.mp failed with first | ⟨node, _, later⟩
    · exact ⟨item, List.mem_cons_self, first⟩
    · rcases Except.bind_eq_error.mp later with others | ⟨nodes, _, made⟩
      · obtain ⟨found, listed, inner⟩ := decodeAll_eq_error others
        exact ⟨found, List.mem_cons_of_mem item listed, inner⟩
      · cases made

theorem decodeOptional_eq_error (failed : decodeOptional value = .error error) :
    value ≠ .null ∧ decode value = .error error := by
  unfold decodeOptional at failed
  split at failed
  · cases failed
  · rename_i given
    rcases Except.bind_eq_error.mp failed with inner | ⟨node, _, made⟩
    · exact ⟨given, inner⟩
    · cases made

mutual

/-- Reading a field fails at an object with a type, in lists of any depth. -/
theorem decodeField_eq_error : (value : Json) → decodeField value = .error error →
    ∃ found type, Json.Within found value ∧ found.HasType type ∧ decode found = .error error
  | .array items, failed => by
    rw [decodeField] at failed
    rcases Except.bind_eq_error.mp failed with inner | ⟨fields, _, made⟩
    · obtain ⟨item, listed, found, type, within, typed, wrong⟩ := decodeItems_eq_error items inner
      exact ⟨found, type, .item listed within, typed, wrong⟩
    · cases made
  | .object members, failed => by
    rw [decodeField] at failed
    split at failed
    · rename_i type named
      rcases Except.bind_eq_error.mp failed with inner | ⟨node, _, made⟩
      · exact ⟨.object members, type, .self, named, inner⟩
      · cases made
    · cases failed
  | .null, failed | .bool _, failed | .number _, failed | .string _, failed => by
    rw [decodeField] at failed
    · cases failed
    all_goals simp

theorem decodeItems_eq_error : (items : List Json) → decodeItems items = .error error →
    ∃ item ∈ items, ∃ found type, Json.Within found item ∧ found.HasType type ∧
      decode found = .error error
  | [], failed => by
    rw [decodeItems] at failed
    cases failed
  | item :: rest, failed => by
    rw [decodeItems] at failed
    rcases Except.bind_eq_error.mp failed with first | ⟨field, _, later⟩
    · exact ⟨item, List.mem_cons_self, decodeField_eq_error item first⟩
    · rcases Except.bind_eq_error.mp later with others | ⟨fields, _, made⟩
      · obtain ⟨found, listed, inner⟩ := decodeItems_eq_error rest others
        exact ⟨found, List.mem_cons_of_mem item listed, inner⟩
      · cases made

end

theorem decodeFields_eq_error : {members : Members} → decodeFields members = .error error →
    ∃ member ∈ members, decodeField member.2 = .error error
  | [], failed => by
    rw [decodeFields] at failed
    cases failed
  | (name, value) :: rest, failed => by
    rw [decodeFields] at failed
    rcases Except.bind_eq_error.mp failed with first | ⟨field, _, later⟩
    · exact ⟨(name, value), List.mem_cons_self, first⟩
    · rcases Except.bind_eq_error.mp later with others | ⟨fields, _, made⟩
      · obtain ⟨found, listed, inner⟩ := decodeFields_eq_error others
        exact ⟨found, List.mem_cons_of_mem _ listed, inner⟩
      · cases made

end Node

namespace Json

section Steps

/-! Looking at one member of an object that is due where it stands: either that fails for a defect, or
what comes afterwards fails. -/

variable {whole : Json} {role : Role} {members : Members} {kind field : String} {error : DecodeError}

theorem namesDefect_or_next_of_typeName {β : Type} {next : String → Except DecodeError β}
    (due : whole.Due role (.object members))
    (failed : (members.typeName >>= next) = .error error) :
    error.NamesDefect whole ∨
      ∃ kind, members.get? "type" = some (.string kind) ∧ next kind = .error error := by
  rcases Except.bind_eq_error.mp failed with unnamed | ⟨kind, named, later⟩
  · rcases Members.typeName_eq_error unnamed with ⟨absent, rfl⟩ | ⟨value, given, other, rfl⟩
    · exact .inl (.untyped due absent)
    · exact .inl (.type due given other)
  · exact .inr ⟨kind, Members.typeName_eq_ok.mp named, later⟩

variable (due : whole.Due role (.object members)) (typed : members.get? "type" = some (.string kind))
  (below : ∀ {inner : Role} {smaller : Json}, sizeOf smaller < sizeOf members →
    whole.Due inner smaller → inner.Fails smaller error → error.NamesDefect whole)

include due typed

theorem namesDefect_of_text (asked : (field, .text) ∈ role.demands kind)
    (failed : members.requireString kind field = .error error) : error.NamesDefect whole := by
  rcases Members.requireString_eq_error failed with ⟨absent, rfl⟩ | ⟨value, given, other, rfl⟩
  · exact .missing due typed asked rfl absent
  · exact .shape due typed asked rfl given other

theorem namesDefect_of_flag (asked : (field, .flag) ∈ role.demands kind)
    (failed : members.flag kind field = .error error) : error.NamesDefect whole := by
  obtain ⟨value, given, other, rfl⟩ := Members.flag_eq_error failed
  exact .shape due typed asked rfl given other

include below

theorem namesDefect_or_next_of_part {α β : Type} {read : Json → Except DecodeError α}
    {next : α → Except DecodeError β} {inner : Role} (demand : Demand)
    (asked : (field, demand) ∈ role.demands kind) (required : demand.isRequired = true)
    (taken : demand.role? = some inner)
    (fails : ∀ value, read value = .error error → inner.Fails value error)
    (failed : (members.require kind field >>= fun found => read found.1 >>= next) = .error error) :
    error.NamesDefect whole ∨ ∃ part, members.Holds read field part ∧ next part = .error error := by
  rcases Except.bind_eq_error.mp failed with missing | ⟨⟨value, fits⟩, found, later⟩
  · obtain ⟨absent, rfl⟩ := Members.require_eq_error missing
    exact .inl (.missing due typed asked required absent)
  · have given := Members.get?_of_require found
    rcases Except.bind_eq_error.mp later with wrong | ⟨part, made, rest⟩
    · refine .inl (below fits (.part due typed asked taken given fun optional => ?_) (fails value wrong))
      rw [required] at optional
      cases optional
    · exact .inr ⟨part, ⟨value, given, made⟩, rest⟩

theorem namesDefect_or_next_of_nodes {β : Type} {next : List Node → Except DecodeError β}
    (asked : (field, .nodes) ∈ role.demands kind)
    (failed : (members.requireArray kind field >>= fun found => Node.decodeAll found.1 >>= next) =
      .error error) :
    error.NamesDefect whole ∨ ∃ nodes, next nodes = .error error := by
  rcases Except.bind_eq_error.mp failed with missing | ⟨⟨items, fits⟩, found, later⟩
  · rcases Members.requireArray_eq_error missing with ⟨absent, rfl⟩ | ⟨value, given, other, rfl⟩
    · exact .inl (.missing due typed asked rfl absent)
    · exact .inl (.shape due typed asked rfl given other)
  · have given := Members.get?_of_requireArray found
    rcases Except.bind_eq_error.mp later with wrong | ⟨nodes, made, rest⟩
    · obtain ⟨item, listed, inner⟩ := Node.decodeAll_eq_error wrong
      have smaller := Nat.lt_trans (List.sizeOf_lt_of_mem listed) fits
      exact .inl (below smaller (.item due typed asked given listed) inner)
    · exact .inr ⟨nodes, rest⟩

theorem namesDefect_of_optional {inner : Role} {value : Json} (demand : Demand)
    (asked : (field, demand) ∈ role.demands kind) (taken : demand.role? = some inner)
    (given : members.get? field = some value) (present : value ≠ .null)
    (failed : inner.Fails value error) : error.NamesDefect whole :=
  below (Members.sizeOf_lt_of_get? given) (.part due typed asked taken given fun _ => present) failed

end Steps

section Kinds

variable {whole : Json} {members : Members} {error : DecodeError}
  (due : whole.Due .node (.object members))
  (below : ∀ {inner : Role} {smaller : Json}, sizeOf smaller < sizeOf members →
    whole.Due inner smaller → inner.Fails smaller error → error.NamesDefect whole)
  (failed : Node.decode (.object members) = .error error)

include due below failed

theorem namesDefect_of_importDeclaration
    (typed : members.get? "type" = some (.string "ImportDeclaration")) : error.NamesDefect whole := by
  have kind : Kind.ofName "ImportDeclaration" = .importDeclaration := rfl
  rw [Node.decode, Members.typeName_eq_ok.mpr typed] at failed
  simp only [Except.ok_bind, kind] at failed
  rcases namesDefect_or_next_of_nodes due typed below (by decide) failed with told | ⟨_, later⟩
  · exact told
  rcases namesDefect_or_next_of_part due typed below .literal (by decide) rfl rfl (fun _ wrong => wrong)
    later with told | ⟨found, ⟨value, given, made⟩, wrong⟩
  · exact told
  cases found with
  | literal text => cases wrong
  | _ =>
    obtain rfl := Except.error.inj wrong
    exact .literal due typed (by decide) given (Node.hasType_of_decode made)
      (Node.kindName_ne_of_decode made fun _ same => by cases same)

theorem namesDefect_of_importSpecifier
    (typed : members.get? "type" = some (.string "ImportSpecifier")) : error.NamesDefect whole := by
  have kind : Kind.ofName "ImportSpecifier" = .importSpecifier := rfl
  rw [Node.decode, Members.typeName_eq_ok.mpr typed] at failed
  simp only [Except.ok_bind, kind] at failed
  rcases namesDefect_or_next_of_part due typed below (.part .node) (by decide) rfl rfl
    (fun _ wrong => wrong) failed with told | ⟨_, _, later⟩
  · exact told
  rcases namesDefect_or_next_of_part due typed below (.part .node) (by decide) rfl rfl
    (fun _ wrong => wrong) later with told | ⟨_, _, done⟩
  · exact told
  · cases done

theorem namesDefect_of_element
    (typed : members.get? "type" = some (.string "JSXElement")) : error.NamesDefect whole := by
  have kind : Kind.ofName "JSXElement" = .element := rfl
  rw [Node.decode, Members.typeName_eq_ok.mpr typed] at failed
  simp only [Except.ok_bind, kind] at failed
  rcases namesDefect_or_next_of_part due typed below (.part .opening) (by decide) rfl rfl
    (fun _ wrong => wrong) failed with told | ⟨opening, _, later⟩
  · exact told
  have inside {closing : Closing} {extra : Members}
      (further : (members.requireArray "JSXElement" "children" >>= fun found =>
        Node.decodeAll found.1 >>= fun children =>
          pure (Node.element opening closing children extra)) = .error error) :
      error.NamesDefect whole := by
    rcases namesDefect_or_next_of_nodes due typed below (by decide) further with told | ⟨_, done⟩
    · exact told
    · cases done
  cases found : members.find? "closingElement" with
  | none =>
    rw [found] at later
    exact inside later
  | some last =>
    rw [found] at later
    rcases Except.bind_eq_error.mp later with wrong | ⟨closing, _, further⟩
    · -- A closing tag that is null is none, so that what failed is due there.
      refine namesDefect_of_optional due typed below (.optional .closing) (by decide) rfl
        (Members.get?_of_find? found) (fun empty => ?_) wrong
      rw [empty, Node.decodeClosing] at wrong
      cases wrong
    · exact inside further

theorem namesDefect_of_attr
    (typed : members.get? "type" = some (.string "JSXAttribute")) : error.NamesDefect whole := by
  have kind : Kind.ofName "JSXAttribute" = .attr := rfl
  rw [Node.decode, Members.typeName_eq_ok.mpr typed] at failed
  simp only [Except.ok_bind, kind] at failed
  rcases namesDefect_or_next_of_part due typed below (.part .node) (by decide) rfl rfl
    (fun _ wrong => wrong) failed with told | ⟨name, _, later⟩
  · exact told
  cases found : members.find? "value" with
  | none =>
    rw [found] at later
    cases later
  | some content =>
    rw [found] at later
    rcases Except.bind_eq_error.mp later with wrong | ⟨_, _, done⟩
    · obtain ⟨present, inner⟩ := Node.decodeOptional_eq_error wrong
      exact namesDefect_of_optional due typed below (.optional .node) (by decide) rfl
        (Members.get?_of_find? found) present inner
    · cases done

theorem namesDefect_of_container
    (typed : members.get? "type" = some (.string "JSXExpressionContainer")) :
    error.NamesDefect whole := by
  have kind : Kind.ofName "JSXExpressionContainer" = .container := rfl
  rw [Node.decode, Members.typeName_eq_ok.mpr typed] at failed
  simp only [Except.ok_bind, kind] at failed
  rcases namesDefect_or_next_of_part due typed below (.part .node) (by decide) rfl rfl
    (fun _ wrong => wrong) failed with told | ⟨_, _, done⟩
  · exact told
  · cases done

theorem namesDefect_of_other {name : String} (typed : members.get? "type" = some (.string name))
    (kind : Kind.ofName name = .other name) : error.NamesDefect whole := by
  rw [Node.decode, Members.typeName_eq_ok.mpr typed] at failed
  simp only [Except.ok_bind, kind] at failed
  rcases Except.bind_eq_error.mp failed with wrong | ⟨_, _, done⟩
  · obtain ⟨member, kept, inner⟩ := Node.decodeFields_eq_error wrong
    obtain ⟨found, type, within, named, deepest⟩ := Node.decodeField_eq_error member.2 inner
    rw [Members.without_type] at kept
    obtain ⟨listed, apart⟩ := List.mem_filter.mp kept
    refine below ?_ (.field due typed (Kind.ofName_eq_other.mp kind) listed (by simpa using apart)
      within named) deepest
    have outer := List.sizeOf_lt_of_mem listed
    have smaller := sizeOf_le_of_within within
    obtain ⟨key, value⟩ := member
    simp only [Prod.mk.sizeOf_spec] at outer smaller
    omega
  · cases done

/-- The error of reading a node names a defect if the errors of reading what is smaller do. -/
theorem namesDefect_of_decode : error.NamesDefect whole := by
  have started := failed
  rw [Node.decode] at started
  rcases namesDefect_or_next_of_typeName due started with told | ⟨name, typed, later⟩
  · exact told
  have spelled := Kind.name_ofName name
  cases kind : Kind.ofName name <;> rw [kind] at spelled later <;> subst spelled
  case importDeclaration => exact namesDefect_of_importDeclaration due below failed typed
  case importSpecifier => exact namesDefect_of_importSpecifier due below failed typed
  case element => exact namesDefect_of_element due below failed typed
  case attr => exact namesDefect_of_attr due below failed typed
  case container => exact namesDefect_of_container due below failed typed
  case other => exact namesDefect_of_other due below failed typed kind
  all_goals
    rcases Except.bind_eq_error.mp later with wrong | ⟨_, _, done⟩
    · exact namesDefect_of_text due typed (by decide) wrong
    · cases done

end Kinds

section Shells

/-! What surrounds the nodes: tags, programs and files. -/

variable {whole : Json} {members : Members} {error : DecodeError}
  (below : ∀ {inner : Role} {smaller : Json}, sizeOf smaller < sizeOf members →
    whole.Due inner smaller → inner.Fails smaller error → error.NamesDefect whole)

include below

theorem namesDefect_of_opening (due : whole.Due .opening (.object members))
    (failed : Node.decodeOpening (.object members) = .error error) : error.NamesDefect whole := by
  rw [Node.decodeOpening] at failed
  rcases namesDefect_or_next_of_typeName due failed with told | ⟨kind, typed, started⟩
  · exact told
  rcases namesDefect_or_next_of_part due typed below (.part .node) (by simp [Role.demands]) rfl rfl
    (fun _ wrong => wrong) started with told | ⟨_, _, later⟩
  · exact told
  rcases namesDefect_or_next_of_nodes due typed below (by simp [Role.demands]) later with
    told | ⟨_, further⟩
  · exact told
  rcases Except.bind_eq_error.mp further with wrong | ⟨_, _, done⟩
  · exact namesDefect_of_flag due typed (by simp [Role.demands]) wrong
  · cases done

theorem namesDefect_of_closing (due : whole.Due .closing (.object members))
    (failed : Node.decodeClosing (.object members) = .error error) : error.NamesDefect whole := by
  rw [Node.decodeClosing] at failed
  rcases namesDefect_or_next_of_typeName due failed with told | ⟨kind, typed, started⟩
  · exact told
  rcases namesDefect_or_next_of_part due typed below (.part .node) (by simp [Role.demands]) rfl rfl
    (fun _ wrong => wrong) started with told | ⟨_, _, done⟩
  · exact told
  · cases done

theorem namesDefect_of_program (due : whole.Due .program (.object members))
    (typed : members.get? "type" = some (.string "Program"))
    (failed : Program.decode members = .error error) : error.NamesDefect whole := by
  rw [Program.decode] at failed
  rcases namesDefect_or_next_of_nodes due typed below (by simp [Role.demands]) failed with
    told | ⟨_, done⟩
  · exact told
  · cases done

theorem namesDefect_of_inner (due : whole.Due .program (.object members))
    (failed : SourceFile.decodeInner (.object members) = .error error) :
    error.NamesDefect whole := by
  rw [SourceFile.decodeInner] at failed
  rcases namesDefect_or_next_of_typeName due failed with told | ⟨kind, typed, started⟩
  · exact told
  split at started
  · rename_i program
    exact namesDefect_of_program below due (program ▸ typed) started
  · rename_i other
    obtain rfl := Except.error.inj started
    -- The error speaks of a file, and nothing but the program of the outermost one is due here.
    rcases due.of_program with program | ⟨outer, same, file, given⟩
    · exact absurd (Members.eq_of_get?_string typed program) other
    · exact .program same file given typed other

theorem namesDefect_of_root (due : whole.Due .root (.object members))
    (failed : SourceFile.decode (.object members) = .error error) : error.NamesDefect whole := by
  rw [SourceFile.decode] at failed
  rcases namesDefect_or_next_of_typeName due failed with told | ⟨kind, typed, started⟩
  · exact told
  split at started
  · rename_i file
    subst file
    rcases namesDefect_or_next_of_part due typed below (.part .program) (by simp [Role.demands]) rfl
      rfl (fun _ wrong => wrong) started with told | ⟨_, _, done⟩
    · exact told
    · cases done
  · rename_i file
    split at started
    · rename_i program
      subst program
      rcases Except.bind_eq_error.mp started with wrong | ⟨_, _, done⟩
      · exact namesDefect_of_program below (.bare due typed) typed wrong
      · cases done
    · rename_i program
      obtain rfl := Except.error.inj started
      obtain rfl := due.eq_whole
      exact .root typed file program

end Shells

/-- What is no object is told by its kind, in every role. -/
theorem eq_notANode_of_fails {role : Role} {value : Json} {error : DecodeError}
    (other : ∀ members, value ≠ .object members) (failed : role.Fails value error) :
    error = .notANode value.kindName := by
  cases value with
  | object members => exact absurd rfl (other members)
  | _ =>
    cases role <;> simp [Role.Fails, Node.decode, Node.decodeOpening, Node.decodeClosing,
      SourceFile.decodeInner, SourceFile.decode, pure, Except.pure] at failed <;> exact failed.symm

/-- Every error of reading what is due somewhere in a value names a defect of the value. -/
theorem namesDefect_of_fails {whole : Json} {error : DecodeError} (value : Json) {role : Role}
    (due : whole.Due role value) (failed : role.Fails value error) : error.NamesDefect whole := by
  have below {members : Members} (same : value = .object members) {inner : Role} {smaller : Json}
      (less : sizeOf smaller < sizeOf members) (due : whole.Due inner smaller)
      (failed : inner.Fails smaller error) : error.NamesDefect whole :=
    have : sizeOf smaller < sizeOf value := by
      rw [same, object.sizeOf_spec]
      omega
    namesDefect_of_fails smaller due failed
  cases value with
  | object members =>
    cases role with
    | kept => cases failed
    | node => exact namesDefect_of_decode due (below rfl) failed
    | opening => exact namesDefect_of_opening (below rfl) due failed
    | closing => exact namesDefect_of_closing (below rfl) due failed
    | program => exact namesDefect_of_inner (below rfl) due failed
    | root => exact namesDefect_of_root (below rfl) due failed
  | _ =>
    obtain rfl := eq_notANode_of_fails (by simp) failed
    exact .notObject due (by simp)
termination_by sizeOf value

end Json

end Caption
