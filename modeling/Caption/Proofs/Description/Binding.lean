import Caption.Proofs.Description.Succession

/-!
What a wrapper's name is bound to. A pass that makes a wrapper leaves an import of the wrapper, but it
looks for one by the name that is exported: it takes an import under another local name for one, and
adds none.
-/
namespace Caption

namespace Node

variable {options : Options} {name source : String}

/-- One for an element of a name. -/
def namedAt (name : String) (node : Node) : Nat := (node.elementName? == some name).toNat

theorem namedAt_of_not_element {node : Node} (plain : node.isElement = false) :
    node.namedAt name = 0 := by
  cases node <;> first | rfl | simp [isElement] at plain

theorem namedAt_wrap (content inner : Node) :
    (wrap options content inner).namedAt name = if name = options.wrapper then 1 else 0 := by
  by_cases same : name = options.wrapper
  · simp [namedAt, wrap, newElement, elementName?, Opening.name, jsxName, plainName?, same]
  · simp [namedAt, wrap, newElement, elementName?, Opening.name, jsxName, plainName?, same,
      Ne.symm same]

theorem namedAt_withAttributes (opening : Opening) (others : List Node) (closing : Closing)
    (inside : List Node) (extra : Members) :
    (element (opening.withAttributes others) closing inside extra).namedAt name =
      (element opening closing inside extra).namedAt name := by
  cases opening
  rfl

theorem namedAt_mapChildren (opening : Opening) (closing : Closing) (inside : List Node)
    (extra : Members) :
    ((element opening closing inside extra).mapChildren (described options)).namedAt name =
      (element opening closing inside extra).namedAt name := by
  cases opening
  rfl

/-- A pass makes elements under the wrapper's name and under no other. -/
theorem total_namedAt_described (node : Node) :
    (node.described options).total (namedAt name) =
      node.total fun inner =>
        inner.namedAt name + if name = options.wrapper then inner.wrapsAt options else 0 := by
  apply total_described
  · intro node plain
    exact namedAt_of_not_element plain
  · intro node plain
    rw [namedAt_of_not_element plain, wrapsAt_of_not_element plain, ite_self]
  · intro opening marker content others closing inside extra inner taken found
    rw [namedAt_wrap, namedAt_withAttributes, wrapsAt_of_taken closing inside extra taken found]
    split <;> omega
  · intro opening closing inside extra empty
    rw [namedAt_mapChildren, wrapsAt, empty, List.length_nil, ite_self, Nat.add_zero]

/-- Whether a statement is an import from a module with a specifier that binds a name to itself. -/
def Binds (name source : String) : Node → Prop
  | .importDeclaration specifiers origin _ =>
    origin.value = source ∧
      ∃ label mark extra,
        importSpecifier (identifier name label) (identifier name mark) extra ∈ specifiers
  | _ => False

theorem Binds.isElement {statement : Node} (binds : statement.Binds name source) :
    statement.isElement = false := by
  cases statement with
  | importDeclaration specifiers origin extra => rfl
  | _ => exact binds.elim

theorem binds_newImport (name source : String) : (newImport [name] source).Binds name source :=
  ⟨rfl, [], [], [], List.mem_singleton.mpr rfl⟩

theorem described_ne_of_isElement {node other : Node} (element : node.isElement = true)
    (plain : other.isElement = false) : node.described options ≠ other := by
  rintro rfl
  rw [isElement_described, element] at plain
  cases plain

/-- A pass puts an identifier in the place of that identifier alone. -/
theorem described_eq_identifier {node : Node} {extra : Members} :
    node.described options = identifier name extra ↔ node = identifier name extra := by
  constructor
  · intro same
    cases node with
    | element opening closing inside rest => exact absurd same (described_ne_of_isElement rfl rfl)
    | attr label value rest => cases value <;> cases same
    | identifier label rest => exact same
    | _ => cases same
  · rintro rfl
    rfl

theorem described_eq_importSpecifier {node imported binding : Node} {extra : Members} :
    node.described options = importSpecifier imported binding extra ↔
      ∃ first second, node = importSpecifier first second extra ∧
        first.described options = imported ∧ second.described options = binding := by
  constructor
  · intro same
    cases node with
    | element opening closing inside rest => exact absurd same (described_ne_of_isElement rfl rfl)
    | attr label value rest => cases value <;> cases same
    | importSpecifier first second rest =>
      obtain ⟨rfl, rfl, rfl⟩ := importSpecifier.inj same
      exact ⟨first, second, rfl, rfl, rfl⟩
    | _ => cases same
  · rintro ⟨first, second, rfl, rfl, rfl⟩
    rfl

/-- A pass neither makes nor breaks a binding of a name to itself. -/
theorem binds_described (statement : Node) :
    (statement.described options).Binds name source ↔ statement.Binds name source := by
  cases statement with
  | importDeclaration specifiers origin extra =>
    rw [described, describedAll_eq_map]
    apply and_congr_right
    intro _
    simp only [List.mem_map, described_eq_importSpecifier, described_eq_identifier]
    constructor
    · rintro ⟨label, mark, rest, specifier, listed, first, second, rfl, rfl, rfl⟩
      exact ⟨label, mark, rest, listed⟩
    · rintro ⟨label, mark, rest, listed⟩
      exact ⟨label, mark, rest, _, listed, _, _, rfl, rfl, rfl⟩
  | element opening closing inside extra =>
    constructor
    · intro binds
      have plain := binds.isElement
      rw [isElement_described] at plain
      cases plain
    · exact False.elim
  | attr label value extra => cases value <;> rfl
  | _ => rfl

theorem sum_map_toNat (holds : Node → Bool) (nodes : List Node) :
    (nodes.map fun node => (holds node).toNat).sum = nodes.countP holds := by
  induction nodes with
  | nil => rfl
  | cons head rest ih =>
    rw [List.map_cons, List.sum_cons, ih, List.countP_cons, Nat.add_comm]
    cases holds head <;> rfl

end Node

namespace Program

variable {options : Options}

def namedCount (name : String) (program : Program) : Nat :=
  program.elements.countP fun element => element.elementName? == some name

theorem namedCount_eq (name : String) (program : Program) :
    program.namedCount name = Node.totalOfAll (Node.namedAt name) program.body := by
  rw [Node.totalOfAll_eq_sum_elements fun _ => Node.namedAt_of_not_element]
  exact (Node.sum_map_toNat _ _).symm

/-- The new elements are all named like the wrapper. -/
theorem namedCount_describe (name : String) (program : Program) :
    (program.describe options).1.namedCount name =
      program.namedCount name +
        if name = options.wrapper then (program.describe options).2.wrapped else 0 := by
  have weights : Node.totalOfAll (Node.namedAt name) (program.body.map (Node.described options)) =
      Node.totalOfAll (fun inner => inner.namedAt name +
        if name = options.wrapper then inner.wrapsAt options else 0) program.body := by
    apply Node.totalOfAll_map_congr
    intro node _
    exact Node.total_namedAt_described node
  rw [namedCount_eq, namedCount_eq, describe_eq,
    totalOfAll_describedBody fun _ => Node.namedAt_of_not_element, weights, Node.totalOfAll_add,
    wraps]
  congr 1
  split
  · rfl
  · apply (Node.totalOfAll_eq_zero_iff _ _).mpr
    intro node _
    exact Node.total_zero node

theorem importInjected_iff {program : Program}
    (wrapped : 0 < (program.describe options).2.wrapped) :
    (program.describe options).2.importInjected = true ↔
      ∀ statement ∈ program.body, ¬statement.Imports options.wrapper options.importSource := by
  rw [describe_eq] at wrapped ⊢
  rw [needsImport_eq_true]
  exact and_iff_right wrapped

theorem exists_imports_describe {program : Program}
    (wrapped : 0 < (program.describe options).2.wrapped) :
    ∃ statement ∈ (program.describe options).1.body,
      statement.Imports options.wrapper options.importSource := by
  rw [describe_eq] at wrapped ⊢
  obtain ⟨statement, member, imports⟩ := List.any_eq_true.mp (bringsWrapper_describedBody wrapped)
  exact ⟨statement, member, Node.bringsWrapper_iff.mp imports⟩

/-- What binds the wrapper's name after a pass is the import that the pass adds, or was there. -/
theorem exists_binds_describe (program : Program) :
    (∃ statement ∈ (program.describe options).1.body,
        statement.Binds options.wrapper options.importSource) ↔
      (program.describe options).2.importInjected = true ∨
        ∃ statement ∈ program.body, statement.Binds options.wrapper options.importSource := by
  rw [body_describe]
  constructor
  · rintro ⟨statement, member, binds⟩
    rcases List.mem_append.mp member with new | old
    · left
      split at new
      · assumption
      · cases new
    · right
      obtain ⟨before, present, rfl⟩ := List.mem_map.mp old
      exact ⟨before, present, (Node.binds_described before).mp binds⟩
  · rintro (injected | ⟨statement, present, binds⟩)
    · rw [if_pos injected]
      exact ⟨_, List.mem_append_left _ List.mem_cons_self, Node.binds_newImport _ _⟩
    · refine ⟨statement.described options, ?_, (Node.binds_described statement).mpr binds⟩
      exact List.mem_append_right _ (List.mem_map.mpr ⟨statement, present, rfl⟩)

/-- A pass that makes a wrapper makes all its new elements under the wrapper's name, and leaves an import
of the wrapper from its module. An import there binds the name itself just if the program bound it so
before, or did not import the wrapper at all: a program that imports it under other local names only is
left with these. -/
theorem describe_binds_wrapper {program : Program}
    (wrapped : 0 < (program.describe options).2.wrapped) :
    let described := program.describe options
    (∀ name, described.1.namedCount name =
        program.namedCount name + if name = options.wrapper then described.2.wrapped else 0) ∧
      (∃ statement ∈ described.1.body,
        statement.Imports options.wrapper options.importSource) ∧
      ((∃ statement ∈ described.1.body, statement.Binds options.wrapper options.importSource) ↔
        (∀ statement ∈ program.body,
            ¬statement.Imports options.wrapper options.importSource) ∨
          ∃ statement ∈ program.body,
            statement.Binds options.wrapper options.importSource) := by
  intro described
  refine ⟨?_, exists_imports_describe wrapped, ?_⟩
  · intro name
    exact namedCount_describe name program
  · rw [← importInjected_iff wrapped]
    exact exists_binds_describe program

/-- A marked element in a program that imports the wrapper under another name. -/
def aliased : Program :=
  ⟨[.importDeclaration
      [.importSpecifier (.identifier "LLMDescribe" []) (.identifier "Describe" []) []]
      ⟨"@/widgets/llm-describe", []⟩ [],
    Node.newSelfClosing "p" [Node.newStringAttribute "llm" "home"]], []⟩

/-- The wrapper of the element is named by a name that no import of the output binds. -/
theorem describe_aliased_unbound :
    (aliased.describe {}).2 = ⟨1, 0, false⟩ ∧
      (aliased.describe {}).1.namedCount "LLMDescribe" = 1 ∧
      ∀ statement ∈ (aliased.describe {}).1.body,
        ¬statement.Binds "LLMDescribe" "@/widgets/llm-describe" := by
  have reported : (aliased.describe {}).2 = ⟨1, 0, false⟩ := by
    rw [describe_eq]
    decide +kernel
  refine ⟨reported, ?_, ?_⟩
  · have before : aliased.namedCount "LLMDescribe" = 0 := by
      rw [namedCount_eq]
      decide +kernel
    rw [namedCount_describe, before, reported]
    rfl
  · intro statement member binds
    rcases (exists_binds_describe aliased).mp ⟨statement, member, binds⟩ with injected | bound
    · rw [reported] at injected
      cases injected
    · obtain ⟨before, present, bound⟩ := bound
      simp only [aliased, List.mem_cons, List.not_mem_nil, or_false] at present
      rcases present with rfl | rfl
      · obtain ⟨-, label, mark, extra, listed⟩ := bound
        simp at listed
      · exact bound

/-- A marked element in a program that imports nothing. -/
def unbound : Program := ⟨[Node.newSelfClosing "p" [Node.newStringAttribute "llm" "home"]], []⟩

/-- The pass adds the import that binds the name of the new element. -/
theorem describe_unbound_binds_wrapper :
    0 < (unbound.describe {}).2.wrapped ∧
      ∃ statement ∈ (unbound.describe {}).1.body,
        statement.Binds "LLMDescribe" "@/widgets/llm-describe" := by
  have wrapped : 0 < (unbound.describe {}).2.wrapped := by
    rw [describe_eq]
    decide +kernel
  refine ⟨wrapped, ?_⟩
  apply (describe_binds_wrapper wrapped).2.2.mpr
  left
  intro statement present
  rw [List.mem_singleton.mp present]
  exact id

end Program

end Caption
