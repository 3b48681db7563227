import Caption.Proofs.Description.Rewriting

/-!
The import of the wrapper. A pass keeps every import of the wrapper that it found, adds one that the
next pass finds, and nothing in that one is ever wrapped.
-/
namespace Caption

namespace Node

variable {options : Options}

theorem specifiedName?_of_isElement {imported : Node} (binding : Node) (extra : Members)
    (element : imported.isElement = true) :
    (importSpecifier imported binding extra).specifiedName? = none := by
  cases imported <;> first | rfl | simp [isElement] at element

theorem specifiedName?_described (node : Node) :
    (node.described options).specifiedName? = node.specifiedName? := by
  cases node with
  | importSpecifier imported binding extra =>
    cases imported with
    | element opening closing inside rest =>
      rw [described, specifiedName?_of_isElement _ _ (isElement_described _)]
      rfl
    | attr name value rest => cases value <;> rfl
    | _ => rfl
  | element opening closing inside extra =>
    have element : ((element opening closing inside extra).described options).isElement = true :=
      isElement_described _
    revert element
    cases (element opening closing inside extra).described options <;>
      simp [isElement, specifiedName?]
  | attr name value extra => cases value <;> rfl
  | _ => rfl

theorem bringsWrapper_of_isElement {node : Node} (element : node.isElement = true) :
    node.bringsWrapper options = false := by
  cases node <;> first | rfl | simp [isElement] at element

/-- A pass neither makes nor breaks an import of any wrapper. -/
theorem bringsWrapper_described (other : Options) (statement : Node) :
    (statement.described options).bringsWrapper other = statement.bringsWrapper other := by
  cases statement with
  | importDeclaration specifiers source extra =>
    rw [described, describedAll_eq_map, bringsWrapper, bringsWrapper, importsName, importsName,
      List.any_map]
    simp only [Function.comp_def, specifiedName?_described]
    rfl
  | element opening closing inside extra =>
    exact bringsWrapper_of_isElement (isElement_described _)
  | attr name value extra => cases value <;> rfl
  | _ => rfl

theorem bringsWrapper_newImport :
    (newImport [options.wrapper] options.importSource).bringsWrapper options = true := by
  simp [bringsWrapper, newImport, newSpecifier, importSource?, importsName, specifiedName?]

/-- Whether a statement is an import from a module with a specifier for a name, whatever the name
is bound to. -/
def Imports (name source : String) : Node → Prop
  | .importDeclaration specifiers origin _ =>
    origin.value = source ∧
      ∃ label binding extra, importSpecifier (identifier name label) binding extra ∈ specifiers
  | _ => False

theorem specifiedName?_eq_some {name : String} {specifier : Node} :
    specifier.specifiedName? = some name ↔
      ∃ label binding extra, importSpecifier (identifier name label) binding extra = specifier := by
  unfold specifiedName?
  split
  · simp [eq_comm]
  · rename_i unnamed
    simp only [reduceCtorEq, false_iff, not_exists]
    intro label binding extra same
    exact unnamed name label binding extra same.symm

theorem bringsWrapper_iff {statement : Node} :
    statement.bringsWrapper options = true ↔
      statement.Imports options.wrapper options.importSource := by
  cases statement with
  | importDeclaration specifiers origin extra =>
    simp only [bringsWrapper, importSource?, importsName, Imports, Bool.and_eq_true, beq_iff_eq,
      Option.some.injEq, List.any_eq_true, specifiedName?_eq_some]
    refine and_congr_right fun _ => ?_
    constructor
    · rintro ⟨specifier, listed, label, binding, rest, rfl⟩
      exact ⟨label, binding, rest, listed⟩
    · rintro ⟨label, binding, rest, listed⟩
      exact ⟨_, listed, label, binding, rest, rfl⟩
  | _ => simp [bringsWrapper, importSource?, importsName, Imports]

instance (name source : String) : DecidablePred (Imports name source) := fun statement =>
  let options : Options := { wrapper := name, importSource := source }
  decidable_of_iff (statement.bringsWrapper options = true) bringsWrapper_iff

theorem total_newImport {weigh : Node → Nat}
    (vanishes : ∀ node : Node, node.isElement = false → weigh node = 0) (name source : String) :
    (newImport [name] source).total weigh = 0 := by
  have plain : (identifier name []).total weigh = 0 := by
    rw [total_eq, vanishes _ rfl]
    rfl
  rw [total_eq, vanishes _ rfl]
  simp only [newImport, children, List.map_cons, List.map_nil, totalOfAll_cons, totalOfAll_nil]
  rw [total_eq, vanishes _ rfl]
  simp [newSpecifier, children, plain]

end Node

namespace Program

variable {options : Options}

/-- The import that a pass adds weighs nothing. -/
theorem totalOfAll_describedBody {weigh : Node → Nat}
    (vanishes : ∀ node : Node, node.isElement = false → weigh node = 0) (program : Program) :
    Node.totalOfAll weigh (program.describedBody options) =
      Node.totalOfAll weigh (program.body.map (Node.described options)) := by
  rw [describedBody, Node.totalOfAll_append]
  split
  · simp [Node.total_newImport vanishes]
  · simp

theorem bringsWrapper_describedBody {program : Program} (wrapped : 0 < program.wraps options) :
    (program.describedBody options).any (Node.bringsWrapper options) = true := by
  rw [describedBody, List.any_append]
  by_cases imported : program.body.any (Node.bringsWrapper options) = true
  · have kept : (program.body.map (Node.described options)).any (Node.bringsWrapper options) = true := by
      rw [List.any_map]
      simp only [Function.comp_def, Node.bringsWrapper_described]
      exact imported
    rw [kept, Bool.or_true]
  · have needed : program.needsImport options = true := decide_eq_true ⟨wrapped, imported⟩
    rw [if_pos needed]
    simp [Node.bringsWrapper_newImport]

end Program

end Caption
