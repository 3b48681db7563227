import Caption.Proofs.Description.Repetition

/-!
What a pass reports, read off the elements of the program it was given, and how it changes their
number.
-/
namespace Caption

namespace Node

variable {options : Options}

theorem wrapsAt_eq_length (node : Node) :
    node.wrapsAt options = (leadingMarkers options node.attributes).length := by
  cases node <;> rfl

theorem skipsAt_eq_toNat (node : Node) :
    node.skipsAt options = (keepsMarker options node.attributes).toNat := by
  cases node <;> rfl

/-- Weights that only elements have are those of the elements together. -/
theorem totalOfAll_eq_sum_elements {weigh : Node → Nat}
    (vanishes : ∀ node : Node, node.isElement = false → weigh node = 0) (nodes : List Node) :
    totalOfAll weigh nodes = (((nodes.flatMap subtree).filter isElement).map weigh).sum := by
  rw [totalOfAll_eq_sum]
  induction nodes.flatMap subtree with
  | nil => rfl
  | cons head rest ih =>
    rw [List.map_cons, List.sum_cons, ih, List.filter_cons]
    split
    · rfl
    · rename_i plain
      rw [vanishes head (by simpa using plain), Nat.zero_add]

end Node

namespace Program

variable {options : Options}

theorem length_elements (program : Program) :
    program.elements.length = Node.totalOfAll Node.elementsAt program.body := by
  rw [Node.totalOfAll_eq_sum, elements]
  induction program.body.flatMap Node.subtree with
  | nil => rfl
  | cons head rest ih =>
    rw [List.map_cons, List.sum_cons, ← ih]
    by_cases element : head.isElement = true
    · rw [Node.elementsAt_of_isElement element, List.filter_cons_of_pos element, List.length_cons]
      exact Nat.add_comm _ 1
    · rw [Node.elementsAt_of_not_isElement (by simpa using element), List.filter_cons_of_neg element,
        Nat.zero_add]

theorem wraps_eq_sum (program : Program) :
    program.wraps options =
      (program.elements.map fun element =>
        (Node.leadingMarkers options element.attributes).length).sum := by
  rw [wraps, Node.totalOfAll_eq_sum_elements fun _ => Node.wrapsAt_of_not_element, elements]
  simp only [Node.wrapsAt_eq_length]

theorem skips_eq_countP (program : Program) :
    program.skips options =
      program.elements.countP fun element => Node.keepsMarker options element.attributes := by
  rw [skips, Node.totalOfAll_eq_sum_elements fun _ => Node.skipsAt_of_not_element, ← elements]
  induction program.elements with
  | nil => rfl
  | cons head rest ih =>
    rw [List.map_cons, List.sum_cons, ih, List.countP_cons, Node.skipsAt_eq_toNat, Nat.add_comm]
    cases Node.keepsMarker options head.attributes <;> rfl

/-- A pass adds one element for each wrapper, and none with the import. -/
theorem length_elements_describe (program : Program) :
    (program.describe options).1.elements.length =
      program.elements.length + program.wraps options := by
  rw [length_elements, describe_eq,
    totalOfAll_describedBody fun _ => Node.elementsAt_of_not_isElement,
    Node.totalOfAll_elementsAt_described, length_elements, wraps]

theorem describe_fst_of_unwrapped {program : Program} (unwrapped : program.wraps options = 0) :
    (program.describe options).1 = program := by
  have settled : program.needsImport options = false := by simp [needsImport, unwrapped]
  exact (describe_fst_eq_self_iff settled).mpr unwrapped

theorem needsImport_eq_true {program : Program} :
    program.needsImport options = true ↔
      0 < program.wraps options ∧
        ∀ statement ∈ program.body,
          ¬statement.Imports options.wrapper options.importSource := by
  simp only [needsImport, decide_eq_true_eq, List.any_eq_true, Node.bringsWrapper_iff, not_exists,
    not_and]

/-- A pass reports what is in the program it is given: it makes a wrapper for each leading marker of
an element, skips each element with a marker that cannot be a description, and adds an import just if
it makes a wrapper that no statement imports. It adds as many elements as it makes wrappers, and
without any it changes nothing, so that each marker it skips stays in its place. -/
theorem describe_reports_elements (options : Options) (program : Program) :
    let described := program.describe options
    described.2.wrapped =
        (program.elements.map fun element =>
          ((element.attributes.filter (Node.isMarker options)).takeWhile
            Node.isSupported).length).sum ∧
      described.2.skipped =
        program.elements.countP (fun element =>
          element.attributes.any fun candidate =>
            candidate.isMarker options && !candidate.isSupported) ∧
      (described.2.importInjected = true ↔
        0 < described.2.wrapped ∧
          ∀ statement ∈ program.body,
            ¬statement.Imports options.wrapper options.importSource) ∧
      described.1.elements.length = program.elements.length + described.2.wrapped ∧
      (described.1 ≠ program ↔ 0 < described.2.wrapped) := by
  intro described
  have reported : described.2 =
      ⟨program.wraps options, program.skips options, program.needsImport options⟩ :=
    congrArg Prod.snd (describe_eq options program)
  have grown : described.1.elements.length = program.elements.length + program.wraps options :=
    length_elements_describe program
  rw [reported]
  refine ⟨wraps_eq_sum program, skips_eq_countP program, needsImport_eq_true, grown, ?_⟩
  constructor
  · intro changed
    refine Nat.pos_of_ne_zero fun unwrapped => changed ?_
    exact describe_fst_of_unwrapped unwrapped
  · intro wrapped same
    rw [same] at grown
    simp only at wrapped
    omega

end Program

end Caption
