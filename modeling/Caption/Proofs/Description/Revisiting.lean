import Caption.Proofs.Description.Reporting
import Caption.Proofs.Markup.Visiting

/-!
How often the description pass is shown an element. A visit may hand back a larger node, in which the
element stands again with one marker less; every element is shown once for each marker that becomes a
wrapper and once more, and wrappers themselves are never shown.
-/
namespace Caption

/-- Whether a call shows a node. -/
def Call.isVisit : Call → Bool
  | .visit _ => true
  | _ => false

namespace Node

variable {options : Options}

/-- Wrapping an element leaves the same elements to be shown. -/
theorem total_elementsAt_of_taken {content marker : Node} {others : List Node} {opening : Opening}
    (closing : Closing) (inside : List Node) (extra : Members)
    (taken : takeAttribute options.marker opening.attributes = some (marker, others))
    (found : marker.description? = some content) :
    (element opening closing inside extra).total elementsAt =
      totalOfAll elementsAt
        (wrap options content
          (element (opening.withAttributes others) closing inside extra)).children := by
  have moved := total_of_taken (fun _ => elementsAt_of_not_isElement) closing inside extra
    options.contentProp taken found
  rw [elementsAt_of_isElement rfl, elementsAt_of_isElement rfl] at moved
  rw [totalOfAll_children_wrap]
  omega

/-- A marker is not much larger than the attribute that a wrapper has in its place. -/
theorem size_le_wrapperAttribute {marker content : Node} {label : String}
    (named : marker.attributeName? = some label) (found : marker.description? = some content)
    (name : String) :
    marker.size ≤ (newAttribute name (some content.asAttributeValue)).size + 1 := by
  obtain ⟨_, value, extra, rfl, given⟩ := exists_value_of_description found
  obtain ⟨members, rfl⟩ := exists_jsxIdentifier_of_attributeName named
  obtain ⟨rfl, rfl⟩ | ⟨text, rfl, rfl⟩ | ⟨rest, rfl⟩ := given
  · simp [newAttribute, jsxName, string, asAttributeValue, size]
  · simp [newAttribute, jsxName, asAttributeValue, size]
  · unfold asAttributeValue
    split
    · simp [newAttribute, jsxName, size]
    · simp only [newAttribute, jsxName, newContainer, size]
      omega

/-- An element in a wrapper is larger than it was with the marker. -/
theorem size_lt_wrap {content marker : Node} {others : List Node} {opening : Opening}
    (closing : Closing) (inside : List Node) (extra : Members)
    (taken : takeAttribute options.marker opening.attributes = some (marker, others))
    (found : marker.description? = some content) :
    (element opening closing inside extra).size <
      (wrap options content (element (opening.withAttributes others) closing inside extra)).size := by
  obtain ⟨name, attributes, selfClosing, rest⟩ := opening
  obtain ⟨_, _, _, _, named, _⟩ := takeAttribute_split taken
  have bounded := size_le_wrapperAttribute named found options.contentProp
  have whole := sizeOfAll_takeAttribute taken
  simp only [Opening.attributes] at whole
  simp only [wrap, newElement, jsxName, Node.size, Node.sizeOfAll, Opening.size, Closing.size,
    Opening.withAttributes]
  omega

/-- A visit of the pass hands back what it was given or a larger node. -/
theorem describeElement_grows (options : Options) (node : Node) (progress : Progress) :
    (describeElement options node progress).1 = node ∨
      node.size < (describeElement options node progress).1.size := by
  cases node with
  | element opening closing inside extra =>
    by_cases empty : leadingMarkers options opening.attributes = []
    · rw [Visitor.describeElement_of_no_leading empty]
      exact .inl rfl
    · obtain ⟨marker, others, content, taken, found⟩ := taken_of_leading empty
      rw [Visitor.describeElement_of_taken closing inside extra taken found]
      exact .inr (size_lt_wrap closing inside extra taken found)
  | _ => exact .inl rfl

end Node

/-- A visit is due to an element that was there or to a wrapper that is made. -/
theorem Walks.length_shown {options : Options} {nodes shown walked : List Node}
    {progress final : Progress}
    (walks : Walks (describeElement options) nodes progress shown walked final) :
    shown.length =
      Node.totalOfAll Node.elementsAt nodes + Node.totalOfAll (Node.wrapsAt options) nodes := by
  induction walks with
  | done progress => rfl
  | @element node left _ _ _ _ _ progress _ _ _ element visited down next below after =>
    rw [List.cons_append, List.length_cons, List.length_append, below, after,
      Node.totalOfAll_cons, Node.totalOfAll_cons]
    cases node with
    | element opening closing inside extra =>
      by_cases empty : Node.leadingMarkers options opening.attributes = []
      · rw [Visitor.describeElement_of_no_leading empty] at visited
        obtain ⟨rfl, rfl⟩ := Prod.mk.inj visited
        have unwrapped : Node.wrapsAt options (.element opening closing inside extra) = 0 :=
          List.length_eq_zero_iff.mpr empty
        rw [Node.total_eq Node.elementsAt, Node.total_eq (Node.wrapsAt options), unwrapped,
          Node.elementsAt_of_isElement element]
        omega
      · obtain ⟨marker, others, content, taken, found⟩ := Node.taken_of_leading empty
        rw [Visitor.describeElement_of_taken closing inside extra taken found] at visited
        obtain ⟨rfl, rfl⟩ := Prod.mk.inj visited
        rw [Node.total_elementsAt_of_taken closing inside extra taken found,
          Node.total_wrapsAt_of_taken closing inside extra taken found]
        omega
    | _ => simp [Node.isElement] at element
  | @other node _ _ _ _ _ _ _ _ plain down next below after =>
    rw [List.length_append, below, after, Node.totalOfAll_cons, Node.totalOfAll_cons,
      Node.total_eq Node.elementsAt, Node.total_eq (Node.wrapsAt options),
      Node.elementsAt_of_not_isElement plain, Node.wrapsAt_of_not_element plain]
    omega

theorem Call.countP_isVisit (shown : List Node) (first last : Program) :
    (Call.enter first :: shown.map Call.visit ++ [Call.leave last]).countP Call.isVisit =
      shown.length := by
  have each : (shown.map Call.visit).countP Call.isVisit = shown.length := by
    rw [List.countP_map]
    exact List.countP_eq_length.mpr fun _ _ => rfl
  rw [List.cons_append, List.countP_cons_of_neg (by simp [isVisit]), List.countP_append, each,
    List.countP_singleton]
  rfl

namespace Program

/-- The walk of a pass comes to an end, in one way only, although a visit may hand back a larger node:
what is below that is smaller than the node that was shown. Elements are shown once for every element
of the program and once for every wrapper that is made. -/
theorem describe_shows_elements_again (options : Options) (program : Program) :
    ∃ calls final,
      (describer options).Tours program .start calls (program.describe options).1 final ∧
        final.report = (program.describe options).2 ∧
        (∀ others left after,
          (describer options).Tours program .start others left after → others = calls) ∧
        calls.countP Call.isVisit =
          program.elements.length + (program.describe options).2.wrapped ∧
        ∀ node progress, let left := (describeElement options node progress).1
          (left = node ∨ node.size < left.size) ∧ ∀ child ∈ left.children, child.size < node.size := by
  obtain ⟨calls, tour⟩ := (describer options).exists_tours program .start
  refine ⟨calls, _, tour, rfl, fun others left after other => (other.unique tour).1, ?_,
    fun node progress =>
      ⟨Node.describeElement_grows options node progress,
        describeElement_shrinks options node progress⟩⟩
  obtain ⟨enters, walks, leaves⟩ := tour
  rw [describer_enter] at enters
  obtain ⟨rfl, rfl⟩ := Prod.mk.inj enters
  rw [Call.countP_isVisit, Walks.length_shown walks, length_elements, describe_eq]
  rfl

end Program

end Caption
