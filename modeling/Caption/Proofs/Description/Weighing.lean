import Caption.Proofs.Description.Marking

/-!
What a pass counts at a single element, and how such weights add up over a tree: taking a marker off
an element moves the weight of the marker into the wrapper.
-/
namespace Caption

namespace Node

/-- The wrappers that a pass puts around a node itself. -/
def wrapsAt (options : Options) : Node → Nat
  | .element opening _ _ _ => (leadingMarkers options opening.attributes).length
  | _ => 0

/-- Whether an element has a marker whose value cannot be a description. -/
def keepsMarker (options : Options) (attributes : List Node) : Bool :=
  attributes.any fun candidate => candidate.isMarker options && !candidate.isSupported

/-- One for an element that keeps a marker. -/
def skipsAt (options : Options) : Node → Nat
  | .element opening _ _ _ => (keepsMarker options opening.attributes).toNat
  | _ => 0

variable {options : Options}

theorem wrapsAt_of_not_element {node : Node} (plain : node.isElement = false) :
    node.wrapsAt options = 0 := by
  cases node <;> first | rfl | simp [isElement] at plain

theorem skipsAt_of_not_element {node : Node} (plain : node.isElement = false) :
    node.skipsAt options = 0 := by
  cases node <;> first | rfl | simp [isElement] at plain

theorem keepsMarker_append {before : List Node} (after : List Node)
    (unmarked : ∀ candidate ∈ before, candidate.attributeName? ≠ some options.marker) :
    keepsMarker options (before ++ after) = keepsMarker options after := by
  rw [keepsMarker, List.any_append]
  have none : (before.any fun candidate => candidate.isMarker options && !candidate.isSupported)
      = false := by
    apply List.any_eq_false.mpr
    intro candidate member
    simp [isMarker_eq_false (unmarked candidate member)]
  rw [none]
  rfl

theorem keepsMarker_of_untaken {attributes : List Node}
    (untaken : takeAttribute options.marker attributes = none) :
    keepsMarker options attributes = false := by
  have skipped := keepsMarker_append [] (takeAttribute_eq_none untaken)
  rw [List.append_nil] at skipped
  exact skipped

theorem keepsMarker_of_taken {attributes others : List Node} {marker : Node}
    (taken : takeAttribute options.marker attributes = some (marker, others)) :
    keepsMarker options attributes = (!marker.isSupported || keepsMarker options others) := by
  obtain ⟨before, after, rfl, rfl, named, unmarked⟩ := takeAttribute_split taken
  have marked : marker.isMarker options = true := by simpa [isMarker] using named
  rw [keepsMarker_append _ unmarked, keepsMarker_append _ unmarked, keepsMarker, List.any_cons,
    marked]
  rfl

section

/-! Weights that only elements have: a marker weighs as much as the description it gives, and so
does the attribute of the wrapper. -/

variable {weigh : Node → Nat} (vanishes : ∀ node : Node, node.isElement = false → weigh node = 0)
include vanishes

theorem total_jsxName (name : String) : (jsxName name).total weigh = 0 := by
  rw [total_eq, vanishes _ rfl]
  rfl

theorem total_asAttributeValue (content : Node) :
    content.asAttributeValue.total weigh = content.total weigh := by
  unfold asAttributeValue
  split
  · rfl
  · rw [total_eq, vanishes _ rfl]
    simp [newContainer, children]

theorem total_newAttribute (name : String) (value : Node) :
    (newAttribute name (some value)).total weigh = value.total weigh := by
  rw [total_eq, vanishes _ rfl]
  simp [newAttribute, children, total_jsxName vanishes]

theorem total_of_description {marker content : Node} {name : String}
    (named : marker.attributeName? = some name) (found : marker.description? = some content) :
    marker.total weigh = content.total weigh := by
  obtain ⟨label, value, extra, rfl, given⟩ := exists_value_of_description found
  obtain ⟨members, rfl⟩ := exists_jsxIdentifier_of_attributeName named
  have nameless : (jsxIdentifier name members).total weigh = 0 := by
    rw [total_eq, vanishes _ rfl]
    rfl
  rw [total_eq, vanishes _ rfl]
  obtain ⟨rfl, rfl⟩ | ⟨text, rfl, rfl⟩ | ⟨rest, rfl⟩ := given
  · rw [total_eq _ (string ""), vanishes _ rfl]
    simp [children, nameless, string]
  · simp [children, nameless]
  · simp only [children, totalOfAll_cons, totalOfAll_nil, nameless]
    rw [total_eq _ (container _ _), vanishes _ rfl]
    simp [children]

/-- Taking a marker off an element moves its weight into the attribute of the wrapper. -/
theorem total_of_taken {name : String} {content marker : Node} {others : List Node}
    {opening : Opening} (closing : Closing) (inside : List Node) (extra : Members) (prop : String)
    (taken : takeAttribute name opening.attributes = some (marker, others))
    (found : marker.description? = some content) :
    (element opening closing inside extra).total weigh +
        weigh (element (opening.withAttributes others) closing inside extra) =
      weigh (element opening closing inside extra) +
        ((newAttribute prop (some content.asAttributeValue)).total weigh +
          (element (opening.withAttributes others) closing inside extra).total weigh) := by
  obtain ⟨label, attributes, selfClosing, rest⟩ := opening
  obtain ⟨before, after, whole, left, named, _⟩ := takeAttribute_split taken
  simp only [Opening.attributes] at whole
  subst whole left
  have moved := total_of_description vanishes named found
  rw [total_newAttribute vanishes, total_asAttributeValue vanishes, total_eq, total_eq _ (element _ _ _ _)]
  simp only [children, Opening.attributes, Opening.withAttributes, totalOfAll_append,
    totalOfAll_cons, moved]
  omega

end

theorem totalOfAll_children_wrap (weigh : Node → Nat) (content inner : Node) :
    totalOfAll weigh (wrap options content inner).children =
      (newAttribute options.contentProp (some content.asAttributeValue)).total weigh +
        inner.total weigh := by
  simp [wrap, newElement, children, Opening.attributes]

/-- Taking a leading marker off an element leaves one wrapping less to be done. -/
theorem wrapsAt_of_taken {opening : Opening} {marker content : Node} {others : List Node}
    (closing : Closing) (inside : List Node) (extra : Members)
    (taken : takeAttribute options.marker opening.attributes = some (marker, others))
    (found : marker.description? = some content) :
    wrapsAt options (element opening closing inside extra) =
      1 + wrapsAt options (element (opening.withAttributes others) closing inside extra) := by
  have supported : marker.isSupported = true := by rw [isSupported, found]; rfl
  have leading := leadingMarkers_of_taken taken
  rw [if_pos supported] at leading
  cases opening
  rw [wrapsAt, wrapsAt, leading, List.length_cons, Nat.add_comm]
  rfl

/-- Taking a leading marker off an element does not change whether it is skipped. -/
theorem skipsAt_of_taken {opening : Opening} {marker content : Node} {others : List Node}
    (closing : Closing) (inside : List Node) (extra : Members)
    (taken : takeAttribute options.marker opening.attributes = some (marker, others))
    (found : marker.description? = some content) :
    skipsAt options (element opening closing inside extra) =
      skipsAt options (element (opening.withAttributes others) closing inside extra) := by
  have supported : marker.isSupported = true := by rw [isSupported, found]; rfl
  have keeps := keepsMarker_of_taken taken
  cases opening
  rw [skipsAt, skipsAt, keeps, supported]
  rfl

/-- Wrapping an element once leaves one wrapping less to be done. -/
theorem total_wrapsAt_of_taken {content marker : Node} {others : List Node} {opening : Opening}
    (closing : Closing) (inside : List Node) (extra : Members)
    (taken : takeAttribute options.marker opening.attributes = some (marker, others))
    (found : marker.description? = some content) :
    (element opening closing inside extra).total (wrapsAt options) =
      1 + totalOfAll (wrapsAt options)
        (wrap options content
          (element (opening.withAttributes others) closing inside extra)).children := by
  have vanishes : ∀ node : Node, node.isElement = false → node.wrapsAt options = 0 :=
    fun _ => wrapsAt_of_not_element
  have moved := total_of_taken vanishes closing inside extra options.contentProp taken found
  rw [wrapsAt_of_taken closing inside extra taken found] at moved
  rw [totalOfAll_children_wrap]
  omega

/-- Wrapping an element leaves the same elements to be skipped. -/
theorem total_skipsAt_of_taken {content marker : Node} {others : List Node} {opening : Opening}
    (closing : Closing) (inside : List Node) (extra : Members)
    (taken : takeAttribute options.marker opening.attributes = some (marker, others))
    (found : marker.description? = some content) :
    (element opening closing inside extra).total (skipsAt options) =
      totalOfAll (skipsAt options)
        (wrap options content
          (element (opening.withAttributes others) closing inside extra)).children := by
  have vanishes : ∀ node : Node, node.isElement = false → node.skipsAt options = 0 :=
    fun _ => skipsAt_of_not_element
  have moved := total_of_taken vanishes closing inside extra options.contentProp taken found
  rw [skipsAt_of_taken closing inside extra taken found] at moved
  rw [totalOfAll_children_wrap]
  omega

end Node

end Caption
