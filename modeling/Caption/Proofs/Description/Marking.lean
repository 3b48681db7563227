import Caption.Proofs.Description.Described

/-!
Markers under the description pass. What the pass leaves of an attribute has the same name and is a
supported marker exactly if the attribute was, and taking off the first marker again and again takes
off the leading ones.
-/
namespace Caption

namespace Node

variable {options : Options}

theorem isElement_wrapAll (contents : List Node) {inner : Node}
    (element : inner.isElement = true) : (wrapAll options contents inner).isElement = true := by
  cases contents with
  | nil => exact element
  | cons content rest => rfl

theorem isElement_described (node : Node) :
    (node.described options).isElement = node.isElement := by
  cases node with
  | element opening closing inside extra =>
    rw [described_element]
    exact isElement_wrapAll _ rfl
  | attr name value extra => cases value <;> rfl
  | _ => rfl

theorem plainName?_of_isElement {node : Node} (element : node.isElement = true) :
    node.plainName? = none := by
  cases node <;> first | rfl | simp [isElement] at element

theorem plainName?_described (node : Node) :
    (node.described options).plainName? = node.plainName? := by
  cases node with
  | element opening closing inside extra =>
    exact plainName?_of_isElement (isElement_described _)
  | attr name value extra => cases value <;> rfl
  | _ => rfl

theorem attributeName?_of_isElement {node : Node} (element : node.isElement = true) :
    node.attributeName? = none := by
  cases node <;> first | rfl | simp [isElement] at element

theorem attributeName?_described (node : Node) :
    (node.described options).attributeName? = node.attributeName? := by
  cases node with
  | element opening closing inside extra =>
    exact attributeName?_of_isElement (isElement_described _)
  | attr name value extra =>
    cases value <;> exact plainName?_described name
  | _ => rfl

theorem exists_jsxIdentifier_of_attributeName {label : Node} {value : Option Node}
    {extra : Members} {name : String}
    (named : (attr label value extra).attributeName? = some name) :
    ∃ members, label = jsxIdentifier name members := by
  cases label <;> simp_all [attributeName?, plainName?]

theorem description?_of_isElement {value : Node} (name : Node) (extra : Members)
    (element : value.isElement = true) : (attr name (some value) extra).description? = none := by
  cases value <;> first | rfl | simp [isElement] at element

/-- The description that a marker gives is changed like any other node. -/
theorem description?_described (node : Node) :
    (node.described options).description? = node.description?.map (described options) := by
  cases node with
  | element opening closing inside extra =>
    have element : ((element opening closing inside extra).described options).isElement = true :=
      isElement_described _
    revert element
    cases (element opening closing inside extra).described options <;> simp [isElement, description?]
  | attr name value extra =>
    cases value with
    | none => rfl
    | some value =>
      cases value with
      | element opening closing inside rest =>
        rw [described, description?_of_isElement _ _ (isElement_described _)]
        rfl
      | attr other target rest => cases target <;> rfl
      | _ => rfl
  | _ => rfl

theorem isMarker_described (node : Node) :
    (node.described options).isMarker options = node.isMarker options := by
  rw [isMarker, isMarker, attributeName?_described]

theorem isSupported_described (node : Node) :
    (node.described options).isSupported = node.isSupported := by
  rw [isSupported, isSupported, description?_described, Option.isSome_map]

theorem leadingMarkers_map (attributes : List Node) :
    leadingMarkers options (attributes.map (described options)) =
      (leadingMarkers options attributes).map (described options) := by
  rw [leadingMarkers, leadingMarkers, List.filter_map, List.takeWhile_map]
  congr 2
  · funext candidate
    exact isSupported_described candidate
  · congr 1
    funext candidate
    exact isMarker_described candidate

theorem otherAttributes_map (attributes : List Node) :
    otherAttributes options (attributes.map (described options)) =
      (otherAttributes options attributes).map (described options) := by
  induction attributes with
  | nil => rfl
  | cons candidate rest ih =>
    simp only [List.map_cons, otherAttributes, isMarker_described, isSupported_described]
    split
    · split
      · exact ih
      · rfl
    · rw [ih, List.map_cons]

theorem leadingContents_map (attributes : List Node) :
    leadingContents options (attributes.map (described options)) =
      (leadingContents options attributes).map (described options) := by
  rw [leadingContents, leadingContents, leadingMarkers_map, List.filterMap_map, List.map_filterMap]
  congr 1
  funext marker
  exact description?_described marker

/-- At an element the pass makes nested wrappers of its leading markers, and leaves the element
innermost, with its other attributes and its children changed. -/
theorem described_element_eq (opening : Opening) (closing : Closing) (inside : List Node)
    (extra : Members) :
    (element opening closing inside extra).described options =
      wrapAll options ((leadingContents options opening.attributes).map (described options))
        (element
          (opening.withAttributes
            ((otherAttributes options opening.attributes).map (described options)))
          closing (inside.map (described options)) extra) := by
  obtain ⟨name, attributes, selfClosing, rest⟩ := opening
  rw [described_element, wrapMarked]
  simp only [Opening.withAttributes, Opening.attributes]
  rw [leadingContents_map, otherAttributes_map]

/-! The first marker among some attributes decides what the leading ones are. -/

/-- Taking an attribute off splits the attributes at the first one of its name. -/
theorem takeAttribute_split {name : String} {attributes others : List Node} {taken : Node}
    (found : takeAttribute name attributes = some (taken, others)) :
    ∃ before after, attributes = before ++ taken :: after ∧ others = before ++ after ∧
      taken.attributeName? = some name ∧
      ∀ candidate ∈ before, candidate.attributeName? ≠ some name := by
  induction attributes generalizing others with
  | nil => simp [takeAttribute] at found
  | cons candidate rest ih =>
    simp only [takeAttribute] at found
    split at found
    · rename_i named
      obtain ⟨rfl, rfl⟩ : candidate = taken ∧ rest = others := by simpa using found
      exact ⟨[], rest, rfl, rfl, named, by simp⟩
    · rename_i other
      simp only [Option.map_eq_some_iff, Prod.exists, Prod.mk.injEq] at found
      obtain ⟨first, tail, inner, rfl, rfl⟩ := found
      obtain ⟨before, after, whole, left, named, earlier⟩ := ih inner
      refine ⟨candidate :: before, after, by rw [whole]; rfl, by rw [left]; rfl, named, ?_⟩
      intro item member
      rcases List.mem_cons.mp member with rfl | later
      · exact other
      · exact earlier item later

theorem takeAttribute_eq_none {name : String} {attributes : List Node}
    (untaken : takeAttribute name attributes = none) :
    ∀ candidate ∈ attributes, candidate.attributeName? ≠ some name := by
  induction attributes with
  | nil => simp
  | cons candidate rest ih =>
    simp only [takeAttribute] at untaken
    split at untaken
    · simp at untaken
    · rename_i other
      intro item member
      rcases List.mem_cons.mp member with rfl | later
      · exact other
      · exact ih (Option.map_eq_none_iff.mp untaken) item later

theorem isMarker_eq_false {candidate : Node}
    (other : candidate.attributeName? ≠ some options.marker) :
    candidate.isMarker options = false := by
  simpa [isMarker] using other

theorem leadingMarkers_append {before : List Node} (after : List Node)
    (unmarked : ∀ candidate ∈ before, candidate.attributeName? ≠ some options.marker) :
    leadingMarkers options (before ++ after) = leadingMarkers options after := by
  have skipped : before.filter (isMarker options) = [] := by
    apply List.filter_eq_nil_iff.mpr
    intro candidate member
    simp [isMarker_eq_false (unmarked candidate member)]
  rw [leadingMarkers, List.filter_append, skipped]
  rfl

theorem otherAttributes_append {before : List Node} (after : List Node)
    (unmarked : ∀ candidate ∈ before, candidate.attributeName? ≠ some options.marker) :
    otherAttributes options (before ++ after) = before ++ otherAttributes options after := by
  induction before with
  | nil => rfl
  | cons candidate rest ih =>
    have first := isMarker_eq_false (unmarked candidate List.mem_cons_self)
    simp [otherAttributes, first, ih fun item member => unmarked item (List.mem_cons_of_mem _ member)]

theorem leadingMarkers_of_untaken {attributes : List Node}
    (untaken : takeAttribute options.marker attributes = none) :
    leadingMarkers options attributes = [] := by
  have skipped := leadingMarkers_append [] (takeAttribute_eq_none untaken)
  rw [List.append_nil] at skipped
  exact skipped

theorem leadingMarkers_of_taken {attributes others : List Node} {marker : Node}
    (taken : takeAttribute options.marker attributes = some (marker, others)) :
    leadingMarkers options attributes =
      if marker.isSupported then marker :: leadingMarkers options others else [] := by
  obtain ⟨before, after, rfl, rfl, named, unmarked⟩ := takeAttribute_split taken
  have marked : marker.isMarker options = true := by simpa [isMarker] using named
  rw [leadingMarkers_append _ unmarked, leadingMarkers_append _ unmarked, leadingMarkers,
    List.filter_cons_of_pos marked, List.takeWhile_cons]
  rfl

theorem otherAttributes_of_taken {attributes others : List Node} {marker : Node}
    (taken : takeAttribute options.marker attributes = some (marker, others))
    (supported : marker.isSupported = true) :
    otherAttributes options attributes = otherAttributes options others := by
  obtain ⟨before, after, rfl, rfl, named, unmarked⟩ := takeAttribute_split taken
  have marked : marker.isMarker options = true := by simpa [isMarker] using named
  rw [otherAttributes_append _ unmarked, otherAttributes_append _ unmarked, otherAttributes,
    if_pos marked, if_pos supported]

/-- If there is a leading marker, the first marker is one. -/
theorem taken_of_leading {attributes : List Node}
    (leading : leadingMarkers options attributes ≠ []) :
    ∃ marker others content,
      takeAttribute options.marker attributes = some (marker, others) ∧
        marker.description? = some content := by
  cases taken : takeAttribute options.marker attributes with
  | none => exact absurd (leadingMarkers_of_untaken taken) leading
  | some found =>
    obtain ⟨marker, others⟩ := found
    cases resolved : marker.description? with
    | none =>
      have unsupported : marker.isSupported = false := by rw [isSupported, resolved]; rfl
      rw [leadingMarkers_of_taken taken, unsupported] at leading
      exact absurd rfl leading
    | some content => exact ⟨marker, others, content, rfl, resolved⟩

theorem otherAttributes_of_no_leading {attributes : List Node}
    (empty : leadingMarkers options attributes = []) :
    otherAttributes options attributes = attributes := by
  induction attributes with
  | nil => rfl
  | cons candidate rest ih =>
    simp only [leadingMarkers, List.filter_cons] at empty
    by_cases marked : candidate.isMarker options = true
    · have unsupported : candidate.isSupported = false := by
        simpa [marked, List.takeWhile_cons] using empty
      simp [otherAttributes, marked, unsupported]
    · have later : leadingMarkers options rest = [] := by simpa [marked, leadingMarkers] using empty
      simp [otherAttributes, marked, ih later]

/-- An element without leading markers is changed like any other node. -/
theorem described_of_no_leading {opening : Opening} {closing : Closing} {inside : List Node}
    {extra : Members} (empty : leadingMarkers options opening.attributes = []) :
    (element opening closing inside extra).described options =
      (element opening closing inside extra).mapChildren (described options) := by
  obtain ⟨name, attributes, selfClosing, rest⟩ := opening
  rw [described_element_eq, leadingContents, empty, otherAttributes_of_no_leading empty]
  simp [wrapAll, mapChildren, withChildren, children, Opening.attributes, Opening.withAttributes]

end Node

end Caption
