import Caption.Proofs.Description.Rewriting

/-!
What a pass counts in its own output. Only wrappers are new, and a wrapper is marked exactly when its
attribute has the marker's name.
-/
namespace Caption

namespace Node

variable {options : Options}

/-- How a pass changes the weight of a tree, for weights that only elements have: it is enough to know
what a wrapper weighs, and what an element without leading markers weighs afterwards. -/
theorem total_described {weigh other : Node → Nat}
    (vanishes : ∀ node : Node, node.isElement = false → weigh node = 0)
    (vanishesBefore : ∀ node : Node, node.isElement = false → other node = 0)
    (wrapped : ∀ {opening : Opening} {marker content : Node} {others : List Node}
      (closing : Closing) (inside : List Node) (extra : Members) (inner : Node),
      takeAttribute options.marker opening.attributes = some (marker, others) →
      marker.description? = some content →
      weigh (wrap options (content.described options) inner) +
          other (element (opening.withAttributes others) closing inside extra) =
        other (element opening closing inside extra))
    (kept : ∀ {opening : Opening} (closing : Closing) (inside : List Node) (extra : Members),
      leadingMarkers options opening.attributes = [] →
      weigh ((element opening closing inside extra).mapChildren (described options)) =
        other (element opening closing inside extra))
    (node : Node) : (node.described options).total weigh = node.total other := by
  induction node using induction_size with
  | step node ih =>
    have own : totalOfAll weigh (node.children.map (described options)) =
        totalOfAll other node.children :=
      totalOfAll_map_congr fun child member => ih child (size_lt_of_mem_children member)
    by_cases shown : node.isElement = true
    · cases node with
      | element opening closing inside extra =>
        by_cases empty : leadingMarkers options opening.attributes = []
        · rw [described_of_no_leading empty, total_eq, total_eq, children_mapChildren, own,
            kept closing inside extra empty]
        · obtain ⟨marker, others, content, taken, found⟩ := taken_of_leading empty
          have smaller := describeElement_shrinks options (element opening closing inside extra)
            Progress.start
          rw [Visitor.describeElement_of_taken closing inside extra taken found] at smaller
          have moved := total_of_taken vanishesBefore closing inside extra options.contentProp taken
            found
          have weight := wrapped closing inside extra
            ((element (opening.withAttributes others) closing inside extra).described options) taken
            found
          have parts : totalOfAll weigh
                ((wrap options content
                  (element (opening.withAttributes others) closing inside extra)).children.map
                    (described options)) =
              totalOfAll other
                (wrap options content
                  (element (opening.withAttributes others) closing inside extra)).children :=
            totalOfAll_map_congr fun child member => ih child (smaller child member)
          rw [described_of_taken closing inside extra taken found, total_eq]
          rw [← children_mapChildren, mapChildren_wrap] at parts
          rw [parts, totalOfAll_children_wrap]
          omega
      | _ => simp [isElement] at shown
    · have plain : node.isElement = false := by simpa using shown
      have image : (node.mapChildren (described options)).isElement = false := by
        rw [← described_of_not_element plain, isElement_described]
        exact plain
      rw [described_of_not_element plain, total_eq, total_eq, children_mapChildren, own,
        vanishes _ image, vanishesBefore _ plain]

theorem isMarker_newAttribute (name : String) (value : Option Node) :
    (newAttribute name value).isMarker options = (name == options.marker) := by
  simp [isMarker, newAttribute, jsxName, attributeName?, plainName?]

theorem isSupported_wrapperAttribute (name : String) (content : Node) :
    (newAttribute name (some content.asAttributeValue)).isSupported = true := by
  cases content <;> rfl

/-- A wrapper has one marker if its attribute is named like one, and none otherwise. -/
theorem wrapsAt_wrap (content inner : Node) :
    wrapsAt options (wrap options content inner) =
      if options.contentProp = options.marker then 1 else 0 := by
  by_cases same : options.contentProp = options.marker
  · simp [wrap, newElement, wrapsAt, leadingMarkers, Opening.attributes, isMarker_newAttribute, same,
      isSupported_wrapperAttribute]
  · simp [wrap, newElement, wrapsAt, leadingMarkers, Opening.attributes, isMarker_newAttribute, same]

/-- A wrapper is never skipped, since its attribute has a value that can be a description. -/
theorem skipsAt_wrap (content inner : Node) : skipsAt options (wrap options content inner) = 0 := by
  simp [wrap, newElement, skipsAt, keepsMarker, Opening.attributes, isSupported_wrapperAttribute]

theorem keepsMarker_map (attributes : List Node) :
    keepsMarker options (attributes.map (described options)) = keepsMarker options attributes := by
  rw [keepsMarker, keepsMarker, List.any_map]
  congr 1
  funext candidate
  simp [isMarker_described, isSupported_described]

theorem wrapsAt_mapChildren (opening : Opening) (closing : Closing) (inside : List Node)
    (extra : Members) :
    wrapsAt options ((element opening closing inside extra).mapChildren (described options)) =
      wrapsAt options (element opening closing inside extra) := by
  cases opening
  simp [mapChildren, withChildren, children, wrapsAt, Opening.attributes, Opening.withAttributes,
    leadingMarkers_map]

theorem skipsAt_mapChildren (opening : Opening) (closing : Closing) (inside : List Node)
    (extra : Members) :
    skipsAt options ((element opening closing inside extra).mapChildren (described options)) =
      skipsAt options (element opening closing inside extra) := by
  cases opening
  simp [mapChildren, withChildren, children, skipsAt, Opening.attributes, Opening.withAttributes,
    keepsMarker_map]

/-- A second pass makes no wrappers if the attribute of a wrapper is not named like a marker. -/
theorem total_wrapsAt_described_of_ne (apart : options.contentProp ≠ options.marker) (node : Node) :
    (node.described options).total (wrapsAt options) = 0 := by
  rw [← total_zero node]
  refine total_described (fun _ => wrapsAt_of_not_element) (fun _ _ => rfl) ?_ ?_ node
  · intro opening marker content others closing inside extra inner taken found
    rw [wrapsAt_wrap, if_neg apart]
  · intro opening closing inside extra empty
    rw [wrapsAt_mapChildren, wrapsAt, empty, List.length_nil]

/-- A second pass makes as many wrappers again if the attribute of a wrapper is named like a
marker. -/
theorem total_wrapsAt_described_of_eq (same : options.contentProp = options.marker) (node : Node) :
    (node.described options).total (wrapsAt options) = node.total (wrapsAt options) := by
  refine total_described (fun _ => wrapsAt_of_not_element) (fun _ => wrapsAt_of_not_element) ?_ ?_ node
  · intro opening marker content others closing inside extra inner taken found
    rw [wrapsAt_wrap, if_pos same, wrapsAt_of_taken closing inside extra taken found]
  · intro opening closing inside extra empty
    exact wrapsAt_mapChildren opening closing inside extra

/-- A second pass skips as many elements again. -/
theorem total_skipsAt_described (node : Node) :
    (node.described options).total (skipsAt options) = node.total (skipsAt options) := by
  refine total_described (fun _ => skipsAt_of_not_element) (fun _ => skipsAt_of_not_element) ?_ ?_ node
  · intro opening marker content others closing inside extra inner taken found
    rw [skipsAt_wrap, skipsAt_of_taken closing inside extra taken found, Nat.zero_add]
  · intro opening closing inside extra empty
    exact skipsAt_mapChildren opening closing inside extra

/-- One for an element. -/
def elementsAt (node : Node) : Nat := node.isElement.toNat

theorem elementsAt_of_isElement {node : Node} (element : node.isElement = true) :
    node.elementsAt = 1 := by
  rw [elementsAt, element]
  rfl

theorem elementsAt_of_not_isElement {node : Node} (plain : node.isElement = false) :
    node.elementsAt = 0 := by
  rw [elementsAt, plain]
  rfl

/-- A pass adds one element for each wrapper. -/
theorem total_elementsAt_described (node : Node) :
    (node.described options).total elementsAt =
      node.total elementsAt + node.total (wrapsAt options) := by
  rw [← total_add]
  refine total_described (fun _ => elementsAt_of_not_isElement) ?_ ?_ ?_ node
  · intro node plain
    rw [elementsAt_of_not_isElement plain, wrapsAt_of_not_element plain]
  · intro opening marker content others closing inside extra inner taken found
    rw [wrapsAt_of_taken closing inside extra taken found]
    simp [elementsAt, isElement, wrap, newElement]
  · intro opening closing inside extra empty
    rw [wrapsAt, empty, List.length_nil]
    rfl

theorem totalOfAll_elementsAt_described (nodes : List Node) :
    totalOfAll elementsAt (nodes.map (described options)) =
      totalOfAll elementsAt nodes + totalOfAll (wrapsAt options) nodes := by
  rw [← totalOfAll_add]
  refine totalOfAll_map_congr fun node _ => ?_
  rw [total_elementsAt_described, total_add]

theorem described_eq_self {node : Node} (unwrapped : node.total (wrapsAt options) = 0) :
    node.described options = node := by
  induction node using induction_children with
  | step node ih =>
    rw [total_eq, Nat.add_eq_zero_iff, totalOfAll_eq_zero_iff] at unwrapped
    have kept : node.mapChildren (described options) = node :=
      mapChildren_eq_self fun child member => ih child member (unwrapped.2 child member)
    by_cases shown : node.isElement = true
    · cases node with
      | element opening closing inside extra =>
        have empty : leadingMarkers options opening.attributes = [] :=
          List.eq_nil_of_length_eq_zero unwrapped.1
        rw [described_of_no_leading empty, kept]
      | _ => simp [isElement] at shown
    · rw [described_of_not_element (by simpa using shown), kept]

end Node

end Caption
