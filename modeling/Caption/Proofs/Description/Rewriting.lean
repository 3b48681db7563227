import Caption.Proofs.Description.Weighing
import Caption.Proofs.Markup.Walking

/-!
The description pass as a walk and as a recursion. The walk shows an element again after each
wrapping; what it leaves is what the recursion gives, and what it counts are the weights of the tree
it started from.
-/
namespace Caption

/-- The progress after more elements were wrapped and skipped. -/
def Progress.advance (progress : Progress) (wrapped skipped : Nat) : Progress :=
  { progress with
    report.wrapped := progress.report.wrapped + wrapped
    report.skipped := progress.report.skipped + skipped }

theorem Progress.advance_advance (progress : Progress) (wrapped skipped more further : Nat) :
    (progress.advance wrapped skipped).advance more further =
      progress.advance (wrapped + more) (skipped + further) := by
  simp [Progress.advance, Nat.add_assoc]

theorem Progress.foldl_advance (wraps skips : Node → Nat) (nodes : List Node) (progress : Progress) :
    nodes.foldl (fun reached node => reached.advance (node.total wraps) (node.total skips)) progress =
      progress.advance (Node.totalOfAll wraps nodes) (Node.totalOfAll skips nodes) := by
  induction nodes generalizing progress with
  | nil => rfl
  | cons head rest ih =>
    rw [List.foldl_cons, ih, Progress.advance_advance]
    rfl

namespace Node

variable {options : Options}

theorem asAttributeValue_of_isElement {node : Node} (element : node.isElement = true) :
    node.asAttributeValue = newContainer node := by
  cases node <;> first | rfl | simp [isElement] at element

theorem asAttributeValue_described (content : Node) :
    (content.described options).asAttributeValue = content.asAttributeValue.described options := by
  cases content with
  | element opening closing inside extra =>
    rw [asAttributeValue_of_isElement (isElement_described _)]
    rfl
  | attr name value extra => cases value <;> rfl
  | _ => rfl

/-- The value of a wrapper's attribute: a literal as it is, and any other description changed and put
into braces. -/
def wrapperValue (options : Options) : Node → Node
  | .literal text => .literal text
  | expression => newContainer (expression.described options)

theorem asAttributeValue_described_eq (content : Node) :
    (content.described options).asAttributeValue = content.wrapperValue options := by
  rw [asAttributeValue_described]
  cases content <;> rfl

/-- Changing the parts of a wrapper changes its description and what it wraps. -/
theorem mapChildren_wrap (content inner : Node) :
    (wrap options content inner).mapChildren (described options) =
      wrap options (content.described options) (inner.described options) := by
  rw [wrap, wrap, asAttributeValue_described]
  rfl

/-- The first marker of an element becomes its outermost wrapper. -/
theorem described_of_taken {opening : Opening} {marker content : Node} {others : List Node}
    (closing : Closing) (inside : List Node) (extra : Members)
    (taken : takeAttribute options.marker opening.attributes = some (marker, others))
    (found : marker.description? = some content) :
    (element opening closing inside extra).described options =
      wrap options (content.described options)
        ((element (opening.withAttributes others) closing inside extra).described options) := by
  obtain ⟨name, attributes, selfClosing, rest⟩ := opening
  simp only [Opening.attributes] at taken
  have supported : marker.isSupported = true := by rw [isSupported, found]; rfl
  have leading : leadingContents options attributes = content :: leadingContents options others := by
    rw [leadingContents, leadingMarkers_of_taken taken, if_pos supported,
      List.filterMap_cons_some found]
    rfl
  rw [described_element_eq, described_element_eq]
  simp only [Opening.attributes, Opening.withAttributes]
  rw [leading, otherAttributes_of_taken taken supported]
  rfl

end Node

namespace Visitor

variable {options : Options}

/-- Walking a node whose place is taken by another one, when the walk does to the children of that
one what the recursion does. -/
theorem walkFrom_of_arrive {node left : Node} {progress reached : Progress}
    (arrived : (describer options).arrive node progress = (left, reached))
    (below : ∀ child ∈ left.children, ∀ before : Progress,
      (describer options).walkFrom child before =
        (child.described options,
          before.advance (child.total (Node.wrapsAt options)) (child.total (Node.skipsAt options)))) :
    (describer options).walkFrom node progress =
      (left.mapChildren (Node.described options),
        reached.advance (Node.totalOfAll (Node.wrapsAt options) left.children)
          (Node.totalOfAll (Node.skipsAt options) left.children)) := by
  rw [walkFrom_eq, arrived]
  simp only
  rw [walkStatements_eq_map _ below, Progress.foldl_advance]
  rfl

/-- An element that is shown is left alone if none of its markers is a leading one, and is skipped
then if it has a marker at all. -/
theorem describeElement_of_no_leading {opening : Opening} {closing : Closing} {inside : List Node}
    {extra : Members} (empty : Node.leadingMarkers options opening.attributes = [])
    (progress : Progress) :
    describeElement options (.element opening closing inside extra) progress =
      (.element opening closing inside extra,
        progress.advance 0 (Node.skipsAt options (.element opening closing inside extra))) := by
  unfold describeElement
  cases taken : takeAttribute options.marker opening.attributes with
  | none =>
    simp [taken, Node.skipsAt, Node.keepsMarker_of_untaken taken, Progress.advance]
  | some found =>
    obtain ⟨marker, others⟩ := found
    have leading := Node.leadingMarkers_of_taken taken
    have unsupported : marker.isSupported = false := by
      cases supported : marker.isSupported with
      | false => rfl
      | true => simp [empty, supported] at leading
    have contentless : marker.markerContent? = none := by
      simpa [Node.isSupported, Node.markerContent?_eq_description?] using unsupported
    simp [taken, contentless, Node.skipsAt, Node.keepsMarker_of_taken taken, unsupported,
      Progress.advance, Progress.countSkipped]

/-- An element with a leading marker is wrapped by the first one. -/
theorem describeElement_of_taken {opening : Opening} {marker content : Node} {others : List Node}
    (closing : Closing) (inside : List Node) (extra : Members)
    (taken : takeAttribute options.marker opening.attributes = some (marker, others))
    (found : marker.description? = some content) (progress : Progress) :
    describeElement options (.element opening closing inside extra) progress =
      (Node.wrap options content (.element (opening.withAttributes others) closing inside extra),
        progress.advance 1 0) := by
  have content : marker.markerContent? = some content :=
    (Node.markerContent?_eq_description? marker).trans found
  unfold describeElement
  simp [taken, content, Progress.advance, Progress.countWrapped]

/-- The pass leaves of every node what the recursion gives, and counts its weights. -/
theorem walkFrom_describer (node : Node) (progress : Progress) :
    (describer options).walkFrom node progress =
      (node.described options,
        progress.advance (node.total (Node.wrapsAt options)) (node.total (Node.skipsAt options))) := by
  induction node using Node.induction_size generalizing progress with
  | step node ih =>
    have below : ∀ left : Node, (∀ child ∈ left.children, child.size < node.size) →
        ∀ child ∈ left.children, ∀ before : Progress,
          (describer options).walkFrom child before =
            (child.described options,
              before.advance (child.total (Node.wrapsAt options))
                (child.total (Node.skipsAt options))) :=
      fun left smaller child member before => ih child (smaller child member) before
    have own := below node fun child member => Node.size_lt_of_mem_children member
    by_cases shown : node.isElement = true
    · cases node with
      | element opening closing inside extra =>
        have arrives : (describer options).arrive (.element opening closing inside extra) progress =
            describeElement options (.element opening closing inside extra) progress := by
          rw [arrive, if_pos shown]
          rfl
        by_cases empty : Node.leadingMarkers options opening.attributes = []
        · rw [describeElement_of_no_leading empty] at arrives
          rw [walkFrom_of_arrive arrives own, Node.described_of_no_leading empty,
            Progress.advance_advance, Node.total_eq, Node.total_eq (Node.skipsAt options)]
          simp only [Node.wrapsAt, empty, List.length_nil]
        · obtain ⟨marker, others, content, taken, found⟩ := Node.taken_of_leading empty
          have left := describeElement_of_taken closing inside extra taken found progress
          have smaller := describeElement_shrinks options
            (.element opening closing inside extra) progress
          rw [left] at arrives smaller
          rw [walkFrom_of_arrive arrives (below _ smaller), Node.mapChildren_wrap,
            ← Node.described_of_taken closing inside extra taken found, Progress.advance_advance,
            Node.total_wrapsAt_of_taken closing inside extra taken found,
            Node.total_skipsAt_of_taken closing inside extra taken found, Nat.zero_add]
      | _ => simp [Node.isElement] at shown
    · have plain : node.isElement = false := by simpa using shown
      have arrived : (describer options).arrive node progress = (node, progress) := by
        rw [arrive, if_neg shown]
      rw [walkFrom_of_arrive arrived own, Node.described_of_not_element plain, Node.total_eq,
        Node.total_eq, Node.wrapsAt_of_not_element plain, Node.skipsAt_of_not_element plain,
        Nat.zero_add, Nat.zero_add]

theorem walkStatements_describer (nodes : List Node) (progress : Progress) :
    (describer options).walkStatements nodes progress =
      (nodes.map (Node.described options),
        progress.advance (Node.totalOfAll (Node.wrapsAt options) nodes)
          (Node.totalOfAll (Node.skipsAt options) nodes)) := by
  rw [walkStatements_eq_map _ fun node _ => walkFrom_describer node, Progress.foldl_advance]

end Visitor

namespace Program

variable (options : Options)

/-- The wrappers that a pass makes of a program. -/
def wraps (program : Program) : Nat := Node.totalOfAll (Node.wrapsAt options) program.body

/-- The elements of a program that a pass skips. -/
def skips (program : Program) : Nat := Node.totalOfAll (Node.skipsAt options) program.body

def needsImport (program : Program) : Bool :=
  decide (0 < program.wraps options ∧ ¬program.body.any (Node.bringsWrapper options))

def describedBody (program : Program) : List Node :=
  (if program.needsImport options then [Node.newImport [options.wrapper] options.importSource]
    else []) ++ program.body.map (Node.described options)

theorem describer_enter (program : Program) (progress : Progress) :
    (describer options).enter program progress =
      (program, { progress with imported := program.body.any (Node.bringsWrapper options) }) :=
  rfl

theorem describer_leave (program : Program) (progress : Progress) :
    (describer options).leave program progress =
      if 0 < progress.report.wrapped ∧ ¬progress.imported then
        ({ program with
            body := Node.newImport [options.wrapper] options.importSource :: program.body },
          { progress with report.importInjected := true })
      else (program, progress) :=
  rfl

/-- A pass in closed form: the program it leaves and what it reports. -/
theorem describe_eq (program : Program) :
    program.describe options =
      ({ program with body := program.describedBody options },
        ⟨program.wraps options, program.skips options, program.needsImport options⟩) := by
  rw [describe, Visitor.walk, describer_enter]
  simp only
  rw [Visitor.walkStatements_describer, describer_leave]
  simp only [Progress.advance, Progress.start, Nat.zero_add, describedBody]
  by_cases condition : 0 < Node.totalOfAll (Node.wrapsAt options) program.body ∧
      ¬program.body.any (Node.bringsWrapper options) = true
  · have needed : program.needsImport options = true := decide_eq_true condition
    rw [if_pos condition, if_pos needed, needed]
    rfl
  · have needless : program.needsImport options = false := decide_eq_false condition
    rw [if_neg condition, needless]
    rfl

/-- A pass that walks a program while it changes it is a recursion on the statements: it changes the
children of every node, puts each element into wrappers for its leading markers, and adds nothing
else but an import in front. -/
theorem describe_eq_recursion (program : Program) :
    (program.describe options).1 =
        { program with
          body :=
            (if 0 < (program.describe options).2.wrapped ∧
                  ¬program.body.any (Node.bringsWrapper options) then
                [Node.newImport [options.wrapper] options.importSource]
              else []) ++ program.body.map (Node.described options) } ∧
      (∀ node : Node, node.isElement = false →
        node.described options = node.mapChildren (Node.described options)) ∧
      ∀ opening closing inside extra,
        (Node.element opening closing inside extra).described options =
          ((Node.leadingMarkers options opening.attributes).filterMap Node.description?).foldr
            (fun content next =>
              Node.newElement options.wrapper
                [Node.newAttribute options.contentProp (some (content.wrapperValue options))] [next])
            (.element
              (opening.withAttributes
                ((Node.otherAttributes options opening.attributes).map (Node.described options)))
              closing (inside.map (Node.described options)) extra) := by
  refine ⟨?_, fun node plain => Node.described_of_not_element plain, ?_⟩
  · rw [describe_eq]
    simp only [describedBody, needsImport, decide_eq_true_eq]
  · intro opening closing inside extra
    rw [Node.described_element_eq, Node.wrapAll, List.foldr_map, Node.leadingContents]
    simp only [Node.wrap, Node.asAttributeValue_described_eq]

end Program

end Caption
