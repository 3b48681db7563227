import Caption.Description.Options
import Caption.Markup.Build
import Caption.Markup.Walk

/-!
The description pass: every element with a marker becomes the only child of a wrapper element that
carries the marker's value, and the wrapper is imported if it was not. A marker whose value cannot
be a description stays where it is.
-/
namespace Caption

namespace Node

/-- The description that a marker gives: a bare one gives the empty text, and braces give the
expression inside. -/
def markerContent? : Node → Option Node
  | .attr _ none _ => some (string "")
  | .attr _ (some (.literal text)) _ => some (.literal text)
  | .attr _ (some (.container expression _)) _ => some expression
  | _ => none

/-- The value of an attribute that carries an expression: all but literals need braces. -/
def asAttributeValue : Node → Node
  | .literal text => .literal text
  | expression => newContainer expression

/-- An element inside a wrapper that carries its description. -/
def wrap (options : Options) (content element : Node) : Node :=
  newElement options.wrapper
    [newAttribute options.contentProp (some content.asAttributeValue)] [element]

/-- Whether a statement imports the wrapper from its module. -/
def bringsWrapper (options : Options) (statement : Node) : Bool :=
  statement.importSource? == some options.importSource && statement.importsName options.wrapper

end Node

/-- How far a pass has come. -/
structure Progress where
  imported : Bool
  report : Report

namespace Progress

def start : Progress := ⟨false, ⟨0, 0, false⟩⟩

def countWrapped (progress : Progress) : Progress :=
  { progress with report.wrapped := progress.report.wrapped + 1 }

def countSkipped (progress : Progress) : Progress :=
  { progress with report.skipped := progress.report.skipped + 1 }

end Progress

/-- Wrap an element by its first marker. -/
def describeElement (options : Options) (node : Node) (progress : Progress) : Node × Progress :=
  match node with
  | .element opening closing children extra =>
    match takeAttribute options.marker opening.attributes with
    | none => (.element opening closing children extra, progress)
    | some (marker, others) =>
      match marker.markerContent? with
      | none => (.element opening closing children extra, progress.countSkipped)
      | some content =>
        (Node.wrap options content (.element (opening.withAttributes others) closing children extra),
          progress.countWrapped)
  | other => (other, progress)

theorem Node.size_wrapperAttribute {marker content : Node} (name : String)
    (found : marker.markerContent? = some content) :
    (Node.newAttribute name (some content.asAttributeValue)).size ≤ marker.size + 1 := by
  unfold Node.markerContent? at found
  split at found <;> simp only [Option.some.injEq, reduceCtorEq] at found <;> subst found
  · rename_i label extra
    have positive := label.size_pos
    simp [Node.newAttribute, Node.jsxName, Node.string, Node.asAttributeValue, Node.size]
    omega
  · rename_i label text extra
    have positive := label.size_pos
    simp [Node.newAttribute, Node.jsxName, Node.asAttributeValue, Node.size]
  · rename_i label expression inner extra
    have positive := label.size_pos
    have some := expression.size_pos
    unfold Node.asAttributeValue
    split
    · simp [Node.newAttribute, Node.jsxName, Node.size]
    · simp [Node.newAttribute, Node.jsxName, Node.newContainer, Node.size]
      omega

theorem describeElement_shrinks (options : Options) (node : Node) (progress : Progress)
    (child : Node) (member : child ∈ (describeElement options node progress).1.children) :
    child.size < node.size := by
  unfold describeElement at member
  split at member
  · rename_i opening closing children extra
    split at member
    · exact Node.size_lt_of_mem_children member
    · rename_i marker others taken
      split at member
      · exact Node.size_lt_of_mem_children member
      · rename_i content resolved
        obtain ⟨name, attributes, selfClosing, rest⟩ := opening
        have whole := sizeOfAll_takeAttribute taken
        have bounded := Node.size_wrapperAttribute options.contentProp resolved
        have positive := name.size_pos
        have markerPositive := marker.size_pos
        simp only [Node.wrap, Node.newElement, Node.children, Opening.attributes,
          List.cons_append, List.nil_append, List.mem_cons, List.not_mem_nil, or_false] at member whole
        simp only [Node.size, Opening.size]
        rcases member with rfl | rfl
        · omega
        · simp only [Node.size, Opening.size, Opening.withAttributes]
          omega
  · exact Node.size_lt_of_mem_children member

def describer (options : Options) : Visitor Progress where
  enter program progress :=
    (program, { progress with imported := program.body.any (Node.bringsWrapper options) })
  visit := describeElement options
  leave program progress :=
    if 0 < progress.report.wrapped ∧ ¬progress.imported then
      ({ program with body := Node.newImport [options.wrapper] options.importSource :: program.body },
        { progress with report.importInjected := true })
    else (program, progress)
  shrinks := describeElement_shrinks options

namespace Program

def describe (options : Options) (program : Program) : Program × Report :=
  let walked := (describer options).walk program Progress.start
  (walked.1, walked.2.report)

end Program

def SourceFile.describe (options : Options) (source : SourceFile) : SourceFile × Report :=
  let described := source.program.describe options
  ({ source with program := described.1 }, described.2)

end Caption
