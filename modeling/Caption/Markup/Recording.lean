import Caption.Markup.Build
import Caption.Markup.Walk

/-!
Visitors that record where a walk comes by, and that may change the program on the way.
-/
namespace Caption

/-- What a recording visitor changes. -/
inductive Edit where
  /-- Nothing. -/
  | keep
  /-- Take the first attribute of a name off each element and put the element into a new one. -/
  | wrap (name : String)
  /-- Put a string literal in the place of each element of a name. -/
  | replace (name : String)
  /-- Put an identifier in front of the statements. -/
  | prepend (name : String)

namespace Edit

def apply (edit : Edit) (node : Node) : Node :=
  match edit, node with
  | .wrap name, .element opening closing children extra =>
    match takeAttribute name opening.attributes with
    | none => .element opening closing children extra
    | some (_, others) =>
      Node.newElement "Wrap" [] [.element (opening.withAttributes others) closing children extra]
  | .replace name, .element opening closing children extra =>
    if opening.name.plainName? = some name then Node.string "gone"
    else .element opening closing children extra
  | _, node => node

theorem apply_shrinks (edit : Edit) (node child : Node)
    (member : child ∈ (edit.apply node).children) : child.size < node.size := by
  unfold apply at member
  split at member
  · rename_i name opening closing children extra
    split at member
    · exact Node.size_lt_of_mem_children member
    · rename_i taken others found
      obtain ⟨label, attributes, selfClosing, rest⟩ := opening
      have whole := sizeOfAll_takeAttribute found
      have positive := taken.size_pos
      simp only [Node.newElement, Node.children, Opening.attributes, List.nil_append,
        List.mem_singleton] at member whole
      subst member
      simp only [Node.size, Opening.size, Opening.withAttributes]
      omega
  · split at member
    · simp [Node.string, Node.children] at member
    · exact Node.size_lt_of_mem_children member
  · exact Node.size_lt_of_mem_children member

def finish (edit : Edit) (program : Program) : Program :=
  match edit with
  | .prepend name => { program with body := .identifier name [] :: program.body }
  | _ => program

end Edit

namespace Visitor

/-- The visitor that does nothing. -/
def idle : Visitor Unit where
  enter program state := (program, state)
  visit node state := (node, state)
  leave program state := (program, state)
  shrinks _ _ _ member := Node.size_lt_of_mem_children member

/-- The visitor that lists what it is shown, and makes an edit. -/
def recorder (edit : Edit) : Visitor (List String) where
  enter program events := (program, events ++ ["enter " ++ Nat.repr program.body.length])
  visit node events := (edit.apply node, events ++ ["element " ++ node.label])
  leave program events :=
    (edit.finish program, events ++ ["leave " ++ Nat.repr program.body.length])
  shrinks node _ child member := edit.apply_shrinks node child member

end Visitor

end Caption
