import Caption.Markup.Children
import Caption.Markup.Query

/-!
Walking a program while it is changed: a visitor may replace each element it is shown, and the
walk goes on into the children of whatever stands there afterwards.
-/
namespace Caption

/-- A pass over a program that threads a state. What a visit leaves may be larger than the node
it was given, but each of its children is smaller; that is what makes the walk end. -/
structure Visitor (State : Type) where
  enter : Program → State → Program × State
  visit : Node → State → Node × State
  leave : Program → State → Program × State
  shrinks : ∀ (node : Node) (state : State) (child : Node),
    child ∈ (visit node state).1.children → child.size < node.size

namespace Visitor

variable {State : Type} (visitor : Visitor State)

/-- Show a node to the visitor if it is an element. -/
def arrive (node : Node) (state : State) : Node × State :=
  if node.isElement then visitor.visit node state else (node, state)

theorem size_lt_of_mem_arrive {node child : Node} {state : State}
    (member : child ∈ (visitor.arrive node state).1.children) : child.size < node.size := by
  unfold arrive at member
  split at member
  · exact visitor.shrinks node state child member
  · exact Node.size_lt_of_mem_children member

mutual

/-- Walk a node and what is below it. -/
def walkFrom (node : Node) (state : State) : Node × State :=
  let arrived := visitor.arrive node state
  let walked := walkChildren node.size arrived.1.children
    (fun _ member => visitor.size_lt_of_mem_arrive member) arrived.2
  (arrived.1.withChildren walked.1, walked.2)
termination_by (2 * node.size + 1, 0)
decreasing_by exact Prod.Lex.left _ _ (by omega)

/-- Walk nodes that are smaller than a bound, from left to right. -/
def walkChildren (bound : Nat) (nodes : List Node) (smaller : ∀ node ∈ nodes, node.size < bound)
    (state : State) : List Node × State :=
  match nodes, smaller with
  | [], _ => ([], state)
  | node :: rest, smaller =>
    let walked := walkFrom node state
    let others := walkChildren bound rest
      (fun _ member => smaller _ (List.mem_cons_of_mem node member)) walked.2
    (walked.1 :: others.1, others.2)
termination_by (2 * bound, nodes.length)
decreasing_by
  · have bounded := smaller node List.mem_cons_self
    exact Prod.Lex.left _ _ (by omega)
  · exact Prod.Lex.right _ (by simp)

end

/-- Walk statements from left to right. -/
def walkStatements : List Node → State → List Node × State
  | [], state => ([], state)
  | node :: rest, state =>
    let walked := visitor.walkFrom node state
    let others := walkStatements rest walked.2
    (walked.1 :: others.1, others.2)

/-- Walk a program: enter it, walk its statements, leave it. -/
def walk (program : Program) (state : State) : Program × State :=
  let entered := visitor.enter program state
  let walked := visitor.walkStatements entered.1.body entered.2
  visitor.leave { entered.1 with body := walked.1 } walked.2

end Visitor

end Caption
