import Caption.Markup.Walk

/-!
What a walk does to a node, without the bound that makes it end: it shows the node, and walks what
then stands there from left to right.
-/
namespace Caption

namespace Visitor

variable {State : Type} (visitor : Visitor State)

/-- The bound on the nodes plays no part in walking them. -/
theorem walkChildren_eq (bound : Nat) (nodes : List Node)
    (smaller : ∀ node ∈ nodes, node.size < bound) (state : State) :
    visitor.walkChildren bound nodes smaller state = visitor.walkStatements nodes state := by
  induction nodes generalizing state with
  | nil => rw [walkChildren, walkStatements]
  | cons node rest ih =>
    rw [walkChildren, walkStatements]
    simp only [ih]

/-- Walking a node: show it, then walk the children of what stands there. -/
theorem walkFrom_eq (node : Node) (state : State) :
    visitor.walkFrom node state =
      let arrived := visitor.arrive node state
      let walked := visitor.walkStatements arrived.1.children arrived.2
      (arrived.1.withChildren walked.1, walked.2) := by
  rw [walkFrom]
  simp only [walkChildren_eq]

/-- If walking each of some nodes changes it in one way whatever the state, then walking all of
them maps that change over them, and the states follow one another. -/
theorem walkStatements_eq_map {change : Node → Node} {advance : Node → State → State}
    {nodes : List Node}
    (walks : ∀ node ∈ nodes, ∀ state, visitor.walkFrom node state = (change node, advance node state))
    (state : State) :
    visitor.walkStatements nodes state =
      (nodes.map change, nodes.foldl (fun reached node => advance node reached) state) := by
  induction nodes generalizing state with
  | nil => rfl
  | cons head rest ih =>
    rw [walkStatements, walks head List.mem_cons_self state,
      ih (fun node member => walks node (List.mem_cons_of_mem head member))]
    rfl

end Visitor

end Caption
