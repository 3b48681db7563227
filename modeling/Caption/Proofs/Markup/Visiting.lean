import Caption.Markup.Recording
import Caption.Proofs.Markup.Drawing
import Caption.Proofs.Markup.Walking

/-!
The calls that a walk makes of a visitor. The walk is told as a relation that knows no bound: an
element is shown, and the children of what stands there afterwards are walked before its next sibling.
A visitor that changes nothing is shown every element once, in document order.
-/
namespace Caption

mutual

/-- The elements of a tree in document order: an element stands before those in its attributes, and
these before those between its tags. -/
def Node.elements : Node → List Node
  | .importDeclaration specifiers _ _ => Node.elementsOfAll specifiers
  | .importSpecifier imported binding _ => imported.elements ++ binding.elements
  | .element (.tag name attributes selfClosing rest) closing children extra =>
    .element (.tag name attributes selfClosing rest) closing children extra ::
      (Node.elementsOfAll attributes ++ Node.elementsOfAll children)
  | .attr name none _ => name.elements
  | .attr name (some value) _ => name.elements ++ value.elements
  | .container expression _ => expression.elements
  | .jsxIdentifier _ _ => []
  | .literal _ => []
  | .identifier _ _ => []
  | .other _ fields => Field.elementsOfFields fields

def Node.elementsOfAll : List Node → List Node
  | [] => []
  | node :: rest => node.elements ++ Node.elementsOfAll rest

/-- The elements of a field, those in lists of any depth from left to right. -/
def Field.elements : Field → List Node
  | .node inner => inner.elements
  | .list items => Field.elementsOfAll items
  | .plain _ => []

def Field.elementsOfAll : List Field → List Node
  | [] => []
  | field :: rest => field.elements ++ Field.elementsOfAll rest

def Field.elementsOfFields : List (String × Field) → List Node
  | [] => []
  | (_, field) :: rest => field.elements ++ Field.elementsOfFields rest

end

namespace Node

/-- The elements among some nodes and the nodes below them. -/
def shown (nodes : List Node) : List Node := (nodes.flatMap subtree).filter isElement

@[simp] theorem shown_nil : shown [] = [] := rfl

theorem shown_append (left right : List Node) : shown (left ++ right) = shown left ++ shown right := by
  simp [shown]

theorem shown_cons (node : Node) (rest : List Node) :
    shown (node :: rest) = (node.subtree.filter isElement) ++ shown rest := by
  rw [shown, List.flatMap_cons, List.filter_append]
  rfl

theorem filter_subtree_of_isElement {node : Node} (element : node.isElement = true) :
    node.subtree.filter isElement = node :: shown node.children := by
  rw [subtree_eq, List.filter_cons_of_pos element]
  rfl

theorem filter_subtree_of_not_isElement {node : Node} (plain : node.isElement = false) :
    node.subtree.filter isElement = shown node.children := by
  rw [subtree_eq, List.filter_cons_of_neg (by simp [plain])]
  rfl

end Node

mutual

/-- Listing elements by the parts of a node is listing those among the nodes reached over children. -/
theorem Node.elements_eq : (node : Node) → node.elements = node.subtree.filter Node.isElement
  | .importDeclaration specifiers source extra => by
    rw [Node.filter_subtree_of_not_isElement rfl, Node.elements, Node.elementsOfAll_eq specifiers]
    rfl
  | .importSpecifier imported binding extra => by
    rw [Node.filter_subtree_of_not_isElement rfl, Node.elements, Node.elements_eq imported,
      Node.elements_eq binding, Node.children, Node.shown_cons, Node.shown_cons, Node.shown_nil,
      List.append_nil]
  | .element (.tag name attributes selfClosing rest) closing children extra => by
    rw [Node.filter_subtree_of_isElement rfl, Node.elements, Node.elementsOfAll_eq attributes,
      Node.elementsOfAll_eq children, Node.children, Node.shown_append]
    rfl
  | .attr name none extra => by
    rw [Node.filter_subtree_of_not_isElement rfl, Node.elements, Node.elements_eq name,
      Node.children, Node.shown_cons, Node.shown_nil, List.append_nil]
  | .attr name (some value) extra => by
    rw [Node.filter_subtree_of_not_isElement rfl, Node.elements, Node.elements_eq name,
      Node.elements_eq value, Node.children, Node.shown_cons, Node.shown_cons, Node.shown_nil,
      List.append_nil]
  | .container expression extra => by
    rw [Node.filter_subtree_of_not_isElement rfl, Node.elements, Node.elements_eq expression,
      Node.children, Node.shown_cons, Node.shown_nil, List.append_nil]
  | .jsxIdentifier name extra => by rw [Node.filter_subtree_of_not_isElement rfl]; rfl
  | .literal text => by rw [Node.filter_subtree_of_not_isElement rfl]; rfl
  | .identifier name extra => by rw [Node.filter_subtree_of_not_isElement rfl]; rfl
  | .other kind fields => by
    rw [Node.filter_subtree_of_not_isElement rfl, Node.elements, Field.elementsOfFields_eq fields]
    rfl

theorem Node.elementsOfAll_eq : (nodes : List Node) → Node.elementsOfAll nodes = Node.shown nodes
  | [] => rfl
  | node :: rest => by
    rw [Node.elementsOfAll, Node.elements_eq node, Node.elementsOfAll_eq rest, Node.shown_cons]

theorem Field.elements_eq : (field : Field) → field.elements = Node.shown field.nodes
  | .node inner => by
    rw [Field.elements, Node.elements_eq inner, Field.nodes, Node.shown_cons, Node.shown_nil,
      List.append_nil]
  | .list items => by rw [Field.elements, Field.elementsOfAll_eq items, Field.nodes]
  | .plain value => rfl

theorem Field.elementsOfAll_eq :
    (fields : List Field) → Field.elementsOfAll fields = Node.shown (Field.nodesOfAll fields)
  | [] => rfl
  | field :: rest => by
    rw [Field.elementsOfAll, Field.elements_eq field, Field.elementsOfAll_eq rest,
      Field.nodesOfAll, Node.shown_append]

theorem Field.elementsOfFields_eq :
    (fields : List (String × Field)) →
      Field.elementsOfFields fields = Node.shown (Field.nodesOfFields fields)
  | [] => rfl
  | (name, field) :: rest => by
    rw [Field.elementsOfFields, Field.elements_eq field, Field.elementsOfFields_eq rest,
      ← Node.shown_append]
    rfl

end

/-- A walk over nodes from left to right, given what a visit does: from nodes and a state it leads to
the nodes that were shown, the nodes that stand there afterwards, and a state. -/
inductive Walks {State : Type} (visit : Node → State → Node × State) :
    List Node → State → List Node → List Node → State → Prop
  | done (state : State) : Walks visit [] state [] [] state
  | element {node left : Node} {rest inside others below walked : List Node}
    {state reached between final : State} (shown : node.isElement = true)
    (visited : visit node state = (left, reached))
    (down : Walks visit left.children reached inside below between)
    (next : Walks visit rest between others walked final) :
    Walks visit (node :: rest) state (node :: inside ++ others)
      (left.withChildren below :: walked) final
  | other {node : Node} {rest inside others below walked : List Node}
    {state between final : State} (plain : node.isElement = false)
    (down : Walks visit node.children state inside below between)
    (next : Walks visit rest between others walked final) :
    Walks visit (node :: rest) state (inside ++ others) (node.withChildren below :: walked) final

/-- A call that a walk makes of a visitor, with what the visitor is given. -/
inductive Call where
  | enter (program : Program)
  | visit (node : Node)
  | leave (program : Program)
deriving DecidableEq

namespace Walks

variable {State : Type} {visit : Node → State → Node × State} {nodes : List Node} {state : State}

theorem unique {shown shown' walked walked' : List Node} {final final' : State}
    (left : Walks visit nodes state shown walked final)
    (right : Walks visit nodes state shown' walked' final') :
    shown = shown' ∧ walked = walked' ∧ final = final' := by
  induction left generalizing shown' walked' final' with
  | done state =>
    cases right
    exact ⟨rfl, rfl, rfl⟩
  | element element visited down next below after =>
    cases right with
    | element _ visited' down' next' =>
      obtain ⟨rfl, rfl⟩ := Prod.mk.inj (visited.symm.trans visited')
      obtain ⟨rfl, rfl, rfl⟩ := below down'
      obtain ⟨rfl, rfl, rfl⟩ := after next'
      exact ⟨rfl, rfl, rfl⟩
    | other plain => simp [element] at plain
  | other plain down next below after =>
    cases right with
    | element element => simp [plain] at element
    | other _ down' next' =>
      obtain ⟨rfl, rfl, rfl⟩ := below down'
      obtain ⟨rfl, rfl, rfl⟩ := after next'
      exact ⟨rfl, rfl, rfl⟩

/-- Visits that keep every node keep all nodes, and every element is shown once. -/
theorem shown_of_keeps (keeps : ∀ node state, (visit node state).1 = node)
    {shown walked : List Node} {final : State} (walks : Walks visit nodes state shown walked final) :
    shown = Node.shown nodes ∧ walked = nodes := by
  induction walks with
  | done state => exact ⟨rfl, rfl⟩
  | @element node left _ _ _ _ _ state reached _ _ element visited down next below after =>
    obtain rfl : node = left := by rw [← keeps node state, visited]
    obtain ⟨rfl, rfl⟩ := below
    obtain ⟨rfl, rfl⟩ := after
    rw [Node.shown_cons, Node.filter_subtree_of_isElement element, Node.withChildren_children]
    exact ⟨rfl, rfl⟩
  | other plain down next below after =>
    obtain ⟨rfl, rfl⟩ := below
    obtain ⟨rfl, rfl⟩ := after
    rw [Node.shown_cons, Node.filter_subtree_of_not_isElement plain, Node.withChildren_children]
    exact ⟨rfl, rfl⟩

end Walks

namespace Visitor

variable {State : Type} (visitor : Visitor State)

/-- A walk through a whole program: the calls that are made of a visitor, and the program and the
state that they lead to. -/
inductive Tours (program : Program) (state : State) : List Call → Program → State → Prop
  | mk {entered left : Program} {shown body : List Node} {first reached final : State}
    (enters : visitor.enter program state = (entered, first))
    (walks : Walks visitor.visit entered.body first shown body reached)
    (leaves : visitor.leave { entered with body := body } reached = (left, final)) :
    Tours program state
      (.enter program :: shown.map .visit ++ [.leave { entered with body := body }]) left final

section Executed

/-- Walking a node in front of others that are walked afterwards. -/
def LeadsOn (node : Node) : Prop :=
  ∀ {state final : State} {rest others walked : List Node},
    Walks visitor.visit rest (visitor.walkFrom node state).2 others walked final →
      ∃ inside, Walks visitor.visit (node :: rest) state (inside ++ others)
        ((visitor.walkFrom node state).1 :: walked) final

theorem exists_walks_of_leadsOn {nodes : List Node} (each : ∀ node ∈ nodes, visitor.LeadsOn node)
    (state : State) :
    ∃ shown, Walks visitor.visit nodes state shown (visitor.walkStatements nodes state).1
      (visitor.walkStatements nodes state).2 := by
  induction nodes generalizing state with
  | nil => exact ⟨[], .done state⟩
  | cons node rest ih =>
    obtain ⟨first, later⟩ := List.forall_mem_cons.mp each
    obtain ⟨others, next⟩ := ih later (visitor.walkFrom node state).2
    obtain ⟨inside, whole⟩ := first next
    exact ⟨inside ++ others, whole⟩

/-- What a visit leaves has smaller children, so that walking it comes to an end. -/
theorem leadsOn (node : Node) : visitor.LeadsOn node := by
  induction node using Node.induction_size with
  | step node ih =>
    intro state final rest others walked next
    have smaller : ∀ child ∈ (visitor.arrive node state).1.children, visitor.LeadsOn child :=
      fun child member => ih child (visitor.size_lt_of_mem_arrive member)
    obtain ⟨inside, down⟩ := visitor.exists_walks_of_leadsOn smaller (visitor.arrive node state).2
    rw [walkFrom_eq] at next ⊢
    cases element : node.isElement with
    | true =>
      have shown : visitor.arrive node state = visitor.visit node state := by
        rw [arrive, if_pos element]
      rw [shown] at down next ⊢
      exact ⟨node :: inside, .element element rfl down next⟩
    | false =>
      have passed : visitor.arrive node state = (node, state) := by
        rw [arrive, if_neg (by simp [element])]
      rw [passed] at down next ⊢
      exact ⟨inside, .other element down next⟩

/-- A walk makes calls one after the other and comes to an end. -/
theorem exists_tours (program : Program) (state : State) :
    ∃ calls, visitor.Tours program state calls (visitor.walk program state).1
      (visitor.walk program state).2 := by
  have each : ∀ node ∈ (visitor.enter program state).1.body, visitor.LeadsOn node :=
    fun node _ => visitor.leadsOn node
  obtain ⟨shown, walks⟩ := visitor.exists_walks_of_leadsOn each (visitor.enter program state).2
  exact ⟨_, .mk rfl walks rfl⟩

end Executed

theorem Tours.unique {visitor : Visitor State} {program left left' : Program}
    {state final final' : State} {calls calls' : List Call}
    (tour : visitor.Tours program state calls left final)
    (other : visitor.Tours program state calls' left' final') :
    calls = calls' ∧ left = left' ∧ final = final' := by
  obtain ⟨enters, walks, leaves⟩ := tour
  obtain ⟨enters', walks', leaves'⟩ := other
  obtain ⟨rfl, rfl⟩ := Prod.mk.inj (enters.symm.trans enters')
  obtain ⟨rfl, rfl, rfl⟩ := walks.unique walks'
  obtain ⟨rfl, rfl⟩ := Prod.mk.inj (leaves.symm.trans leaves')
  exact ⟨rfl, rfl, rfl⟩

end Visitor

theorem Node.icon_eq_iff (node : Node) : node.icon = "◇" ↔ node.isElement = true := by
  cases node <;> simp [icon, kind, isElement]

/-- The rows with the icon of an element are those of the elements, in their order. -/
theorem SourceFile.marks_of_elements (source : SourceFile) :
    (source.rows.filter fun row => row.icon == "◇").map Outline.Row.mark =
      source.program.elements.map Node.mark := by
  have rows : (source.rows.filter fun row => row.icon == "◇").map Outline.Row.mark =
      (source.rows.map Outline.Row.mark).filter fun mark => mark.1 == "◇" := by
    rw [List.filter_map]
    rfl
  have nodes : source.program.elements = source.nodes.filter fun node => node.mark.1 == "◇" := by
    refine List.filter_congr fun node _ => ?_
    rw [Bool.eq_iff_iff, beq_iff_eq]
    exact node.icon_eq_iff.symm
  rw [rows, source.map_mark_rows, nodes, List.filter_map]
  rfl

namespace Visitor

variable {State : Type}

/-- A walk with a visitor that changes nothing leaves the program as it is. It enters the program once,
shows every element once, in document order, and leaves the program once; nothing else is called. The
elements are those that a drawing shows with the icon of an element. -/
theorem walk_shows_elements_once (visitor : Visitor State)
    (enters : ∀ program state, (visitor.enter program state).1 = program)
    (visits : ∀ node state, (visitor.visit node state).1 = node)
    (leaves : ∀ program state, (visitor.leave program state).1 = program)
    (program : Program) (state : State) :
    (visitor.walk program state).1 = program ∧
      (∀ calls left final, visitor.Tours program state calls left final ↔
        calls = .enter program :: program.elements.map .visit ++ [.leave program] ∧
          (left, final) = visitor.walk program state) ∧
      program.elements = Node.elementsOfAll program.body ∧
      ∀ file, let source : SourceFile := ⟨program, file⟩
        source.draw =
            String.join
              ((source.heading :: source.rows.map Outline.Row.line).map fun line => line ++ "\n") ∧
          (source.rows.filter fun row => row.icon == "◇").map Outline.Row.mark =
            program.elements.map Node.mark := by
  obtain ⟨calls, tour⟩ := visitor.exists_tours program state
  have listed : calls = .enter program :: program.elements.map .visit ++ [.leave program] ∧
      (visitor.walk program state).1 = program := by
    generalize (visitor.walk program state).1 = left at tour ⊢
    obtain ⟨entering, walks, leaving⟩ := tour
    rename_i entered _ shown body reached
    obtain rfl : program = entered := by rw [← enters program state, entering]
    obtain ⟨rfl, rfl⟩ := walks.shown_of_keeps visits
    refine ⟨rfl, ?_⟩
    rw [← leaves program reached, leaving]
  obtain ⟨rfl, kept⟩ := listed
  refine ⟨kept, fun calls left final => ?_, (Node.elementsOfAll_eq program.body).symm, fun file => ?_⟩
  · constructor
    · intro other
      obtain ⟨rfl, rfl, rfl⟩ := other.unique tour
      exact ⟨rfl, rfl⟩
    · rintro ⟨rfl, same⟩
      obtain ⟨rfl, rfl⟩ := Prod.mk.inj same
      exact tour
  · exact ⟨SourceFile.draw_eq _, SourceFile.marks_of_elements _⟩

/-- An element without attributes and contents. -/
def dot (name : String) : Node := Node.newElement name [] []

/-- An element with one in an attribute and one between its tags. -/
def card : Node :=
  Node.newElement "div" [Node.newAttribute "icon" (some (Node.newContainer (dot "Icon")))]
    [dot "span"]

/-- A program with that element in a list of lists. -/
def cards : Program :=
  ⟨[.other "ExpressionStatement" [("parts", .list [.plain .null, .list [.node card]])]], []⟩

theorem walk_shows_cards_once :
    (∀ program state, ((recorder .keep).enter program state).1 = program) ∧
      (∀ node state, ((recorder .keep).visit node state).1 = node) ∧
      (∀ program state, ((recorder .keep).leave program state).1 = program) ∧
      ∃ events, (recorder .keep).Tours cards []
        [.enter cards, .visit card, .visit (dot "Icon"), .visit (dot "span"), .leave cards]
        cards events := by
  have visits : ∀ node state, ((recorder .keep).visit node state).1 = node := by
    intro node state
    cases node <;> rfl
  refine ⟨fun _ _ => rfl, visits, fun _ _ => rfl, ?_⟩
  obtain ⟨kept, tours, listed, _⟩ :=
    walk_shows_elements_once (recorder .keep) (fun _ _ => rfl) visits (fun _ _ => rfl) cards []
  refine ⟨((recorder .keep).walk cards []).2, (tours _ _ _).mpr ⟨?_, ?_⟩⟩
  · rw [listed]
    rfl
  · exact Prod.ext kept.symm rfl

end Visitor

end Caption
