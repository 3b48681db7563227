import Mathlib.Algebra.GroupWithZero.Nat
import Caption.Markup.Query

/-!
Laws of the children of a node. Replacing every child by its image changes the children and nothing
else, and the nodes of a tree are listed with every node before the ones below it.
-/
namespace Caption

mutual

/-- A field with every node in it replaced by its image. -/
def Field.mapNodes (change : Node → Node) : Field → Field
  | .node inner => .node (change inner)
  | .list items => .list (Field.mapNodesOfAll change items)
  | .plain value => .plain value

def Field.mapNodesOfAll (change : Node → Node) : List Field → List Field
  | [] => []
  | field :: rest => field.mapNodes change :: Field.mapNodesOfAll change rest

end

def Field.mapNodesOfFields (change : Node → Node) (fields : List (String × Field)) :
    List (String × Field) :=
  fields.map fun field => (field.1, field.2.mapNodes change)

mutual

theorem Field.nodes_mapNodes (change : Node → Node) :
    (field : Field) → (field.mapNodes change).nodes = field.nodes.map change
  | .node inner => by simp [Field.mapNodes, Field.nodes]
  | .list items => by
    simp only [Field.mapNodes, Field.nodes]
    exact Field.nodesOfAll_mapNodesOfAll change items
  | .plain value => by simp [Field.mapNodes, Field.nodes]

theorem Field.nodesOfAll_mapNodesOfAll (change : Node → Node) :
    (fields : List Field) →
      Field.nodesOfAll (Field.mapNodesOfAll change fields) = (Field.nodesOfAll fields).map change
  | [] => rfl
  | field :: rest => by
    simp only [Field.mapNodesOfAll, Field.nodesOfAll, List.map_append]
    rw [Field.nodes_mapNodes change field, Field.nodesOfAll_mapNodesOfAll change rest]

end

theorem Field.nodesOfFields_mapNodesOfFields (change : Node → Node)
    (fields : List (String × Field)) :
    Field.nodesOfFields (Field.mapNodesOfFields change fields) =
      (Field.nodesOfFields fields).map change := by
  induction fields with
  | nil => rfl
  | cons named rest ih =>
    simp only [Field.nodesOfFields, Field.mapNodesOfFields, List.map_cons, List.flatMap_cons,
      List.map_append] at ih ⊢
    rw [Field.nodes_mapNodes, ih]

mutual

/-- Refilling a field takes exactly as many nodes as it holds and leaves the others. -/
theorem Field.refill_map (change : Node → Node) :
    (field : Field) → (others : List Node) →
      field.refill (field.nodes.map change ++ others) = (field.mapNodes change, others)
  | .node inner, others => by simp [Field.nodes, Field.refill, Field.mapNodes]
  | .list items, others => by
    simp only [Field.nodes, Field.refill, Field.mapNodes]
    rw [Field.refillAll_map change items others]
  | .plain value, others => by simp [Field.nodes, Field.refill, Field.mapNodes]

theorem Field.refillAll_map (change : Node → Node) :
    (fields : List Field) → (others : List Node) →
      Field.refillAll fields ((Field.nodesOfAll fields).map change ++ others) =
        (Field.mapNodesOfAll change fields, others)
  | [], others => by simp [Field.nodesOfAll, Field.refillAll, Field.mapNodesOfAll]
  | field :: rest, others => by
    simp only [Field.nodesOfAll, List.map_append, List.append_assoc, Field.refillAll]
    rw [Field.refill_map change field, Field.refillAll_map change rest others]
    rfl

end

theorem Field.refillFields_map (change : Node → Node) (fields : List (String × Field)) :
    Field.refillFields fields ((Field.nodesOfFields fields).map change) =
      Field.mapNodesOfFields change fields := by
  induction fields with
  | nil => rfl
  | cons named rest ih =>
    obtain ⟨name, field⟩ := named
    simp only [Field.nodesOfFields, List.flatMap_cons, List.map_append, Field.refillFields,
      Field.mapNodesOfFields, List.map_cons] at ih ⊢
    rw [Field.refill_map change field, ih]

mutual

theorem Field.mapNodes_id : (field : Field) → field.mapNodes id = field
  | .node inner => rfl
  | .list items => by rw [Field.mapNodes, Field.mapNodesOfAll_id items]
  | .plain value => rfl

theorem Field.mapNodesOfAll_id : (fields : List Field) → Field.mapNodesOfAll id fields = fields
  | [] => rfl
  | field :: rest => by
    rw [Field.mapNodesOfAll, Field.mapNodes_id field, Field.mapNodesOfAll_id rest]

end

theorem Field.refillFields_nodes (fields : List (String × Field)) :
    Field.refillFields fields (Field.nodesOfFields fields) = fields := by
  have refilled := Field.refillFields_map id fields
  rw [List.map_id] at refilled
  rw [refilled, Field.mapNodesOfFields]
  exact List.map_id'' (fun named => by rw [Field.mapNodes_id]) fields

namespace Node

theorem withChildren_children (node : Node) : node.withChildren node.children = node := by
  cases node with
  | element opening closing inside extra =>
    cases opening
    simp [children, withChildren, Opening.attributes, Opening.withAttributes]
  | attr name value extra => cases value <;> rfl
  | other kind fields => rw [children, withChildren, Field.refillFields_nodes]
  | _ => rfl

theorem mapChildren_eq_self {change : Node → Node} {node : Node}
    (kept : ∀ child ∈ node.children, change child = child) : node.mapChildren change = node := by
  rw [mapChildren, List.map_congr_left kept, List.map_id', withChildren_children]

theorem children_mapChildren (change : Node → Node) (node : Node) :
    (node.mapChildren change).children = node.children.map change := by
  cases node with
  | element opening closing inside extra =>
    cases opening
    simp [mapChildren, children, withChildren, Opening.attributes, Opening.withAttributes]
  | attr name value extra => cases value <;> simp [mapChildren, children, withChildren]
  | other kind fields =>
    simp only [mapChildren, children, withChildren]
    rw [Field.refillFields_map, Field.nodesOfFields_mapNodesOfFields]
  | _ => simp [mapChildren, children, withChildren]

theorem induction_size {motive : Node → Prop}
    (step : ∀ node, (∀ smaller : Node, smaller.size < node.size → motive smaller) → motive node)
    (node : Node) : motive node :=
  step node fun smaller _ => induction_size step smaller
termination_by node.size

theorem induction_children {motive : Node → Prop}
    (step : ∀ node, (∀ child ∈ node.children, motive child) → motive node) (node : Node) :
    motive node :=
  induction_size
    (fun node below => step node fun child member => below child (size_lt_of_mem_children member))
    node

/-- The nodes of a tree that are reached over children, each before the ones below it. -/
def subtree (node : Node) : List Node :=
  node :: node.children.attach.flatMap fun child => subtree child.1
termination_by node.size
decreasing_by exact size_lt_of_mem_children child.2

theorem subtree_eq (node : Node) : node.subtree = node :: node.children.flatMap subtree := by
  rw [subtree, List.flatMap_subtype (g := subtree) (fun _ _ => rfl), List.unattach_attach]

/-- The weights of all nodes of a tree together. -/
def total (weigh : Node → Nat) (node : Node) : Nat := (node.subtree.map weigh).sum

def totalOfAll (weigh : Node → Nat) (nodes : List Node) : Nat := (nodes.map (total weigh)).sum

variable (weigh : Node → Nat)

theorem totalOfAll_eq_sum (nodes : List Node) :
    totalOfAll weigh nodes = ((nodes.flatMap subtree).map weigh).sum := by
  induction nodes with
  | nil => rfl
  | cons head rest ih =>
    rw [totalOfAll] at ih ⊢
    rw [List.map_cons, List.sum_cons, ih, List.flatMap_cons, List.map_append, List.sum_append, total]

theorem total_eq (node : Node) :
    node.total weigh = weigh node + totalOfAll weigh node.children := by
  rw [total, subtree_eq, List.map_cons, List.sum_cons, totalOfAll_eq_sum]

@[simp] theorem totalOfAll_nil : totalOfAll weigh [] = 0 := rfl

@[simp] theorem totalOfAll_cons (node : Node) (rest : List Node) :
    totalOfAll weigh (node :: rest) = node.total weigh + totalOfAll weigh rest := rfl

@[simp] theorem totalOfAll_append (left right : List Node) :
    totalOfAll weigh (left ++ right) = totalOfAll weigh left + totalOfAll weigh right := by
  simp [totalOfAll]

theorem total_zero (node : Node) : node.total (fun _ => 0) = 0 := by
  rw [total]
  induction node.subtree with
  | nil => rfl
  | cons head rest ih => rw [List.map_cons, List.sum_cons, ih]

theorem total_add (weigh other : Node → Nat) (node : Node) :
    node.total (fun inner => weigh inner + other inner) = node.total weigh + node.total other := by
  rw [total, total, total]
  induction node.subtree with
  | nil => rfl
  | cons head rest ih =>
    simp only [List.map_cons, List.sum_cons, ih]
    omega

theorem totalOfAll_add (weigh other : Node → Nat) (nodes : List Node) :
    totalOfAll (fun inner => weigh inner + other inner) nodes =
      totalOfAll weigh nodes + totalOfAll other nodes := by
  induction nodes with
  | nil => rfl
  | cons head rest ih =>
    simp only [totalOfAll_cons, total_add, ih]
    omega

theorem totalOfAll_eq_zero_iff (weigh : Node → Nat) (nodes : List Node) :
    totalOfAll weigh nodes = 0 ↔ ∀ node ∈ nodes, node.total weigh = 0 := by
  induction nodes with
  | nil => simp
  | cons head rest ih => simp [ih]

theorem totalOfAll_map_congr {weigh other : Node → Nat} {change : Node → Node}
    {nodes : List Node}
    (same : ∀ node ∈ nodes, (change node).total weigh = node.total other) :
    totalOfAll weigh (nodes.map change) = totalOfAll other nodes := by
  induction nodes with
  | nil => rfl
  | cons head rest ih =>
    rw [List.map_cons, totalOfAll_cons, totalOfAll_cons, same head List.mem_cons_self,
      ih fun node member => same node (List.mem_cons_of_mem head member)]

end Node

/-- The elements of a program that are reached over children, each before the ones below it. -/
def Program.elements (program : Program) : List Node :=
  (program.body.flatMap Node.subtree).filter Node.isElement

end Caption
