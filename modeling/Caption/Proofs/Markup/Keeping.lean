import Caption.Proofs.Json.Nesting
import Caption.Proofs.Markup.WellFormed

/-!
What a tree keeps beside its structure: the members that carry none, and the values in which there is
no node. A well-formed tree is written with increasing keys and numbers of a kind just if what it
keeps has them.
-/
namespace Caption

namespace Members

variable {kind : Number → Prop} {members : Members} {keys : List String}

/-- Whether the members of an object have increasing keys and tidy values. -/
def Tidy (kind : Number → Prop) (members : Members) : Prop :=
  members.Sorted ∧ ∀ member ∈ members, member.2.Tidy kind

theorem get?_of_lacks (lacks : members.Lacks keys) {key : String} (structural : key ∈ "type" :: keys) :
    members.get? key = none := by
  rw [get?, Option.map_eq_none_iff, Keyed.get?_eq_none]
  rintro member stored rfl
  exact lacks member stored structural

theorem tidy_set (key : String) (value : Json) (absent : members.get? key = none) :
    (members.set key value).Tidy kind ↔ value.Tidy kind ∧ members.Tidy kind := by
  have free : Keyed.get? Prod.fst (key, value).1 members = none := Option.map_eq_none_iff.mp absent
  rw [Tidy, Tidy, Sorted, set, Keyed.sorted_put_iff free]
  simp only [Keyed.mem_put_iff free, forall_eq_or_imp]
  exact and_left_comm

/-- Members that are stored under different new keys. -/
theorem tidy_putAll {parts : List (String × Json)} (distinct : (parts.map Prod.fst).Nodup)
    (absent : ∀ part ∈ parts, members.get? part.1 = none) :
    Tidy kind (Keyed.putAll Prod.fst parts members) ↔
      (∀ part ∈ parts, part.2.Tidy kind) ∧ members.Tidy kind := by
  induction parts generalizing members with
  | nil => simp [Keyed.putAll]
  | cons part rest ih =>
    obtain ⟨key, value⟩ := part
    obtain ⟨fresh, others⟩ := List.nodup_cons.mp distinct
    obtain ⟨free, later⟩ := List.forall_mem_cons.mp absent
    have step : Keyed.putAll Prod.fst ((key, value) :: rest) members =
        Keyed.putAll Prod.fst rest (members.set key value) := rfl
    rw [step, ih others, tidy_set key value free, List.forall_mem_cons, and_left_comm, and_assoc]
    intro other member
    rw [get?_set, if_neg, later other member]
    intro same
    exact fresh (List.mem_map.mpr ⟨other, member, same.symm⟩)

/-- All parts of a node, written over the members that it keeps. -/
theorem tidy_ofKind {extra : Members} (lacks : extra.Lacks keys) (name : String)
    (parts : List (String × Json)) (whole : parts.map Prod.fst = keys)
    (distinct : ("type" :: keys).Nodup) :
    (Json.object (Keyed.putAll Prod.fst parts (ofKind name extra))).Tidy kind ↔
      (Json.object extra).Tidy kind ∧ ∀ part ∈ parts, part.2.Tidy kind := by
  subst whole
  obtain ⟨untyped, others⟩ := List.nodup_cons.mp distinct
  have typed : (ofKind name extra).Tidy kind ↔ extra.Tidy kind := by
    rw [ofKind, tidy_set _ _ (get?_of_lacks lacks List.mem_cons_self)]
    exact and_iff_right ⟨trivial, List.forall_mem_nil _⟩
  rw [Json.tidy_object, Json.tidy_object, ← Tidy, ← Tidy, tidy_putAll others, typed, and_comm]
  intro part listed
  have named : part.1 ∈ parts.map Prod.fst := List.mem_map.mpr ⟨part, listed, rfl⟩
  rw [ofKind, get?_set, if_neg]
  · exact get?_of_lacks lacks (List.mem_cons_of_mem _ named)
  · intro same
    exact untyped (same ▸ named)

end Members

mutual

/-- The values that a node keeps beside its structure: the members that carry none, as objects, and
the values of its fields in which there is no node. -/
def Node.kept : Node → List Json
  | .importDeclaration specifiers source extra =>
    .object extra :: .object source.extra :: Node.keptAll specifiers
  | .importSpecifier imported binding extra => .object extra :: (imported.kept ++ binding.kept)
  | .element opening closing children extra =>
    .object extra :: (opening.kept ++ (closing.kept ++ Node.keptAll children))
  | .attr name none extra => .object extra :: name.kept
  | .attr name (some value) extra => .object extra :: (name.kept ++ value.kept)
  | .container expression extra => .object extra :: expression.kept
  | .jsxIdentifier _ extra => [.object extra]
  | .literal text => [.object text.extra]
  | .identifier _ extra => [.object extra]
  | .other _ fields => Field.keptFields fields

def Node.keptAll : List Node → List Json
  | [] => []
  | node :: rest => node.kept ++ Node.keptAll rest

def Opening.kept : Opening → List Json
  | .tag name attributes _ extra => .object extra :: (name.kept ++ Node.keptAll attributes)

def Closing.kept : Closing → List Json
  | .missing => []
  | .tag name extra => .object extra :: name.kept

def Field.kept : Field → List Json
  | .node inner => inner.kept
  | .list items => Field.keptAll items
  | .plain value => [value]

def Field.keptAll : List Field → List Json
  | [] => []
  | field :: rest => field.kept ++ Field.keptAll rest

def Field.keptFields : List (String × Field) → List Json
  | [] => []
  | (_, field) :: rest => field.kept ++ Field.keptFields rest

end

namespace Json

variable {kind : Number → Prop}

@[simp]
theorem tidy_null : null.Tidy kind := ⟨trivial, List.forall_mem_nil _⟩

@[simp]
theorem tidy_bool (flag : Bool) : (bool flag).Tidy kind := ⟨trivial, List.forall_mem_nil _⟩

@[simp]
theorem tidy_string (text : String) : (string text).Tidy kind := ⟨trivial, List.forall_mem_nil _⟩

end Json

section Tidy

open Members (tidy_ofKind)

variable {kind : Number → Prop}

theorem Literal.tidy_encode_iff {text : Literal} (lacks : text.extra.Lacks Kind.literal.keys) :
    (Node.literal text).encode.Tidy kind ↔ (Json.object text.extra).Tidy kind := by
  refine (tidy_ofKind lacks "StringLiteral" [("value", .string text.value)] rfl (by decide)).trans ?_
  simp

/-- The fields of a node of another kind are written under their own names beside its kind. -/
theorem Field.tidy_encodeFields_iff {fields : List (String × Field)} {name : String}
    (sorted : Keyed.Sorted Prod.fst fields) (untyped : "type" ∉ fields.map Prod.fst) :
    (Node.other name fields).encode.Tidy kind ↔
      ∀ member ∈ Field.encodeFields fields, member.2.Tidy kind := by
  have names := Node.names_encodeFields fields
  have distinct : (fields.map Prod.fst).Nodup :=
    List.pairwise_map.mpr (sorted.imp Text.ne_of_before)
  have free : ∀ part ∈ Field.encodeFields fields,
      Members.get? [("type", .string name)] part.1 = none := by
    intro part listed
    have named : part.1 ∈ fields.map Prod.fst := names ▸ List.mem_map.mpr ⟨part, listed, rfl⟩
    have apart : "type" ≠ part.1 := fun same => untyped (same ▸ named)
    simp [Members.get?, Keyed.get?, apart]
  have only : Members.Tidy kind [("type", .string name)] :=
    ⟨List.pairwise_singleton _ _, List.forall_mem_singleton.mpr (Json.tidy_string name)⟩
  rw [Node.encode, Json.tidy_object, ← Members.Tidy, Members.tidy_putAll (names ▸ distinct) free]
  exact and_iff_left only

mutual

/-- A well-formed node is written tidily just if what it keeps is tidy. -/
theorem Node.tidy_encode_iff : (node : Node) → node.WellFormed →
    (node.encode.Tidy kind ↔ ∀ value ∈ node.kept, value.Tidy kind)
  | .importDeclaration specifiers source extra, fitting => by
    obtain ⟨listed, origin, lacks⟩ := fitting
    refine (tidy_ofKind lacks "ImportDeclaration" [("specifiers", .array (Node.encodeAll specifiers)),
      ("source", (Node.literal source).encode)] rfl (by decide)).trans ?_
    simp [Node.kept, Json.tidy_array, Node.tidy_encodeAll_iff specifiers listed,
      Literal.tidy_encode_iff origin, and_comm]
  | .importSpecifier imported binding extra, fitting => by
    obtain ⟨first, second, lacks⟩ := fitting
    refine (tidy_ofKind lacks "ImportSpecifier"
      [("imported", imported.encode), ("local", binding.encode)] rfl (by decide)).trans ?_
    simp [Node.kept, Node.tidy_encode_iff imported first, Node.tidy_encode_iff binding second, or_imp,
      forall_and]
  | .element opening closing children extra, fitting => by
    obtain ⟨opened, closed, inside, lacks⟩ := fitting
    refine (tidy_ofKind lacks "JSXElement" [("openingElement", opening.encode),
      ("closingElement", closing.encode), ("children", .array (Node.encodeAll children))] rfl
        (by decide)).trans ?_
    simp [Node.kept, Json.tidy_array, Opening.tidy_encode_iff opening opened,
      Closing.tidy_encode_iff closing closed, Node.tidy_encodeAll_iff children inside, or_imp,
      forall_and]
  | .attr name none extra, fitting => by
    obtain ⟨named, lacks⟩ := fitting
    refine (tidy_ofKind lacks "JSXAttribute" [("name", name.encode), ("value", .null)] rfl
      (by decide)).trans ?_
    simp [Node.kept, Node.tidy_encode_iff name named]
  | .attr name (some value) extra, fitting => by
    obtain ⟨named, given, lacks⟩ := fitting
    refine (tidy_ofKind lacks "JSXAttribute" [("name", name.encode), ("value", value.encode)] rfl
      (by decide)).trans ?_
    simp [Node.kept, Node.tidy_encode_iff name named, Node.tidy_encode_iff value given, or_imp,
      forall_and]
  | .container expression extra, fitting => by
    obtain ⟨inner, lacks⟩ := fitting
    refine (tidy_ofKind lacks "JSXExpressionContainer" [("expression", expression.encode)] rfl
      (by decide)).trans ?_
    simp [Node.kept, Node.tidy_encode_iff expression inner]
  | .jsxIdentifier name extra, lacks => by
    refine (tidy_ofKind lacks "JSXIdentifier" [("name", .string name)] rfl (by decide)).trans ?_
    simp [Node.kept]
  | .literal text, lacks => by
    rw [Literal.tidy_encode_iff lacks, Node.kept, List.forall_mem_singleton]
  | .identifier name extra, lacks => by
    refine (tidy_ofKind lacks "Identifier" [("name", .string name)] rfl (by decide)).trans ?_
    simp [Node.kept]
  | .other name fields, fitting => by
    obtain ⟨_, sorted, untyped, inner⟩ := fitting
    rw [Field.tidy_encodeFields_iff sorted untyped, Node.kept]
    exact Field.tidy_keptFields_iff fields inner

theorem Node.tidy_encodeAll_iff : (nodes : List Node) → Node.WellFormedAll nodes →
    ((∀ value ∈ Node.encodeAll nodes, value.Tidy kind) ↔
      ∀ value ∈ Node.keptAll nodes, value.Tidy kind)
  | [], _ => by simp [Node.encodeAll, Node.keptAll]
  | node :: rest, fitting => by
    rw [Node.encodeAll, Node.keptAll, List.forall_mem_cons, List.forall_mem_append,
      Node.tidy_encode_iff node fitting.1, Node.tidy_encodeAll_iff rest fitting.2]

theorem Opening.tidy_encode_iff : (opening : Opening) → opening.WellFormed →
    (opening.encode.Tidy kind ↔ ∀ value ∈ opening.kept, value.Tidy kind)
  | .tag name attributes selfClosing extra, fitting => by
    obtain ⟨named, listed, lacks⟩ := fitting
    refine (tidy_ofKind lacks "JSXOpeningElement" [("name", name.encode),
      ("attributes", .array (Node.encodeAll attributes)), ("selfClosing", .bool selfClosing)] rfl
        (by decide)).trans ?_
    simp [Opening.kept, Json.tidy_array, Node.tidy_encode_iff name named,
      Node.tidy_encodeAll_iff attributes listed, or_imp, forall_and]

theorem Closing.tidy_encode_iff : (closing : Closing) → closing.WellFormed →
    (closing.encode.Tidy kind ↔ ∀ value ∈ closing.kept, value.Tidy kind)
  | .missing, _ => by simp [Closing.encode, Closing.kept]
  | .tag name extra, fitting => by
    obtain ⟨named, lacks⟩ := fitting
    refine (tidy_ofKind lacks "JSXClosingElement" [("name", name.encode)] rfl (by decide)).trans ?_
    simp [Closing.kept, Node.tidy_encode_iff name named]

theorem Field.tidy_encode_iff : (field : Field) → field.WellFormed →
    (field.encode.Tidy kind ↔ ∀ value ∈ field.kept, value.Tidy kind)
  | .node inner, fitting => Node.tidy_encode_iff inner fitting
  | .list items, fitting => by
    rw [Field.encode, Json.tidy_array, Field.kept]
    exact Field.tidy_encodeAll_iff items fitting
  | .plain value, _ => by rw [Field.encode, Field.kept, List.forall_mem_singleton]

theorem Field.tidy_encodeAll_iff : (fields : List Field) → Field.WellFormedAll fields →
    ((∀ value ∈ Field.encodeAll fields, value.Tidy kind) ↔
      ∀ value ∈ Field.keptAll fields, value.Tidy kind)
  | [], _ => by simp [Field.encodeAll, Field.keptAll]
  | field :: rest, fitting => by
    rw [Field.encodeAll, Field.keptAll, List.forall_mem_cons, List.forall_mem_append,
      Field.tidy_encode_iff field fitting.1, Field.tidy_encodeAll_iff rest fitting.2]

theorem Field.tidy_keptFields_iff : (fields : List (String × Field)) →
    Field.WellFormedFields fields →
      ((∀ member ∈ Field.encodeFields fields, member.2.Tidy kind) ↔
        ∀ value ∈ Field.keptFields fields, value.Tidy kind)
  | [], _ => by simp [Field.encodeFields, Field.keptFields]
  | (name, field) :: rest, fitting => by
    rw [Field.encodeFields, Field.keptFields, List.forall_mem_cons, List.forall_mem_append,
      Field.tidy_encode_iff field fitting.1, Field.tidy_keptFields_iff rest fitting.2]

end

end Tidy

def SourceFile.kept (source : SourceFile) : List Json :=
  source.file.toList.map .object ++ .object source.program.extra :: Node.keptAll source.program.body

theorem SourceFile.tidy_encode_iff {kind : Number → Prop} {source : SourceFile}
    (fitting : source.WellFormed) :
    source.encode.Tidy kind ↔ ∀ value ∈ source.kept, value.Tidy kind := by
  obtain ⟨⟨body, extra⟩, file⟩ := source
  obtain ⟨⟨inside, lacks⟩, around⟩ := fitting
  have program : (Program.encode ⟨body, extra⟩).Tidy kind ↔
      (Json.object extra).Tidy kind ∧ ∀ value ∈ Node.keptAll body, value.Tidy kind := by
    refine (Members.tidy_ofKind lacks "Program" [("body", .array (Node.encodeAll body))] rfl
      (by decide)).trans ?_
    simp [Json.tidy_array, Node.tidy_encodeAll_iff body inside]
  cases file with
  | none => simp [kept, encode, program]
  | some outer =>
    refine (Members.tidy_ofKind (around outer rfl) "File"
      [("program", Program.encode ⟨body, extra⟩)] rfl (by decide)).trans ?_
    simp [kept, program]

end Caption
