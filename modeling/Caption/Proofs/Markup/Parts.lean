import Caption.Markup.Source
import Caption.Proofs.Json.Members

/-!
The members that a node is read from: which of them are structural, when one is there and is read as
a part, and what is left of the object besides them.
-/
namespace Caption

theorem Except.bind_eq_ok {ε α β : Type} {first : Except ε α} {next : α → Except ε β} {result : β} :
    (first >>= next) = .ok result ↔ ∃ value, first = .ok value ∧ next value = .ok result := by
  cases first <;> simp [bind, Except.bind]

theorem Except.bind_eq_error {ε α β : Type} {first : Except ε α} {next : α → Except ε β}
    {error : ε} :
    (first >>= next) = .error error ↔
      first = .error error ∨ ∃ value, first = .ok value ∧ next value = .error error := by
  cases first <;> simp [bind, Except.bind]

theorem Except.ok_bind {ε α β : Type} (value : α) (next : α → Except ε β) :
    (Except.ok value >>= next) = next value := rfl

theorem Except.pure_eq_ok {ε α : Type} {value result : α} :
    (pure value : Except ε α) = .ok result ↔ value = result := by
  simp [pure, Except.pure]

namespace Kind

def keys : Kind → List String
  | .importDeclaration => ["specifiers", "source"]
  | .importSpecifier => ["imported", "local"]
  | .element => ["openingElement", "closingElement", "children"]
  | .attr => ["name", "value"]
  | .container => ["expression"]
  | .jsxIdentifier => ["name"]
  | .literal => ["value"]
  | .identifier => ["name"]
  | .other _ => []

theorem name_ofName (name : String) : (ofName name).name = name := by
  unfold ofName
  repeat' split
  all_goals simp_all [Kind.name]

end Kind

def Kind.typedNames : List String :=
  ["ImportDeclaration", "ImportSpecifier", "JSXElement", "JSXAttribute", "JSXExpressionContainer",
    "JSXIdentifier", "StringLiteral", "Identifier"]

theorem Kind.ofName_eq_other {name : String} :
    Kind.ofName name = .other name ↔ name ∉ Kind.typedNames := by
  simp only [Kind.ofName, Kind.typedNames, List.mem_cons, List.not_mem_nil, or_false]
  grind

def Opening.keys : List String := ["name", "attributes", "selfClosing"]

def Closing.keys : List String := ["name"]

def Program.keys : List String := ["body"]

def SourceFile.keys : List String := ["program"]

namespace Members

variable {members : Members} {key kind field : String} {value : Json} {items : List Json}

/-- Whether the member of a key is read as a part of a node. -/
def Holds {α : Type} (read : Json → Except DecodeError α) (members : Members) (key : String)
    (part : α) : Prop :=
  ∃ value, members.get? key = some value ∧ read value = .ok part

/-- Whether the member of a key is read as a node. -/
abbrev HoldsNode : Members → String → Node → Prop := Holds Node.decode

/-- Whether the member of a key is an array that is read as nodes. -/
def HoldsNodes (members : Members) (key : String) (nodes : List Node) : Prop :=
  ∃ items, members.get? key = some (.array items) ∧ Node.decodeAll items = .ok nodes

section Written

variable (members : Members) (key : String) (value : Json) (other : String)

@[simp]
theorem holds_set {α : Type} (read : Json → Except DecodeError α) (part : α) :
    (members.set key value).Holds read other part ↔
      if key = other then read value = .ok part else members.Holds read other part := by
  rw [Holds, get?_set]
  split <;> simp [Holds]

@[simp]
theorem holdsNodes_set (nodes : List Node) :
    (members.set key value).HoldsNodes other nodes ↔
      if key = other then ∃ items, value = .array items ∧ Node.decodeAll items = .ok nodes
      else members.HoldsNodes other nodes := by
  rw [HoldsNodes, get?_set]
  split <;> simp [HoldsNodes]

end Written

section Lookups

theorem find?_val (members : Members) (key : String) :
    (members.find? key).map Subtype.val = members.get? key := by
  induction members with
  | nil => rfl
  | cons head rest ih =>
    obtain ⟨name, value⟩ := head
    by_cases same : name = key
    · simp [find?, get?, Keyed.get?, same]
    · have found : get? ((name, value) :: rest) key = get? rest key := by
        simp [get?, Keyed.get?, same]
      rw [found, ← ih, find?, if_neg same]
      cases find? rest key <;> rfl

theorem typeName_eq_ok {name : String} :
    members.typeName = .ok name ↔ members.get? "type" = some (.string name) := by
  unfold typeName
  split <;> simp_all

theorem get?_of_require {fits : sizeOf value < sizeOf members}
    (required : members.require kind field = .ok ⟨value, fits⟩) :
    members.get? field = some value := by
  rw [require] at required
  split at required
  · cases required
  · rename_i found
    obtain rfl := Except.ok.inj required
    rw [← find?_val, found]
    rfl

theorem require_of_get? (given : members.get? field = some value) (kind : String) :
    ∃ fits, members.require kind field = .ok ⟨value, fits⟩ := by
  rw [← find?_val] at given
  obtain ⟨⟨first, fits⟩, found, rfl⟩ := Option.map_eq_some_iff.mp given
  exact ⟨fits, by rw [require, found]⟩

theorem get?_of_requireArray {fits : sizeOf items < sizeOf members}
    (required : members.requireArray kind field = .ok ⟨items, fits⟩) :
    members.get? field = some (.array items) := by
  obtain ⟨⟨value, within⟩, given, read⟩ := Except.bind_eq_ok.mp required
  cases value with
  | array others =>
    obtain rfl := Subtype.mk.inj (Except.pure_eq_ok.mp read)
    exact get?_of_require given
  | _ => cases read

theorem requireArray_of_get? (given : members.get? field = some (.array items)) (kind : String) :
    ∃ fits, members.requireArray kind field = .ok ⟨items, fits⟩ := by
  obtain ⟨fits, required⟩ := require_of_get? given kind
  exact ⟨_, Except.bind_eq_ok.mpr ⟨_, required, rfl⟩⟩

theorem requireString_eq_ok {text : String} :
    members.requireString kind field = .ok text ↔ members.get? field = some (.string text) := by
  rw [requireString, Except.bind_eq_ok]
  constructor
  · rintro ⟨⟨value, fits⟩, required, read⟩
    cases value with
    | string other =>
      obtain rfl := Except.pure_eq_ok.mp read
      exact get?_of_require required
    | _ => cases read
  · intro given
    obtain ⟨fits, required⟩ := require_of_get? given kind
    exact ⟨_, required, rfl⟩

theorem flag_eq_ok {value : Bool} :
    members.flag kind field = .ok value ↔ members.getD field (.bool false) = .bool value := by
  rw [flag, getD]
  split
  · rename_i missing
    simp [missing]
  · rename_i given
    simp [given]
  · rename_i other notBool given
    simp only [given, reduceCtorEq, Option.getD_some, false_iff]
    exact notBool value

end Lookups

section Parts

variable {α β : Type} {result : β}

theorem bind_read_eq_ok (read : Json → Except DecodeError α) {next : α → Except DecodeError β} :
    (members.require kind field >>= fun found => read found.1 >>= next) = .ok result ↔
      ∃ part, members.Holds read field part ∧ next part = .ok result := by
  simp only [Except.bind_eq_ok, Holds]
  constructor
  · rintro ⟨⟨value, fits⟩, required, part, given, done⟩
    exact ⟨part, ⟨value, get?_of_require required, given⟩, done⟩
  · rintro ⟨part, ⟨value, given, decoded⟩, done⟩
    obtain ⟨fits, required⟩ := require_of_get? given kind
    exact ⟨_, required, part, decoded, done⟩

theorem bind_decodeAll_eq_ok {next : List Node → Except DecodeError β} :
    (members.requireArray kind field >>= fun found => Node.decodeAll found.1 >>= next) =
        .ok result ↔
      ∃ nodes, members.HoldsNodes field nodes ∧ next nodes = .ok result := by
  simp only [Except.bind_eq_ok, HoldsNodes]
  constructor
  · rintro ⟨⟨items, fits⟩, required, nodes, decoded, done⟩
    exact ⟨nodes, ⟨items, get?_of_requireArray required, decoded⟩, done⟩
  · rintro ⟨nodes, ⟨items, given, decoded⟩, done⟩
    obtain ⟨fits, required⟩ := requireArray_of_get? given kind
    exact ⟨_, required, nodes, decoded, done⟩

end Parts

end Members

end Caption
