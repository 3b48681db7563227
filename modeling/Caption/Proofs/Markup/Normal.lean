import Caption.Proofs.Json.Canonical
import Caption.Proofs.Markup.Parts

/-!
The normal form of the value of a syntax tree. A few members are there even if they were missing, and
a tag has its own type; nothing else differs, and nothing that is not read as a node does.
-/
namespace Caption

/-- How a value is taken when a syntax tree is read. -/
inductive Role where
  /-- As it is. -/
  | kept
  /-- As a node, or as nodes in lists of any depth. -/
  | node
  | opening
  | closing
  | program
  | root
deriving DecidableEq

namespace Members

/-- Set the value of a member unless there is one. -/
def setMissing (members : Members) (key : String) (value : Json) : Members :=
  match members.get? key with
  | none => members.set key value
  | some _ => members

end Members

namespace Role

def items : Role → Role
  | .node => .node
  | _ => .kept

def ofMember (kind : Kind) (key : String) : Role :=
  match kind with
  | .element =>
    if key = "openingElement" then .opening
    else if key = "closingElement" then .closing
    else if key = "children" then .node
    else .kept
  | .jsxIdentifier => .kept
  | .literal => .kept
  | .identifier => .kept
  | .other _ => .node
  | kind => if key ∈ kind.keys then .node else .kept

def member (role : Role) (kind key : String) : Role :=
  match role with
  | .kept => .kept
  | .node => ofMember (Kind.ofName kind) key
  | .opening => if key = "name" ∨ key = "attributes" then .node else .kept
  | .closing => if key = "name" then .node else .kept
  | .program => if key = "body" then .node else .kept
  | .root =>
    if kind = "File" then if key = "program" then .program else .kept
    else if key = "body" then .node
    else .kept

/-- The structural members of an object of some `type`. -/
def keys (role : Role) (kind : String) : List String :=
  match role with
  | .kept => []
  | .node => (Kind.ofName kind).keys
  | .opening => Opening.keys
  | .closing => Closing.keys
  | .program => Program.keys
  | .root => if kind = "File" then SourceFile.keys else Program.keys

/-- The members with those that are always written. -/
def complete (role : Role) (kind : String) (members : Members) : Members :=
  match role with
  | .node =>
    match Kind.ofName kind with
    | .element => members.setMissing "closingElement" .null
    | .attr => members.setMissing "value" .null
    | _ => members
  | .opening =>
    (members.setMissing "selfClosing" (.bool false)).set "type" (.string "JSXOpeningElement")
  | .closing => members.set "type" (.string "JSXClosingElement")
  | _ => members

end Role

mutual

/-- A value in the form in which a syntax tree is written. -/
def Json.normalized (role : Role) : Json → Json
  | .array items => .array (Json.normalizedItems role.items items)
  | .object members =>
    match Members.get? members "type" with
    | some (.string kind) =>
      .object (role.complete kind (Json.normalizedMembers (role.member kind) members))
    | _ => .object members
  | .null => .null
  | .bool value => .bool value
  | .number value => .number value
  | .string value => .string value

def Json.normalizedItems (role : Role) : List Json → List Json
  | [] => []
  | item :: rest => item.normalized role :: Json.normalizedItems role rest

def Json.normalizedMembers (roles : String → Role) : List (String × Json) → List (String × Json)
  | [] => []
  | (key, value) :: rest => (key, value.normalized (roles key)) :: Json.normalizedMembers roles rest

end

/-- Whether an object of some `type` has that of its tag and the members that are always written. -/
def Role.IsComplete (role : Role) (kind : String) (members : Members) : Prop :=
  match role with
  | .node =>
    match Kind.ofName kind with
    | .element => (members.get? "closingElement").isSome
    | .attr => (members.get? "value").isSome
    | _ => True
  | .opening => kind = "JSXOpeningElement" ∧ (members.get? "selfClosing").isSome
  | .closing => kind = "JSXClosingElement"
  | _ => True

mutual

/-- Whether a value has the form in which a syntax tree is written. -/
def Json.IsNormal (role : Role) : Json → Prop
  | .array items => Json.NormalItems role.items items
  | .object members =>
    match Members.get? members "type" with
    | some (.string kind) =>
      role.IsComplete kind members ∧ Json.NormalMembers (role.member kind) members
    | _ => True
  | .null => True
  | .bool _ => True
  | .number _ => True
  | .string _ => True

def Json.NormalItems (role : Role) : List Json → Prop
  | [] => True
  | item :: rest => item.IsNormal role ∧ Json.NormalItems role rest

def Json.NormalMembers (roles : String → Role) : List (String × Json) → Prop
  | [] => True
  | (key, value) :: rest => value.IsNormal (roles key) ∧ Json.NormalMembers roles rest

end

namespace Members

variable {members : Members} {keys : List String}

theorem sorted_setMissing (sorted : members.Sorted) (key : String) (value : Json) :
    (members.setMissing key value).Sorted := by
  rw [setMissing]
  split
  · exact sorted_set sorted
  · exact sorted

@[simp]
theorem get?_setMissing (members : Members) (key : String) (value : Json) (other : String) :
    (members.setMissing key value).get? other =
      if key = other then some (members.getD key value) else members.get? other := by
  rw [setMissing, getD]
  split
  · rename_i missing
    rw [get?_set, missing, Option.getD_none]
  · rename_i first found
    split
    · rename_i same
      rw [← same, found, Option.getD_some]
    · rfl

@[simp]
theorem besides_setMissing {key : String} (structural : key ∈ "type" :: keys) (members : Members)
    (value : Json) : (members.setMissing key value).besides keys = members.besides keys := by
  rw [setMissing]
  split
  · exact besides_set structural members value
  · rfl

theorem setMissing_eq_self {key : String} {value : Json} (given : (members.get? key).isSome) :
    members.setMissing key value = members := by
  obtain ⟨found, lookup⟩ := Option.isSome_iff_exists.mp given
  rw [setMissing, lookup]

end Members

namespace Json

variable {members : Members} {keys : List String} {roles : String → Role}

theorem names_normalizedMembers (roles : String → Role) (members : Members) :
    (normalizedMembers roles members).map Prod.fst = members.map Prod.fst := by
  induction members with
  | nil => rfl
  | cons head rest ih => simp [normalizedMembers, ih]

theorem sorted_normalizedMembers (sorted : members.Sorted) (roles : String → Role) :
    Members.Sorted (normalizedMembers roles members) :=
  (Keyed.sorted_congr (names_normalizedMembers roles members)).mpr sorted

@[simp]
theorem get?_normalizedMembers (roles : String → Role) (members : Members) (name : String) :
    Members.get? (normalizedMembers roles members) name =
      (members.get? name).map (normalized (roles name)) := by
  induction members with
  | nil => rfl
  | cons head rest ih =>
    obtain ⟨key, value⟩ := head
    rw [Members.get?, Members.get?, Keyed.get?, Keyed.get?] at ih ⊢
    by_cases same : key = name
    · simp [normalizedMembers, same]
    · simpa [normalizedMembers, same] using ih

theorem getD_normalizedMembers {missing : Json} {name : String}
    (fixed : missing.normalized (roles name) = missing) :
    Members.getD (normalizedMembers roles members) name missing =
      (members.getD name missing).normalized (roles name) := by
  rw [Members.getD, get?_normalizedMembers, Members.getD]
  cases members.get? name with
  | none => exact fixed.symm
  | some value => rfl

theorem besides_normalizedMembers (roles : String → Role) (members : Members) (keys : List String) :
    Members.besides (normalizedMembers roles members) keys =
      normalizedMembers roles (members.besides keys) := by
  induction members with
  | nil => rfl
  | cons head rest ih =>
    obtain ⟨key, value⟩ := head
    rw [Members.besides, Members.besides] at ih ⊢
    rw [normalizedMembers, List.filter_cons, List.filter_cons]
    split
    · rw [normalizedMembers, ih]
    · exact ih

theorem normalizedMembers_congr {others : String → Role}
    (same : ∀ member ∈ members, roles member.1 = others member.1) :
    normalizedMembers roles members = normalizedMembers others members := by
  induction members with
  | nil => rfl
  | cons head rest ih =>
    rw [normalizedMembers, normalizedMembers, same head List.mem_cons_self,
      ih fun member later => same member (List.mem_cons_of_mem _ later)]

mutual

theorem normalized_kept : (value : Json) → value.normalized .kept = value
  | .array items => by
    rw [normalized]
    exact congrArg _ (normalizedItems_kept items)
  | .object members => by
    rw [normalized]
    split
    · exact congrArg _ (normalizedMembers_kept members)
    · rfl
  | .null => rfl
  | .bool _ => rfl
  | .number _ => rfl
  | .string _ => rfl

theorem normalizedItems_kept : (items : List Json) → normalizedItems .kept items = items
  | [] => rfl
  | item :: rest => by rw [normalizedItems, normalized_kept item, normalizedItems_kept rest]

theorem normalizedMembers_kept :
    (members : List (String × Json)) → normalizedMembers (fun _ => .kept) members = members
  | [] => rfl
  | (key, value) :: rest => by
    rw [normalizedMembers, normalized_kept value, normalizedMembers_kept rest]

end

theorem besides_normalizedMembers_of_kept (kept : ∀ name ∉ "type" :: keys, roles name = .kept) :
    Members.besides (normalizedMembers roles members) keys = members.besides keys := by
  have same : normalizedMembers roles (members.besides keys) =
      normalizedMembers (fun _ => .kept) (members.besides keys) :=
    normalizedMembers_congr fun member present =>
      kept member.1 (Members.lacks_besides members keys member present)
  rw [besides_normalizedMembers, same, normalizedMembers_kept]

theorem normalized_object {kind : String} (named : members.get? "type" = some (.string kind))
    (role : Role) :
    (object members).normalized role =
      .object (role.complete kind (normalizedMembers (role.member kind) members)) := by
  rw [normalized, named]

end Json

namespace Role

theorem sorted_complete {members : Members} (sorted : members.Sorted) (role : Role) (kind : String) :
    (role.complete kind members).Sorted := by
  unfold complete
  split
  · split
    · exact Members.sorted_setMissing sorted _ _
    · exact Members.sorted_setMissing sorted _ _
    · exact sorted
  · exact Members.sorted_set (Members.sorted_setMissing sorted _ _)
  · exact Members.sorted_set sorted
  · exact sorted

/-- Only structural members are always written. -/
theorem besides_complete (role : Role) (kind : String) (members : Members) :
    (role.complete kind members).besides (role.keys kind) = members.besides (role.keys kind) := by
  unfold complete
  split
  · split <;> simp [keys, Kind.keys, *]
  · simp [keys, Opening.keys]
  · simp
  · rfl

theorem member_eq_kept {role : Role} {kind name : String}
    (typed : role = .node → kind ∈ Kind.typedNames) (other : name ∉ "type" :: role.keys kind) :
    role.member kind name = .kept := by
  have apart : name ∉ role.keys kind := fun structural => other (List.mem_cons_of_mem _ structural)
  cases role with
  | kept => rfl
  | node =>
    have own : Kind.ofName kind ≠ .other kind :=
      fun same => Kind.ofName_eq_other.mp same (typed rfl)
    have spelled := Kind.name_ofName kind
    rw [keys] at apart
    rw [member]
    cases found : Kind.ofName kind with
    | other label =>
      rw [found] at spelled own
      exact absurd (congrArg Kind.other spelled) own
    | _ => simp_all [ofMember, Kind.keys]
  | root =>
    rw [keys] at apart
    rw [member]
    split <;> simp_all [SourceFile.keys, Program.keys]
  | _ => simp_all [keys, member, Opening.keys, Closing.keys, Program.keys]

end Role

/-- Members are the normal form of others if they agree on the structural ones and the others are
kept. -/
theorem Json.object_eq_normalized {members written : Members} {kind : String} {role : Role}
    (sorted : members.Sorted) (named : members.get? "type" = some (.string kind))
    (typed : role = .node → kind ∈ Kind.typedNames) (increasing : written.Sorted)
    (others : written.besides (role.keys kind) = members.besides (role.keys kind))
    (parts : ∀ name ∈ "type" :: role.keys kind, written.get? name =
      (role.complete kind (Json.normalizedMembers (role.member kind) members)).get? name) :
    Json.object written = (Json.object members).normalized role := by
  rw [Json.normalized_object named]
  refine congrArg _ (Members.ext_besides _ increasing ?_ ?_ parts)
  · exact Role.sorted_complete (Json.sorted_normalizedMembers sorted _) role kind
  · rw [others, Role.besides_complete, Json.besides_normalizedMembers_of_kept]
    exact fun name other => Role.member_eq_kept typed other

namespace Role

variable {members : Members} {role : Role} {kind : String}

theorem isComplete_complete
    (named : (role.complete kind members).get? "type" = some (.string kind)) :
    role.IsComplete kind (role.complete kind members) := by
  unfold IsComplete
  split
  · split <;> simp [complete, *]
  · simp [complete] at named
    simp [complete, named]
  · simp [complete] at named
    exact named.symm
  · trivial

theorem isComplete_normalizedMembers {roles : String → Role} :
    role.IsComplete kind (Json.normalizedMembers roles members) ↔ role.IsComplete kind members := by
  simp only [IsComplete, Json.get?_normalizedMembers, Option.isSome_map]

theorem complete_eq_self (sorted : members.Sorted)
    (named : members.get? "type" = some (.string kind)) (whole : role.IsComplete kind members) :
    role.complete kind members = members := by
  unfold complete
  unfold IsComplete at whole
  cases role with
  | node =>
    simp only at whole ⊢
    split at whole <;> simp_all [Members.setMissing_eq_self]
  | opening =>
    obtain ⟨rfl, given⟩ := whole
    rw [Members.setMissing_eq_self given]
    exact Members.set_eq_self sorted named
  | closing =>
    obtain rfl := whole
    exact Members.set_eq_self sorted named
  | _ => rfl

/-- Completing the normal forms of members changes nothing just if the members are complete and
their normal forms are themselves. -/
theorem complete_normalizedMembers_eq_self_iff {roles : String → Role} (sorted : members.Sorted)
    (named : members.get? "type" = some (.string kind)) :
    role.complete kind (Json.normalizedMembers roles members) = members ↔
      role.IsComplete kind members ∧ Json.normalizedMembers roles members = members := by
  have increasing := Json.sorted_normalizedMembers sorted roles
  have again : Members.get? (Json.normalizedMembers roles members) "type" = some (.string kind) := by
    simp [named, Json.normalized]
  constructor
  · intro same
    -- What is always written is in the result, which is the members themselves.
    have whole : role.IsComplete kind members := by
      rw [← same] at named ⊢
      exact isComplete_complete named
    have inner := complete_eq_self increasing again (isComplete_normalizedMembers.mpr whole)
    exact ⟨whole, inner.symm.trans same⟩
  · rintro ⟨whole, same⟩
    rw [same]
    exact complete_eq_self sorted named whole

end Role

namespace Json

mutual

theorem normalized_eq_self_iff : (value : Json) → ∀ {role : Role}, value.Canonical →
    (value.normalized role = value ↔ value.IsNormal role)
  | .array items, role, canonical => by
    rw [normalized, IsNormal, ← normalizedItems_eq_self_iff items canonical, array.injEq]
  | .object members, role, canonical => by
    rw [normalized, IsNormal]
    split
    · rename_i kind named
      rw [object.injEq, Role.complete_normalizedMembers_eq_self_iff canonical.1 named,
        normalizedMembers_eq_self_iff members canonical.2]
    · simp
  | .null, role, _ => by simp [normalized, IsNormal]
  | .bool _, role, _ => by simp [normalized, IsNormal]
  | .number _, role, _ => by simp [normalized, IsNormal]
  | .string _, role, _ => by simp [normalized, IsNormal]

theorem normalizedItems_eq_self_iff : (items : List Json) → ∀ {role : Role}, CanonicalItems items →
    (normalizedItems role items = items ↔ NormalItems role items)
  | [], role, _ => by simp [normalizedItems, NormalItems]
  | item :: rest, role, canonical => by
    rw [normalizedItems, NormalItems, List.cons.injEq, normalized_eq_self_iff item canonical.1,
      normalizedItems_eq_self_iff rest canonical.2]

theorem normalizedMembers_eq_self_iff : (members : List (String × Json)) →
    ∀ {roles : String → Role}, CanonicalMembers members →
      (normalizedMembers roles members = members ↔ NormalMembers roles members)
  | [], roles, _ => by simp [normalizedMembers, NormalMembers]
  | (key, value) :: rest, roles, canonical => by
    rw [normalizedMembers, NormalMembers, List.cons.injEq, Prod.mk.injEq,
      normalized_eq_self_iff value canonical.1, normalizedMembers_eq_self_iff rest canonical.2]
    simp

end

end Json

end Caption
