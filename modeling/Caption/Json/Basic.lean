import Caption.Json.Number
import Caption.Order

/-!
JSON values. The members of an object are kept in the order of their keys; `Json.Canonical` says
so at every depth.
-/
namespace Caption

inductive Json where
  | null
  | bool (value : Bool)
  | number (value : Number)
  | string (value : String)
  | array (items : List Json)
  | object (members : List (String × Json))
deriving Inhabited

abbrev Members := List (String × Json)

namespace Members

def get? (members : Members) (key : String) : Option Json :=
  (Keyed.get? Prod.fst key members).map Prod.snd

def set (members : Members) (key : String) (value : Json) : Members :=
  Keyed.put Prod.fst (key, value) members

/-- The other members. -/
def without (members : Members) (key : String) : Members :=
  Keyed.remove Prod.fst key members

/-- The object in which the last value of a repeated key stays. -/
def ofList (entries : List (String × Json)) : Members :=
  Keyed.putAll Prod.fst entries []

/-- Keys strictly increase. -/
def Sorted (members : Members) : Prop := Keyed.Sorted Prod.fst members

end Members

namespace Json

def kindName : Json → String
  | .null => "null"
  | .bool _ => "boolean"
  | .number _ => "number"
  | .string _ => "string"
  | .array _ => "array"
  | .object _ => "object"

def text? : Json → Option String
  | .string value => some value
  | _ => none

mutual

/-- Containers that enclose one another. -/
def depth : Json → Nat
  | .array items => depthOfItems items + 1
  | .object members => depthOfMembers members + 1
  | _ => 0

def depthOfItems : List Json → Nat
  | [] => 0
  | item :: rest => Nat.max item.depth (depthOfItems rest)

def depthOfMembers : List (String × Json) → Nat
  | [] => 0
  | (_, value) :: rest => Nat.max value.depth (depthOfMembers rest)

end

mutual

/-- Every object has strictly increasing keys. -/
def Canonical : Json → Prop
  | .array items => CanonicalItems items
  | .object members => Members.Sorted members ∧ CanonicalMembers members
  | _ => True

def CanonicalItems : List Json → Prop
  | [] => True
  | item :: rest => item.Canonical ∧ CanonicalItems rest

def CanonicalMembers : List (String × Json) → Prop
  | [] => True
  | (_, value) :: rest => value.Canonical ∧ CanonicalMembers rest

end

mutual

def same : Json → Json → Bool
  | .null, .null => true
  | .bool left, .bool right => left == right
  | .number left, .number right => decide (left = right)
  | .string left, .string right => left == right
  | .array left, .array right => sameItems left right
  | .object left, .object right => sameMembers left right
  | _, _ => false

def sameItems : List Json → List Json → Bool
  | [], [] => true
  | left :: lefts, right :: rights => left.same right && sameItems lefts rights
  | _, _ => false

def sameMembers : List (String × Json) → List (String × Json) → Bool
  | [], [] => true
  | (key, left) :: lefts, (name, right) :: rights =>
    key == name && left.same right && sameMembers lefts rights
  | _, _ => false

end

mutual

theorem same_iff : (left right : Json) → (left.same right = true ↔ left = right)
  | .null, right => by cases right <;> simp [same]
  | .bool _, right => by cases right <;> simp [same]
  | .number _, right => by cases right <;> simp [same]
  | .string _, right => by cases right <;> simp [same]
  | .array items, right => by
    cases right with
    | array others => simp [same, sameItems_iff items others]
    | _ => simp [same]
  | .object members, right => by
    cases right with
    | object others => simp [same, sameMembers_iff members others]
    | _ => simp [same]

theorem sameItems_iff : (left right : List Json) → (sameItems left right = true ↔ left = right)
  | [], right => by cases right <;> simp [sameItems]
  | item :: items, right => by
    cases right with
    | nil => simp [sameItems]
    | cons other others => simp [sameItems, same_iff item other, sameItems_iff items others]

theorem sameMembers_iff :
    (left right : List (String × Json)) → (sameMembers left right = true ↔ left = right)
  | [], right => by cases right <;> simp [sameMembers]
  | (key, item) :: items, right => by
    cases right with
    | nil => simp [sameMembers]
    | cons other others =>
      obtain ⟨name, value⟩ := other
      simp [sameMembers, same_iff item value, sameMembers_iff items others]

end

instance : DecidableEq Json := fun left right => decidable_of_iff _ (same_iff left right)

end Json

end Caption
