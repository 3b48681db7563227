import Caption.Json.Basic
import Caption.Proofs.Keys

/-!
What is found under a key after a change of the members of an object, and what is left of an object
besides its `type` and the members of some keys.
-/
namespace Caption

namespace Members

variable {members left right : Members} {keys : List String} {key : String} {value : Json}

@[simp]
theorem get?_set (members : Members) (key : String) (value : Json) (other : String) :
    (members.set key value).get? other = if key = other then some value else members.get? other := by
  rw [get?, set, Keyed.get?_put]
  split <;> rfl

theorem set_set (members : Members) (key : String) (first last : Json) :
    (members.set key first).set key last = members.set key last :=
  Keyed.put_put (key, first) (key, last) members rfl

theorem keyed_get?_eq (members : Members) (name : String) :
    Keyed.get? Prod.fst name members = (members.get? name).map fun value => (name, value) := by
  rw [get?]
  cases lookup : Keyed.get? Prod.fst name members with
  | none => rfl
  | some member =>
    have named : member.1 = name := by simpa using List.find?_some lookup
    simp [← named]

theorem mem_of_get? (given : members.get? key = some value) : (key, value) ∈ members := by
  have found : Keyed.get? Prod.fst key members = some (key, value) := by
    rw [keyed_get?_eq, given]
    rfl
  exact List.mem_of_find?_eq_some found

theorem eq_of_get?_string {first second : String}
    (given : members.get? key = some (.string first))
    (again : members.get? key = some (.string second)) : first = second :=
  Json.string.inj (Option.some.inj (given.symm.trans again))

theorem sorted_set (sorted : members.Sorted) : (members.set key value).Sorted :=
  Keyed.sorted_put (key, value) sorted

theorem set_eq_self (sorted : members.Sorted) (given : members.get? key = some value) :
    members.set key value = members := by
  refine Keyed.put_eq_self sorted ?_
  rw [keyed_get?_eq, given, Option.map_some]

/-- The value of a member, or a value for a missing one. -/
def getD (members : Members) (key : String) (missing : Json) : Json :=
  (members.get? key).getD missing

@[simp]
theorem getD_set (members : Members) (key : String) (value : Json) (other : String)
    (missing : Json) :
    (members.set key value).getD other missing =
      if key = other then value else members.getD other missing := by
  rw [getD, get?_set, getD]
  split <;> rfl

/-- The members of an object besides its `type` and some others. -/
def besides (members : Members) (keys : List String) : Members :=
  members.filter fun member => member.1 ∉ "type" :: keys

theorem without_type (members : Members) : members.without "type" = members.besides [] := by
  rw [without, Keyed.remove, besides]
  congr 1
  funext member
  by_cases same : member.1 = "type" <;> simp [same]

theorem besides_without (members : Members) (keys : List String) (key : String) :
    (members.besides keys).without key = members.besides (keys ++ [key]) := by
  simp only [without, Keyed.remove, besides, List.filter_filter]
  congr 1
  funext member
  by_cases same : member.1 = key <;> simp [same]

/-- Whether none of the members is the `type` or has one of some keys. -/
def Lacks (members : Members) (keys : List String) : Prop :=
  ∀ member ∈ members, member.1 ∉ "type" :: keys

instance (members : Members) (keys : List String) : Decidable (members.Lacks keys) :=
  inferInstanceAs (Decidable (∀ member ∈ members, member.1 ∉ "type" :: keys))

@[simp]
theorem eq_besides_iff : members = members.besides keys ↔ members.Lacks keys := by
  rw [eq_comm, besides, List.filter_eq_self]
  simp only [decide_eq_true_eq, Lacks]

theorem lacks_besides (members : Members) (keys : List String) :
    (members.besides keys).Lacks keys := by
  intro member kept
  simpa using (List.mem_filter.mp kept).2

theorem besides_cons_of_mem {head : String × Json} (structural : head.1 ∈ "type" :: keys)
    (rest : Members) : besides (head :: rest) keys = rest.besides keys := by
  refine List.filter_cons_of_neg ?_
  simpa only [decide_eq_true_eq, Decidable.not_not] using structural

@[simp]
theorem besides_set (structural : key ∈ "type" :: keys) (members : Members) (value : Json) :
    (members.set key value).besides keys = members.besides keys := by
  induction members with
  | nil => exact besides_cons_of_mem structural []
  | cons head rest ih =>
    rw [set, Keyed.put]
    split
    · rename_i same
      have replaced : head.1 ∈ "type" :: keys := same ▸ structural
      rw [besides_cons_of_mem structural, besides_cons_of_mem replaced]
    · split
      · exact besides_cons_of_mem structural (head :: rest)
      · rw [besides, besides, List.filter_cons, List.filter_cons]
        split
        · exact congrArg _ ih
        · exact ih

theorem lacks_nil_iff : members.Lacks [] ↔ "type" ∉ members.map Prod.fst := by
  simp only [Lacks, List.mem_singleton, List.mem_map, not_exists, not_and]

theorem sorted_besides (sorted : members.Sorted) (keys : List String) :
    (members.besides keys).Sorted :=
  List.Pairwise.filter _ sorted

theorem get?_besides (members : Members) (keys : List String) (name : String) :
    (members.besides keys).get? name =
      if name ∈ "type" :: keys then none else members.get? name := by
  rw [get?, besides, Keyed.get?, List.find?_filter]
  by_cases structural : name ∈ "type" :: keys
  · rw [if_pos structural, Option.map_eq_none_iff, List.find?_eq_none]
    rintro member _ found
    obtain ⟨kept, named⟩ : member.1 ∉ "type" :: keys ∧ member.1 = name := by simpa using found
    exact kept (named ▸ structural)
  · rw [if_neg structural, get?, Keyed.get?]
    congr 2
    funext member
    by_cases same : member.1 = name
    · simpa [same] using structural
    · simp [same]

@[simp]
theorem besides_besides (members : Members) (keys : List String) :
    (members.besides keys).besides keys = members.besides keys :=
  (eq_besides_iff.mpr (lacks_besides members keys)).symm

/-- Members are the same if some of them and all others are. -/
theorem ext_besides (keys : List String) (leftSorted : left.Sorted) (rightSorted : right.Sorted)
    (others : left.besides keys = right.besides keys)
    (parts : ∀ name ∈ "type" :: keys, left.get? name = right.get? name) : left = right := by
  refine Keyed.ext_get? leftSorted rightSorted fun name => ?_
  rw [keyed_get?_eq, keyed_get?_eq]
  congr 1
  by_cases structural : name ∈ "type" :: keys
  · exact parts name structural
  · have same := congrArg (fun rest => get? rest name) others
    simpa only [get?_besides, if_neg structural] using same

section Typed

variable (sorted : members.Sorted) (untyped : "type" ∉ members.map Prod.fst) (value : Json)

include untyped in
theorem keyed_get?_type : Keyed.get? Prod.fst "type" members = none := by
  refine Keyed.get?_eq_none.mpr fun member present named => untyped ?_
  exact List.mem_map.mpr ⟨member, present, named⟩

include sorted untyped

theorem get?_type_putAll :
    get? (Keyed.putAll Prod.fst members [("type", value)]) "type" = some value := by
  rw [get?, Keyed.get?_putAll sorted, keyed_get?_type untyped]
  simp [Keyed.get?]

/-- Members that are stored beside a `type` are what is left without it. -/
theorem besides_putAll :
    besides (Keyed.putAll Prod.fst members [("type", value)]) [] = members := by
  have stored : Sorted (Keyed.putAll Prod.fst members [("type", value)]) :=
    Keyed.sorted_putAll members (List.pairwise_singleton _ _)
  refine Keyed.ext_get? (sorted_besides stored []) sorted fun name => ?_
  rw [← without_type, without, Keyed.get?_remove, Keyed.get?_putAll sorted]
  by_cases named : "type" = name
  · rw [if_pos named, ← named, keyed_get?_type untyped]
  · simp [Keyed.get?, named]

end Typed

end Members

end Caption
