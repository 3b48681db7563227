import Caption.Json.Reader
import Caption.Proofs.Keys

/-!
Values whose objects have increasing keys, whose containers enclose one another only so deep and whose
numbers are of a kind. Whatever is read from a text is such a value: it nests as deep as may be read,
and its numbers are those of numerals.
-/
namespace Caption

/-- Whether a number is the value of a numeral. -/
def Number.HasNumeral (number : Number) : Prop :=
  ∃ numeral : Numeral, numeral.number? = some number

namespace Json

mutual

def numbers : Json → List Number
  | .number value => [value]
  | .array items => numbersOfItems items
  | .object members => numbersOfMembers members
  | _ => []

def numbersOfItems : List Json → List Number
  | [] => []
  | item :: rest => item.numbers ++ numbersOfItems rest

def numbersOfMembers : List (String × Json) → List Number
  | [] => []
  | (_, value) :: rest => value.numbers ++ numbersOfMembers rest

end

theorem numbers_subset_of_item {item : Json} {items : List Json} (listed : item ∈ items) :
    item.numbers ⊆ numbersOfItems items := by
  induction items with
  | nil => cases listed
  | cons head rest ih =>
    rw [numbersOfItems]
    rcases List.mem_cons.mp listed with rfl | later
    · exact List.subset_append_left _ _
    · exact List.subset_append_of_subset_right _ (ih later)

theorem numbers_subset_of_member {member : String × Json} {members : Members}
    (listed : member ∈ members) : member.2.numbers ⊆ numbersOfMembers members := by
  induction members with
  | nil => cases listed
  | cons head rest ih =>
    rw [numbersOfMembers]
    rcases List.mem_cons.mp listed with rfl | later
    · exact List.subset_append_left _ _
    · exact List.subset_append_of_subset_right _ (ih later)

/-- Whether keys increase in every object, containers enclose one another at most `room` deep and all
numbers are of a kind. -/
inductive Regular (kind : Number → Prop) : Nat → Json → Prop
  | null {room : Nat} : Regular kind room .null
  | bool {room : Nat} (value : Bool) : Regular kind room (.bool value)
  | number {room : Nat} {value : Number} (own : kind value) : Regular kind room (.number value)
  | string {room : Nat} (text : String) : Regular kind room (.string text)
  | array {room : Nat} {items : List Json} (each : ∀ item ∈ items, Regular kind room item) :
    Regular kind (room + 1) (.array items)
  | object {room : Nat} {members : Members} (increasing : members.Sorted)
    (each : ∀ member ∈ members, Regular kind room member.2) :
    Regular kind (room + 1) (.object members)

theorem Regular.imp {kind other : Number → Prop} {room : Nat} {value : Json}
    (regular : value.Regular kind room)
    (weaker : ∀ number ∈ value.numbers, kind number → other number) : value.Regular other room := by
  induction regular with
  | null => exact .null
  | bool value => exact .bool value
  | number own => exact .number (weaker _ List.mem_cons_self own)
  | string text => exact .string text
  | array each ih =>
    refine .array fun item listed => ih item listed fun number inside => ?_
    exact weaker number (numbers_subset_of_item listed inside)
  | object increasing each ih =>
    refine .object increasing fun member listed => ih member listed fun number inside => ?_
    exact weaker number (numbers_subset_of_member listed inside)

end Json

namespace Written

mutual

/-- The value of a tree is a regular one whose numbers are those of numerals. -/
theorem regular_of_value? : (tree : Written) → ∀ {room : Nat} {value : Json},
    tree.value? room = some value → value.Regular Number.HasNumeral room
  | .null, room, value, read => by
    cases Option.some.inj read
    exact .null
  | .bool flag, room, value, read => by
    cases Option.some.inj read
    exact .bool flag
  | .number numeral, room, value, read => by
    obtain ⟨number, found, rfl⟩ := Option.map_eq_some_iff.mp read
    exact .number ⟨numeral, found⟩
  | .string pieces, room, value, read => by
    obtain ⟨text, _, rfl⟩ := Option.map_eq_some_iff.mp read
    exact .string text
  | .array items, room, value, read => by
    cases room with
    | zero => cases read
    | succ room =>
      obtain ⟨values, inner, rfl⟩ := Option.map_eq_some_iff.mp read
      exact .array (regular_of_values? items inner)
  | .object members, room, value, read => by
    cases room with
    | zero => cases read
    | succ room =>
      obtain ⟨entries, inner, rfl⟩ := Option.map_eq_some_iff.mp read
      refine .object (Keyed.sorted_putAll entries List.Pairwise.nil) fun member stored => ?_
      rcases Keyed.mem_putAll stored with given | none
      · exact regular_of_entries? members inner member given
      · cases none

theorem regular_of_values? : (items : List Written) → ∀ {room : Nat} {values : List Json},
    values? room items = some values → ∀ value ∈ values, value.Regular Number.HasNumeral room
  | [], room, values, read => by
    cases Option.some.inj read
    simp
  | item :: rest, room, values, read => by
    simp only [values?, Option.bind_eq_bind, Option.bind_eq_some_iff] at read
    obtain ⟨value, first, others, later, made⟩ := read
    cases Option.some.inj made
    exact List.forall_mem_cons.mpr ⟨regular_of_value? item first, regular_of_values? rest later⟩

theorem regular_of_entries? : (members : List (List Piece × Written)) →
    ∀ {room : Nat} {entries : List (String × Json)}, entries? room members = some entries →
      ∀ entry ∈ entries, entry.2.Regular Number.HasNumeral room
  | [], room, entries, read => by
    cases Option.some.inj read
    simp
  | (pieces, item) :: rest, room, entries, read => by
    simp only [entries?, Option.bind_eq_bind, Option.bind_eq_some_iff] at read
    obtain ⟨key, _, value, first, others, later, made⟩ := read
    cases Option.some.inj made
    exact List.forall_mem_cons.mpr ⟨regular_of_value? item first, regular_of_entries? rest later⟩

end

end Written

theorem Json.regular_of_read? {source : String} {value : Json}
    (read : Json.read? source = some value) : value.Regular Number.HasNumeral nestingLimit := by
  obtain ⟨tree, _, inner⟩ := Option.bind_eq_some_iff.mp read
  exact Written.regular_of_value? tree inner

end Caption
