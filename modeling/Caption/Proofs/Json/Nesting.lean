import Caption.Proofs.Json.Canonical
import Caption.Proofs.Json.Printing

/-!
How deep a value nests decides whether it is read again from the text it is printed as. All else that
reading asks for is that keys increase and that numbers are read back, at every depth alike.
-/
namespace Caption

namespace Json

variable {kind : Number → Prop} {room : Nat} {items : List Json} {members : Members} {value : Json}

theorem mem_numbersOfItems {number : Number} :
    number ∈ numbersOfItems items ↔ ∃ item ∈ items, number ∈ item.numbers := by
  induction items with
  | nil => simp [numbersOfItems]
  | cons head rest ih => simp [numbersOfItems, ih]

theorem mem_numbersOfMembers {number : Number} :
    number ∈ numbersOfMembers members ↔ ∃ member ∈ members, number ∈ member.2.numbers := by
  induction members with
  | nil => simp [numbersOfMembers]
  | cons head rest ih =>
    obtain ⟨key, value⟩ := head
    simp [numbersOfMembers, ih]

theorem depthOfItems_nil : depthOfItems [] = 0 := rfl

theorem depthOfItems_cons (item : Json) (rest : List Json) :
    depthOfItems (item :: rest) = max item.depth (depthOfItems rest) := rfl

theorem depthOfItems_le : depthOfItems items ≤ room ↔ ∀ item ∈ items, item.depth ≤ room := by
  induction items with
  | nil => simp [depthOfItems]
  | cons head rest ih =>
    rw [depthOfItems, Nat.max_le, ih, List.forall_mem_cons]

theorem depthOfMembers_le :
    depthOfMembers members ≤ room ↔ ∀ member ∈ members, member.2.depth ≤ room := by
  induction members with
  | nil => simp [depthOfMembers]
  | cons head rest ih =>
    rw [depthOfMembers, Nat.max_le, ih, List.forall_mem_cons]

theorem depthOfMembers_set {key : String} (absent : members.get? key = none) :
    depthOfMembers (members.set key value) = max value.depth (depthOfMembers members) := by
  have free : Keyed.get? Prod.fst (key, value).1 members = none := Option.map_eq_none_iff.mp absent
  have bounds (room : Nat) : depthOfMembers (members.set key value) ≤ room ↔
      max value.depth (depthOfMembers members) ≤ room := by
    simp only [depthOfMembers_le, Members.set, Keyed.mem_put_iff free, forall_eq_or_imp, Nat.max_le]
  exact Nat.le_antisymm ((bounds _).mpr (Nat.le_refl _)) ((bounds _).mp (Nat.le_refl _))

/-- Whether keys increase in every object and all numbers are of a kind. -/
structure Tidy (kind : Number → Prop) (value : Json) : Prop where
  canonical : value.Canonical
  numbers : ∀ number ∈ value.numbers, kind number

theorem tidy_array : (array items).Tidy kind ↔ ∀ item ∈ items, item.Tidy kind := by
  constructor
  · rintro ⟨canonical, numbers⟩ item listed
    exact ⟨canonicalItems_iff.mp canonical item listed,
      fun number inside => numbers number (mem_numbersOfItems.mpr ⟨item, listed, inside⟩)⟩
  · intro each
    refine ⟨canonicalItems_iff.mpr fun item listed => (each item listed).canonical, ?_⟩
    intro number inside
    obtain ⟨item, listed, own⟩ := mem_numbersOfItems.mp inside
    exact (each item listed).numbers number own

theorem tidy_object :
    (object members).Tidy kind ↔ members.Sorted ∧ ∀ member ∈ members, member.2.Tidy kind := by
  constructor
  · rintro ⟨⟨increasing, canonical⟩, numbers⟩
    refine ⟨increasing, fun member listed => ⟨canonicalMembers_iff.mp canonical member listed, ?_⟩⟩
    exact fun number inside => numbers number (mem_numbersOfMembers.mpr ⟨member, listed, inside⟩)
  · rintro ⟨increasing, each⟩
    refine ⟨⟨increasing, canonicalMembers_iff.mpr fun member listed => (each member listed).canonical⟩,
      ?_⟩
    intro number inside
    obtain ⟨member, listed, own⟩ := mem_numbersOfMembers.mp inside
    exact (each member listed).numbers number own

theorem tidy_object_nil : (object []).Tidy kind :=
  tidy_object.mpr ⟨List.Pairwise.nil, List.forall_mem_nil _⟩

theorem Regular.tidy (regular : value.Regular kind room) : value.Tidy kind := by
  induction regular with
  | number own => exact ⟨trivial, fun number inside => List.mem_singleton.mp inside ▸ own⟩
  | array each ih => exact tidy_array.mpr ih
  | object increasing each ih => exact tidy_object.mpr ⟨increasing, ih⟩
  | _ => exact ⟨trivial, List.forall_mem_nil _⟩

theorem Regular.depth_le (regular : value.Regular kind room) : value.depth ≤ room := by
  induction regular with
  | array each ih => exact Nat.succ_le_succ (depthOfItems_le.mpr ih)
  | object increasing each ih => exact Nat.succ_le_succ (depthOfMembers_le.mpr ih)
  | _ => exact Nat.zero_le _

theorem Tidy.regular {value : Json} {room : Nat} (tidy : value.Tidy kind)
    (fits : value.depth ≤ room) : value.Regular kind room := by
  match value, room with
  | null, _ => exact .null
  | bool flag, _ => exact .bool flag
  | number own, _ => exact .number (tidy.numbers own List.mem_cons_self)
  | string text, _ => exact .string text
  | array items, 0 => cases fits
  | array items, room + 1 =>
    have shallow := depthOfItems_le.mp (Nat.le_of_succ_le_succ fits)
    exact .array fun item listed => (tidy_array.mp tidy item listed).regular (shallow item listed)
  | object members, 0 => cases fits
  | object members, room + 1 =>
    obtain ⟨increasing, each⟩ := tidy_object.mp tidy
    have shallow := depthOfMembers_le.mp (Nat.le_of_succ_le_succ fits)
    exact .object increasing fun member listed =>
      (each member listed).regular (shallow member listed)
termination_by sizeOf value
decreasing_by
  · have smaller := List.sizeOf_lt_of_mem listed
    simp only [array.sizeOf_spec]
    omega
  · have smaller := List.sizeOf_lt_of_mem listed
    obtain ⟨key, value⟩ := member
    simp only [object.sizeOf_spec, Prod.mk.sizeOf_spec] at smaller ⊢
    omega

end Json

namespace Written

mutual

/-- What has a value has it where containers may nest deeper. -/
theorem value?_mono : (tree : Written) → ∀ {room more : Nat} {value : Json}, room ≤ more →
    tree.value? room = some value → tree.value? more = some value
  | .null, room, more, value, _, read => read
  | .bool _, room, more, value, _, read => read
  | .number _, room, more, value, _, read => read
  | .string _, room, more, value, _, read => read
  | .array items, 0, more, value, _, read => by cases read
  | .array items, room + 1, more, value, roomier, read => by
    obtain ⟨other, rfl⟩ := Nat.exists_eq_add_of_le' (Nat.le_trans (Nat.le_add_left 1 room) roomier)
    obtain ⟨values, inner, rfl⟩ := Option.map_eq_some_iff.mp read
    rw [value?, values?_mono items (Nat.le_of_succ_le_succ roomier) inner]
    rfl
  | .object members, 0, more, value, _, read => by cases read
  | .object members, room + 1, more, value, roomier, read => by
    obtain ⟨other, rfl⟩ := Nat.exists_eq_add_of_le' (Nat.le_trans (Nat.le_add_left 1 room) roomier)
    obtain ⟨entries, inner, rfl⟩ := Option.map_eq_some_iff.mp read
    rw [value?, entries?_mono members (Nat.le_of_succ_le_succ roomier) inner]
    rfl

theorem values?_mono : (items : List Written) → ∀ {room more : Nat} {values : List Json},
    room ≤ more → values? room items = some values → values? more items = some values
  | [], room, more, values, _, read => read
  | item :: rest, room, more, values, roomier, read => by
    simp only [values?, Option.bind_eq_bind, Option.bind_eq_some_iff] at read
    obtain ⟨value, first, others, later, made⟩ := read
    rw [values?, value?_mono item roomier first, values?_mono rest roomier later]
    exact made

theorem entries?_mono : (members : List (List Piece × Written)) →
    ∀ {room more : Nat} {entries : List (String × Json)}, room ≤ more →
      entries? room members = some entries → entries? more members = some entries
  | [], room, more, entries, _, read => read
  | (pieces, item) :: rest, room, more, entries, roomier, read => by
    simp only [entries?, Option.bind_eq_bind, Option.bind_eq_some_iff] at read
    obtain ⟨key, named, value, first, others, later, made⟩ := read
    rw [entries?, named, value?_mono item roomier first, entries?_mono rest roomier later]
    exact made

end

end Written

namespace Json

/-- A value whose numbers are read back is read from its own text unless it nests too deep, and then
nothing is. -/
theorem read?_pretty_eq {value : Json} (tidy : value.Tidy Number.ReadsBack) :
    read? value.pretty = if value.depth ≤ nestingLimit then some value else none := by
  by_cases fits : value.depth ≤ nestingLimit
  · rw [if_pos fits]
    exact read?_pretty (tidy.regular fits)
  · rw [if_neg fits]
    obtain ⟨tree, printed⟩ := (tidy.regular (Nat.le_refl _)).exists_printedAs
    have split : Token.scan value.pretty.toList = some tree.tokens := by
      rw [pretty, String.toList_ofList]
      exact Token.scan_of_scans (printed.splits 0)
    rw [read?, Written.read?_eq_some split]
    cases found : tree.value? nestingLimit with
    | none => exact found
    | some other =>
      -- What the limit leaves room for has the same value as with the room that the value takes.
      have again := Written.value?_mono tree (Nat.le_of_not_le fits) found
      rw [printed.reads] at again
      obtain rfl := Option.some.inj again
      exact absurd (Written.regular_of_value? tree found).depth_le fits

end Json

end Caption
