import Caption.Proofs.Json.Printing
import Caption.Proofs.Markup.Normalizing
import Caption.Proofs.Markup.WellFormed

/-!
Files that are read again from the text they are printed as. The form in which a tree is written has
increasing keys, nests no deeper and has no other numbers than the value it was read from.
-/
namespace Caption

namespace Json

variable {kind : Number → Prop} {room : Nat} {members : Members} {value : Json}

theorem regular_set (own : value.Regular kind room)
    (each : ∀ member ∈ members, member.2.Regular kind room) (key : String) :
    ∀ member ∈ members.set key value, member.2.Regular kind room := by
  intro member stored
  rcases Keyed.mem_put stored with rfl | given
  · exact own
  · exact each member given

theorem regular_setMissing (own : value.Regular kind room)
    (each : ∀ member ∈ members, member.2.Regular kind room) (key : String) :
    ∀ member ∈ members.setMissing key value, member.2.Regular kind room := by
  rw [Members.setMissing]
  split
  · exact regular_set own each key
  · exact each

/-- What is always written are texts, truth values and null. -/
theorem regular_complete (each : ∀ member ∈ members, member.2.Regular kind room) (role : Role)
    (type : String) : ∀ member ∈ role.complete type members, member.2.Regular kind room := by
  unfold Role.complete
  split
  · split
    · exact regular_setMissing .null each _
    · exact regular_setMissing .null each _
    · exact each
  · exact regular_set (.string _) (regular_setMissing (.bool false) each _) _
  · exact regular_set (.string _) each _
  · exact each

theorem normalizedItems_eq_map (role : Role) (items : List Json) :
    normalizedItems role items = items.map (normalized role) := by
  induction items with
  | nil => rfl
  | cons item rest ih => rw [normalizedItems, ih, List.map_cons]

theorem normalizedMembers_eq_map (roles : String → Role) (members : Members) :
    normalizedMembers roles members =
      members.map fun member => (member.1, member.2.normalized (roles member.1)) := by
  induction members with
  | nil => rfl
  | cons member rest ih => rw [normalizedMembers, ih, List.map_cons]

/-- The form in which a tree is written is as regular as the value it was read from. -/
theorem Regular.normalized (regular : value.Regular kind room) (role : Role) :
    (value.normalized role).Regular kind room := by
  induction regular generalizing role with
  | null => exact .null
  | bool flag => exact .bool flag
  | number own => exact .number own
  | string text => exact .string text
  | array each ih =>
    rw [Json.normalized, normalizedItems_eq_map]
    refine .array fun item listed => ?_
    obtain ⟨given, inside, rfl⟩ := List.mem_map.mp listed
    exact ih given inside role.items
  | @object room members increasing each ih =>
    rw [Json.normalized]
    split
    · rename_i type _
      refine .object (Role.sorted_complete (sorted_normalizedMembers increasing _) role type) ?_
      refine regular_complete (fun member listed => ?_) role type
      rw [normalizedMembers_eq_map] at listed
      obtain ⟨given, inside, rfl⟩ := List.mem_map.mp listed
      exact ih given inside _
    · exact .object increasing each

end Json

namespace SourceFile

variable {text : String} {source : SourceFile}

/-- What is written for a file that was read from a text with whole numbers only is as regular as the
value of that text. A number that gave way to a later member of the same key may be any. -/
theorem regular_encode (accepted : read text = .ok source)
    (exact : ∀ value ∈ Json.read? text, ∀ number ∈ value.numbers, number.IsInteger) :
    source.encode.Regular Number.ReadsBack Json.nestingLimit := by
  obtain ⟨value, parsed, decoded⟩ := read_eq_ok.mp accepted
  have regular : value.Regular Number.ReadsBack Json.nestingLimit := by
    refine (Json.regular_of_read? parsed).imp fun number inside written => ?_
    exact Number.readsBack_of_isInteger (exact value parsed number inside) written
  rw [encode_eq_normalized regular.canonical decoded]
  exact regular.normalized .root

/-- Every file has a text; one that was read from a text with whole numbers only is read again from
its own. -/
theorem read_render (accepted : read text = .ok source)
    (exact : ∀ value ∈ Json.read? text, ∀ number ∈ value.numbers, number.IsInteger) :
    read source.render = .ok source := by
  have again : decode source.encode = .ok source := decode_encode_iff.mpr (wellFormed_of_read accepted)
  exact read_eq_ok.mpr ⟨source.encode, Json.read?_pretty (regular_encode accepted exact), again⟩

/-- A text with escapes, a repeated key and an attribute without a value. -/
def escapedText : String :=
  "\x7b\"type\":\"Program\",\"body\":[\x7b\"type\":\"JSXAttribute\",\"name\":" ++
    "\x7b\"type\":\"Identifier\",\"name\":\"\\u001f\\ud83d\\ude00\\/\"\x7d\x7d]," ++
    "\"end\":1,\"end\":-7\x7d"

def escapedFile : SourceFile :=
  ⟨⟨[.attr (.identifier "\x1f😀/" []) none []], [("end", .number (.integer (-7)))]⟩, none⟩

theorem read?_escapedText :
    Json.read? escapedText = some (.object [
      ("body", .array [.object [
        ("name", .object [("name", .string "\x1f😀/"), ("type", .string "Identifier")]),
        ("type", .string "JSXAttribute")]]),
      ("end", .number (.integer (-7))), ("type", .string "Program")]) := by
  decide +kernel

theorem read_render_escapedFile :
    read escapedText = .ok escapedFile ∧
      (∀ value ∈ Json.read? escapedText, ∀ number ∈ value.numbers, number.IsInteger) ∧
      read escapedFile.render = .ok escapedFile := by
  have accepted : read escapedText = .ok escapedFile :=
    read_eq_ok.mpr ⟨_, read?_escapedText, by decide +kernel⟩
  have exact : ∀ value ∈ Json.read? escapedText, ∀ number ∈ value.numbers, number.IsInteger := by
    rw [read?_escapedText]
    decide
  exact ⟨accepted, exact, read_render accepted exact⟩

end SourceFile

end Caption
