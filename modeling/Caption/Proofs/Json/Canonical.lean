import Caption.Proofs.Json.Members
import Caption.Proofs.Json.Regular

/-!
Values whose objects have strictly increasing keys at every depth. Whatever is read from a text is
such a value.
-/
namespace Caption

namespace Json

instance (members : Members) : Decidable members.Sorted :=
  inferInstanceAs (Decidable (Keyed.Sorted Prod.fst members))

mutual

/-- Keys are compared object by object. -/
def decideCanonical : (value : Json) → Decidable value.Canonical
  | .null => isTrue trivial
  | .bool _ => isTrue trivial
  | .number _ => isTrue trivial
  | .string _ => isTrue trivial
  | .array items => decideCanonicalItems items
  | .object members =>
    @instDecidableAnd (Members.Sorted members) (CanonicalMembers members) _
      (decideCanonicalMembers members)

def decideCanonicalItems : (items : List Json) → Decidable (CanonicalItems items)
  | [] => isTrue trivial
  | item :: rest =>
    @instDecidableAnd item.Canonical (CanonicalItems rest) (decideCanonical item)
      (decideCanonicalItems rest)

def decideCanonicalMembers : (members : Members) → Decidable (CanonicalMembers members)
  | [] => isTrue trivial
  | (_, value) :: rest =>
    @instDecidableAnd value.Canonical (CanonicalMembers rest) (decideCanonical value)
      (decideCanonicalMembers rest)

end

instance : DecidablePred Canonical := decideCanonical

theorem canonicalMembers_iff {members : Members} :
    CanonicalMembers members ↔ ∀ member ∈ members, member.2.Canonical := by
  induction members with
  | nil => simp [CanonicalMembers]
  | cons head rest ih =>
    obtain ⟨key, value⟩ := head
    simp [CanonicalMembers, ih]

theorem canonical_of_get? {members : Members} {key : String} {value : Json}
    (canonical : CanonicalMembers members) (found : members.get? key = some value) :
    value.Canonical :=
  canonicalMembers_iff.mp canonical _ (Members.mem_of_get? found)

theorem canonical_getD {members : Members} (canonical : CanonicalMembers members) (key : String) :
    (members.getD key .null).Canonical := by
  rw [Members.getD]
  cases found : members.get? key with
  | none => trivial
  | some value => exact canonical_of_get? canonical found

theorem canonicalMembers_besides {members : Members} (canonical : CanonicalMembers members)
    (keys : List String) :
    CanonicalMembers (members.besides keys) := by
  refine canonicalMembers_iff.mpr fun member kept => ?_
  exact canonicalMembers_iff.mp canonical member (List.mem_filter.mp kept).1

theorem canonicalItems_iff {items : List Json} :
    CanonicalItems items ↔ ∀ item ∈ items, item.Canonical := by
  induction items with
  | nil => simp [CanonicalItems]
  | cons head rest ih => simp [CanonicalItems, ih]

theorem Regular.canonical {kind : Number → Prop} {room : Nat} {value : Json}
    (regular : value.Regular kind room) : value.Canonical := by
  induction regular with
  | array each ih => exact canonicalItems_iff.mpr ih
  | object increasing each ih => exact ⟨increasing, canonicalMembers_iff.mpr ih⟩
  | _ => trivial

theorem canonical_of_read? {source : String} {value : Json} (read : read? source = some value) :
    value.Canonical :=
  (regular_of_read? read).canonical

end Json

end Caption
