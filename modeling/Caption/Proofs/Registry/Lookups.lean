import Caption.Proofs.Keys
import Caption.Registry.Entry

/-! What is found under an id after a change of a tree of entries. -/
namespace Caption

namespace EntryTree

variable {tree left right : EntryTree} {entry : Entry} {id : String}

@[simp] theorem get?_empty (id : String) : empty.get? id = none := rfl

theorem get?_insert (tree : EntryTree) (entry : Entry) (id : String) :
    (tree.insert entry).get? id = if entry.id = id then some entry else tree.get? id :=
  Keyed.get?_put entry tree.entries id

theorem get?_erase (tree : EntryTree) (gone id : String) :
    (tree.erase gone).get? id = if gone = id then none else tree.get? id :=
  Keyed.get?_remove gone id tree.entries

theorem get?_eq_some : tree.get? id = some entry ↔ entry ∈ tree.entries ∧ entry.id = id :=
  Keyed.get?_eq_some tree.sorted

theorem mem_entries : entry ∈ tree.entries ↔ tree.get? entry.id = some entry := by
  simp [get?_eq_some]

theorem nodup_entries (tree : EntryTree) : tree.entries.Nodup :=
  Keyed.nodup_of_sorted tree.sorted

theorem ext_get? (same : ∀ id, left.get? id = right.get? id) : left = right := by
  have entries := Keyed.ext_get? left.sorted right.sorted same
  cases left
  cases right
  simpa using entries

theorem mem_insert_iff {other : Entry} :
    other ∈ (tree.insert entry).entries ↔
      other = entry ∨ other ∈ tree.entries ∧ other.id ≠ entry.id := by
  rw [insert, (Keyed.perm_put tree.sorted entry).mem_iff, List.mem_cons]
  simp [Keyed.remove]

theorem mem_erase_iff {other : Entry} :
    other ∈ (tree.erase id).entries ↔ other ∈ tree.entries ∧ other.id ≠ id := by
  simp [erase, Keyed.remove]

theorem contains_iff : tree.contains id = true ↔ id ∈ tree.entries.map Entry.id := by
  simp [contains, get?, Keyed.get?]

theorem erase_eq_self (absent : tree.get? id = none) : tree.erase id = tree := by
  have entries : (tree.erase id).entries = tree.entries := Keyed.remove_eq_self absent
  cases tree
  simpa [erase] using entries

end EntryTree

end Caption
