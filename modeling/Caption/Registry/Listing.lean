import Std.Data.HashMap
import Caption.Registry.Entry

/-!
The listing of entries as text: an indented bullet for every entry with a description, parents
before what is below them and siblings in the order of their ids. Entries that no chain of parents
connects to the root are left out.
-/
namespace Caption

namespace Listing

abbrev Groups := Std.HashMap (Option String) (List Entry)

/-- Group entries by their parents, each group in the order of the entries. -/
def groups (entries : List Entry) : Groups :=
  entries.foldr
    (fun entry found => found.insert entry.parentId (entry :: found.getD entry.parentId [])) ∅

/-- Entries that wait at a depth. -/
def atDepth (depth : Nat) (entries : List Entry) : List (Entry × Nat) :=
  entries.map fun entry => (entry, depth)

/-- Visit the entries that wait, the first one first, and after each the entries below its id. A
group is taken out when it is reached, so that no entry is visited twice. -/
def walk (remaining : Groups) (pending : List (Entry × Nat)) (done : List (Entry × Nat)) :
    List (Entry × Nat) :=
  match pending with
  | [] => done.reverse
  | (entry, depth) :: rest =>
    if some entry.id ∈ remaining then
      walk (remaining.erase (some entry.id))
        (atDepth (depth + 1) (remaining.getD (some entry.id) []) ++ rest) ((entry, depth) :: done)
    else walk remaining rest ((entry, depth) :: done)
termination_by (remaining.size, pending.length)
decreasing_by
  · rename_i present
    apply Prod.Lex.left
    have nonempty : remaining.size ≠ 0 := by
      intro zero
      have none := Std.HashMap.isEmpty_eq_size_eq_zero (m := remaining)
      rw [zero] at none
      have absent := Std.HashMap.not_mem_of_isEmpty (a := some entry.id) (by simpa using none)
      exact absent present
    rw [Std.HashMap.size_erase, if_pos present]
    omega
  · exact Prod.Lex.right _ (by simp)

/-- The entries that a listing visits, with their depths. -/
def visits (entries : List Entry) : List (Entry × Nat) :=
  let found := groups (entries.mergeSort EntryTree.atMost)
  walk found (atDepth 0 (found.getD none [])) []

def line? (visit : Entry × Nat) : Option String :=
  visit.1.description?.map fun text =>
    String.ofList (List.replicate (2 * visit.2) ' ') ++ "- " ++ text

def lines (entries : List Entry) : List String := (visits entries).filterMap line?

/-- The listing of entries, which may repeat ids. -/
def render (entries : List Entry) : String := String.intercalate "\n" (lines entries)

end Listing

def EntryTree.render (tree : EntryTree) : String := Listing.render tree.entries

end Caption
