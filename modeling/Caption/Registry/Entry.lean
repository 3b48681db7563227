import Caption.Order
import Caption.Text.Blank

/-!
Entries: what a mounted part of an interface says about itself, and under which other part it
stands. A tree of entries holds one entry for each id.
-/
namespace Caption

/-- A described part of an interface. An entry without a parent stands at the root; one without
content only holds others. -/
structure Entry where
  id : String
  parentId : Option String
  content : Option String
deriving DecidableEq, Repr

namespace Entry

/-- The description of an entry: its content without the blanks around it, unless it is blank. -/
def description? (entry : Entry) : Option String :=
  match entry.content with
  | none => none
  | some content =>
    let text := Text.trim content
    if text = "" then none else some text

end Entry

/-- Entries with strictly increasing ids. -/
structure EntryTree where
  entries : List Entry
  sorted : Keyed.Sorted Entry.id entries

namespace EntryTree

instance : DecidableEq EntryTree := fun left right =>
  if same : left.entries = right.entries then
    isTrue (by cases left; cases right; simp_all)
  else isFalse (fun equal => same (congrArg EntryTree.entries equal))

def empty : EntryTree := ⟨[], List.Pairwise.nil⟩

def get? (tree : EntryTree) (id : String) : Option Entry := Keyed.get? Entry.id id tree.entries

def contains (tree : EntryTree) (id : String) : Bool := (tree.get? id).isSome

def size (tree : EntryTree) : Nat := tree.entries.length

def isEmpty (tree : EntryTree) : Bool := tree.entries.isEmpty

/-- Store an entry under its id, in place of the entry that was there. -/
def insert (tree : EntryTree) (entry : Entry) : EntryTree :=
  ⟨Keyed.put Entry.id entry tree.entries, Keyed.sorted_put entry tree.sorted⟩

/-- Forget the entry of an id; entries below it stay. -/
def erase (tree : EntryTree) (id : String) : EntryTree :=
  ⟨Keyed.remove Entry.id id tree.entries, Keyed.sorted_remove id tree.sorted⟩

/-- Whether an entry may stand before another one when they are listed by their ids. -/
def atMost (left right : Entry) : Bool := !Text.before right.id left.id

theorem before_of_atMost {left right : Entry} (atMost : atMost left right = true)
    (different : left.id ≠ right.id) : Text.before left.id right.id = true := by
  simp only [EntryTree.atMost, Bool.not_eq_eq_eq_not, Bool.not_true] at atMost
  exact Text.before_total (Ne.symm different) atMost

/-- Put an entry in front of entries that follow it, unless its id comes again. -/
def keepLast (entry : Entry) (kept : List Entry) : List Entry :=
  match kept with
  | [] => [entry]
  | next :: rest => if entry.id = next.id then next :: rest else entry :: next :: rest

theorem mem_keepLast {entry other : Entry} {kept : List Entry}
    (member : other ∈ keepLast entry kept) : other = entry ∨ other ∈ kept := by
  unfold keepLast at member
  split at member
  · simpa using member
  · split at member
    · exact Or.inr member
    · simpa using member

theorem sorted_foldr_keepLast (entries : List Entry)
    (ordered : entries.Pairwise fun left right => atMost left right = true) :
    Keyed.Sorted Entry.id (entries.foldr keepLast []) ∧
      ∀ entry ∈ entries.foldr keepLast [], entry ∈ entries := by
  induction entries with
  | nil => exact ⟨List.Pairwise.nil, by simp⟩
  | cons head rest ih =>
    have above := (List.pairwise_cons.mp ordered).1
    obtain ⟨tail, members⟩ := ih (List.pairwise_cons.mp ordered).2
    refine ⟨?_, fun entry member => ?_⟩
    · simp only [List.foldr_cons]
      generalize whole : rest.foldr keepLast [] = kept at tail members
      unfold keepLast
      cases kept with
      | nil => simp [Keyed.Sorted]
      | cons next later =>
        simp only
        split
        · exact tail
        · rename_i different
          have beforeNext : Text.before head.id next.id = true :=
            before_of_atMost (above next (members next List.mem_cons_self)) different
          refine List.pairwise_cons.mpr ⟨fun entry member => ?_, tail⟩
          rcases List.mem_cons.mp member with rfl | further
          · exact beforeNext
          · exact Text.before_trans beforeNext ((List.pairwise_cons.mp tail).1 entry further)
    · simp only [List.foldr_cons] at member
      rcases mem_keepLast member with rfl | later
      · exact List.mem_cons_self
      · exact List.mem_cons_of_mem _ (members entry later)

theorem atMost_trans (first second third : Entry) (left : atMost first second = true)
    (right : atMost second third = true) : atMost first third = true := by
  simp only [atMost, Bool.not_eq_eq_eq_not, Bool.not_true] at left right ⊢
  cases after : Text.before third.id first.id with
  | false => rfl
  | true =>
    by_cases same : second.id = first.id
    · rw [← same, right] at after
      exact absurd after (by simp)
    · have smaller := Text.before_total same left
      rw [Text.before_trans after smaller] at right
      exact absurd right (by simp)

theorem atMost_total (left right : Entry) : (atMost left right || atMost right left) = true := by
  cases before : Text.before right.id left.id with
  | false => simp [atMost, before]
  | true => simp [atMost, before, Text.not_before_of_before before]

/-- Collect entries; the last one of an id stays. -/
def ofList (entries : List Entry) : EntryTree :=
  ⟨(entries.mergeSort atMost).foldr keepLast [],
    (sorted_foldr_keepLast _ (List.pairwise_mergeSort atMost_trans atMost_total entries)).1⟩

end EntryTree

end Caption
