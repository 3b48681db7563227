import Caption.Proofs.Bytes
import Caption.Proofs.Registry.Collecting
import Caption.Proofs.Registry.Straying
import Caption.Registry.Change

/-!
A tree of entries under changes in any order. Under an id stands the entry that was last stored
there, unless it was removed since, and all that the tree says of its entries agrees with their
listing. An entry that comes or goes leaves the entries of other ids alone, also those below it.
-/
namespace Caption

namespace EntryTree

namespace Change

/-- A change by single entries: a collection starts again and stores its entries one by one. -/
def parts : Change → List Change
  | .collect entries => .collect [] :: entries.map .insert
  | .insert entry => [.insert entry]
  | .remove id => [.remove id]

def partsOf (changes : List Change) : List Change := changes.flatMap parts

/-- Whether a change says what is under an id. -/
def Touches : Change → String → Prop
  | .collect _, _ => True
  | .insert entry, id => entry.id = id
  | .remove gone, id => gone = id

end Change

variable {tree : EntryTree} {entry : Entry} {id : String} {change : Change} {changes : List Change}

theorem changeAll_append (tree : EntryTree) (first second : List Change) :
    tree.changeAll (first ++ second) = (tree.changeAll first).changeAll second :=
  List.foldl_append

theorem changeAll_parts (tree : EntryTree) (change : Change) :
    tree.changeAll change.parts = (tree.change change).2 := by
  cases change with
  | collect entries =>
    have started : tree.changeAll (Change.collect entries).parts =
        (ofList []).changeAll (entries.map .insert) := rfl
    rw [started, ofList_eq_insertAll [], changeAll, List.foldl_map]
    exact (ofList_eq_insertAll entries).symm
  | insert entry => rfl
  | remove id => rfl

theorem changeAll_partsOf (tree : EntryTree) (changes : List Change) :
    tree.changeAll (Change.partsOf changes) = tree.changeAll changes := by
  induction changes generalizing tree with
  | nil => rfl
  | cons change later ih =>
    rw [Change.partsOf, List.flatMap_cons, changeAll_append, changeAll_parts, ← Change.partsOf, ih]
    rfl

theorem get?_change_of_touches (tree : EntryTree) (change : Change) (touched : change.Touches id) :
    (tree.change change).2.get? id = (empty.change change).2.get? id := by
  cases change with
  | collect entries => rfl
  | insert entry =>
    have named : entry.id = id := touched
    rw [EntryTree.change, EntryTree.change, get?_insert, get?_insert, if_pos named, if_pos named]
  | remove gone =>
    have named : gone = id := touched
    rw [EntryTree.change, EntryTree.change, get?_erase, get?_erase, if_pos named, if_pos named]

theorem get?_change_of_untouched (tree : EntryTree) (change : Change)
    (untouched : ¬change.Touches id) : (tree.change change).2.get? id = tree.get? id := by
  cases change with
  | collect entries => exact absurd trivial untouched
  | insert entry =>
    have apart : entry.id ≠ id := untouched
    rw [EntryTree.change, get?_insert, if_neg apart]
  | remove gone =>
    have apart : gone ≠ id := untouched
    rw [EntryTree.change, get?_erase, if_neg apart]

/-- Of the single changes only an insertion leaves an entry, under its own id. -/
theorem Change.eq_insert_of_leaves (part : change ∈ Change.partsOf changes)
    (touched : change.Touches id) (leaves : (empty.change change).2.get? id = some entry) :
    change = .insert entry ∧ entry.id = id := by
  obtain ⟨whole, _, within⟩ := List.mem_flatMap.mp part
  cases change with
  | insert other =>
    have named : other.id = id := touched
    rw [EntryTree.change, get?_insert, if_pos named] at leaves
    obtain rfl := Option.some.inj leaves
    exact ⟨rfl, named⟩
  | remove gone =>
    have named : gone = id := touched
    rw [EntryTree.change, get?_erase, if_pos named] at leaves
    cases leaves
  | collect entries =>
    cases whole with
    | collect collected =>
      simp only [Change.parts, List.mem_cons, List.mem_map, Change.collect.injEq, reduceCtorEq,
        and_false, exists_false, or_false] at within
      rw [within, EntryTree.change, get?_ofList] at leaves
      cases leaves
    | insert other => simp [Change.parts] at within
    | remove gone => simp [Change.parts] at within

/-- Under an id stands the entry that was last stored there, if nothing was said of the id since. -/
theorem get?_changeAll_eq_some :
    (empty.changeAll changes).get? id = some entry ↔
      entry.id = id ∧ ∃ before after, Change.partsOf changes = before ++ .insert entry :: after ∧
        ∀ later ∈ after, ¬later.Touches id := by
  rw [← changeAll_partsOf]
  refine (look_foldl_eq_some (fun tree => tree.get? id) (fun change => change.Touches id) _
    get?_change_of_touches get?_change_of_untouched (Change.partsOf changes) empty).trans ?_
  constructor
  · rintro (⟨stood, _⟩ | ⟨before, change, after, whole, touched, leaves, untouched⟩)
    · cases stood
    · have part : change ∈ Change.partsOf changes := by simp [whole]
      obtain ⟨rfl, named⟩ := Change.eq_insert_of_leaves part touched leaves
      exact ⟨named, before, after, whole, untouched⟩
  · rintro ⟨rfl, before, after, whole, untouched⟩
    refine Or.inr ⟨before, .insert entry, after, whole, rfl, ?_, untouched⟩
    rw [EntryTree.change, get?_insert, if_pos rfl]

/-- There are as many entries as ids that have one. -/
theorem size_eq_length {ids : List String} (nodup : ids.Nodup)
    (listed : ∀ id, id ∈ ids ↔ tree.contains id = true) : tree.size = ids.length := by
  have permuted : (tree.entries.map Entry.id).Perm ids :=
    (List.perm_ext_iff_of_nodup tree.nodup_ids nodup).mpr fun id => by rw [listed, contains_iff]
  rw [size, ← permuted.length_eq, List.length_map]

theorem isEmpty_iff : tree.isEmpty = true ↔ ∀ id, tree.contains id = false := by
  simp only [← Bool.not_eq_true, contains_iff]
  simp [isEmpty, List.eq_nil_iff_forall_not_mem]

/-- After changes of any kind and order the ids of the entries increase in the order of their bytes.
Under an id stands the entry that was last stored there, if the id was not removed and no others were
collected since. Whether an id has an entry and how many entries there are is seen from their listing.
An insertion and a removal answer with the entry that stood under their id and keep all entries of
other ids; the removal of an id without an entry keeps the tree. -/
theorem changeAll_holds_latest (changes : List Change) :
    let tree := empty.changeAll changes
    ((tree.entries.map Entry.id).Pairwise fun left right => Text.bytes left < Text.bytes right) ∧
    (∀ id entry, tree.get? id = some entry ↔ entry.id = id ∧
      ∃ before after, Change.partsOf changes = before ++ .insert entry :: after ∧
        ∀ later ∈ after, ¬later.Touches id) ∧
    ((∀ id entry, tree.get? id = some entry ↔ entry ∈ tree.entries ∧ entry.id = id) ∧
      (∀ id, tree.contains id = true ↔ id ∈ tree.entries.map Entry.id) ∧
      (∀ ids : List String, ids.Nodup → (∀ id, id ∈ ids ↔ tree.contains id = true) →
        tree.size = ids.length) ∧
      (tree.isEmpty = true ↔ ∀ id, tree.contains id = false)) ∧
    (∀ entry, (tree.change (.insert entry)).1 = tree.get? entry.id ∧
      ∀ other, other ∈ (tree.change (.insert entry)).2.entries ↔
        other = entry ∨ other ∈ tree.entries ∧ other.id ≠ entry.id) ∧
    ∀ id, (tree.change (.remove id)).1 = tree.get? id ∧
      (∀ other, other ∈ (tree.change (.remove id)).2.entries ↔
        other ∈ tree.entries ∧ other.id ≠ id) ∧
      (tree.contains id = false → tree.change (.remove id) = (none, tree)) := by
  intro tree
  have ordered := Keyed.sorted_iff_pairwise_map.mp tree.sorted
  refine ⟨ordered.imp Text.before_iff_bytes_lt.mp, fun id entry => get?_changeAll_eq_some,
    ⟨fun id entry => get?_eq_some, fun id => contains_iff, fun ids => size_eq_length, isEmpty_iff⟩,
    fun entry => ⟨rfl, fun other => mem_insert_iff⟩,
    fun id => ⟨rfl, fun other => mem_erase_iff, fun absent => ?_⟩⟩
  have missing : tree.get? id = none := by simpa [contains] using absent
  rw [EntryTree.change, missing, erase_eq_self missing]

/-- A panel, given twice, and a button below it. -/
def collected : List Entry :=
  [⟨"p", none, some "panel"⟩, ⟨"b", some "p", some "button"⟩, ⟨"p", none, none⟩]

/-- The panel goes while the button stays. -/
def shuffled : List Change := [.insert ⟨"z", none, none⟩, .collect collected, .remove "p"]

theorem changeAll_shuffled_holds_latest :
    let tree := empty.changeAll shuffled
    tree.get? "b" = some ⟨"b", some "p", some "button"⟩ ∧ tree.size = 1 ∧
      tree.change (.remove "p") = (none, tree) := by
  have left : (empty.changeAll shuffled).entries = [⟨"b", some "p", some "button"⟩] := by
    have same : empty.changeAll shuffled = (empty.insertAll collected).erase "p" :=
      congrArg (fun tree => tree.erase "p") (ofList_eq_insertAll collected)
    rw [same]
    decide
  intro tree
  obtain ⟨_, stands, ⟨_, _, counts, _⟩, _, removed⟩ := changeAll_holds_latest shuffled
  refine ⟨(stands _ _).mpr ⟨rfl, [.insert ⟨"z", none, none⟩, .collect [],
    .insert ⟨"p", none, some "panel"⟩], [.insert ⟨"p", none, none⟩, .remove "p"], rfl, ?_⟩, ?_, ?_⟩
  · simp [Change.Touches]
  · refine counts ["b"] (by decide) fun id => ?_
    rw [contains_iff, left, List.map_singleton]
  · refine (removed "p").2.2 ?_
    rw [contains, get?, left]
    decide

end EntryTree

end Caption
