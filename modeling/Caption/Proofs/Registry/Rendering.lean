import Caption.Proofs.Registry.Walks

/-!
What a listing says: one bullet for each path that ends at a described entry, in the order of the
paths.
-/
namespace Caption

theorem Entry.description?_eq_some {entry : Entry} {text : String} :
    entry.description? = some text ↔
      ∃ content, entry.content = some content ∧ Text.trim content ≠ "" ∧
        Text.trim content = text := by
  unfold Entry.description?
  cases entry.content with
  | none => simp
  | some content =>
    by_cases blank : Text.trim content = ""
    · simp [blank]
    · simp [blank]

/-- The content of an entry without the blanks around it; nothing and blanks give the empty text. -/
def Entry.text (entry : Entry) : String := Text.trim (entry.content.getD "")

theorem Entry.exists_content_of_text {entry : Entry} (shown : entry.text ≠ "") :
    ∃ content, entry.content = some content ∧ Text.trim content ≠ "" ∧
      Text.trim content = entry.text := by
  obtain ⟨id, parentId, content⟩ := entry
  cases content with
  | none => exact absurd rfl shown
  | some content => exact ⟨content, rfl, shown, rfl⟩

namespace Listing

/-- A path and the text of the described entry at its end. -/
def Describes (entries : List Entry) (path : List String) (text : String) : Prop :=
  ∃ entry content, RootPath entries path entry ∧ entry.content = some content ∧
    Text.trim content ≠ "" ∧ Text.trim content = text

/-- The paths of the described entries with their texts, in the order of the paths. -/
structure Outlines (entries : List Entry) (listed : List (List String × String)) : Prop where
  described : ∀ path text, (path, text) ∈ listed ↔ Describes entries path text
  ordered : listed.Pairwise fun left right => PathBefore left.1 right.1

/-- The bullet of a path: two spaces for each id above the last one, and the text. -/
def bullet (item : List String × String) : String :=
  String.ofList (List.replicate (2 * (item.1.length - 1)) ' ') ++ "- " ++ item.2

/-- The order of the paths leaves no choice. -/
theorem Outlines.unique {entries : List Entry} {listed other : List (List String × String)}
    (outlines : Outlines entries listed) (again : Outlines entries other) : listed = other := by
  refine eq_of_pathBefore outlines.ordered again.ordered ?_
  rintro ⟨path, text⟩
  rw [outlines.described, again.described]

theorem sorted_mergeSort {entries : List Entry} (nodup : (entries.map Entry.id).Nodup) :
    Keyed.Sorted Entry.id (entries.mergeSort EntryTree.atMost) := by
  have weakly := List.pairwise_mergeSort EntryTree.atMost_trans EntryTree.atMost_total entries
  have apart : (entries.mergeSort EntryTree.atMost).Pairwise fun left right => left.id ≠ right.id :=
    List.pairwise_map.mp (((List.mergeSort_perm entries _).map Entry.id).nodup_iff.mpr nodup)
  refine (weakly.and apart).imp ?_
  rintro left right ⟨atMost, different⟩
  exact EntryTree.before_of_atMost atMost different

/-- Nothing has been taken out when the walk starts at the root. -/
theorem follows_top {entries : List Entry} (sorted : Keyed.Sorted Entry.id entries) :
    Follows entries (groups entries) (Stop.top entries) := by
  refine ⟨?_, Stop.parted_top sorted, fun _ _ => rfl⟩
  intro stop member
  obtain ⟨entry, sibling, rfl⟩ := List.mem_map.mp member
  obtain ⟨stored, parentless⟩ := mem_siblings.mp sibling
  exact .root stored parentless

/-- Every path from the root is awaited when the walk starts. -/
theorem awaited_top {entries : List Entry} {stop : Stop} :
    Awaited entries (Stop.top entries) stop ↔ RootPath entries stop.path stop.entry := by
  constructor
  · rintro ⟨reached, _⟩
    exact reached
  · intro reached
    obtain ⟨top, stored, parentless, begins⟩ := reached.starts
    refine ⟨reached, ⟨[top.id], top⟩, ?_, begins⟩
    exact List.mem_map.mpr ⟨top, mem_siblings.mpr ⟨stored, parentless⟩, rfl⟩

/-- The visits of a listing are the paths from the root, in their order. -/
theorem visits_eq {entries : List Entry} (nodup : (entries.map Entry.id).Nodup) :
    ∃ visited : List Stop, visits entries = visited.map Stop.visit ∧
      (∀ stop, stop ∈ visited ↔ RootPath entries stop.path stop.entry) ∧
      visited.Pairwise fun left right => PathBefore left.path right.path := by
  have sorted := sorted_mergeSort nodup
  have permuted := List.mergeSort_perm entries EntryTree.atMost
  have distinct := Entry.distinct_of_nodup ((permuted.map Entry.id).nodup_iff.mpr nodup)
  obtain ⟨visited, walked, covers⟩ := walk_visits sorted distinct (follows_top sorted) []
  refine ⟨visited, ?_, ?_, covers.ordered⟩
  · rw [visits, getD_groups, ← Stop.map_visit_top]
    exact walked
  · intro stop
    rw [covers.members, awaited_top]
    constructor
    · exact fun reached => reached.mono fun entry => permuted.mem_iff.mp
    · exact fun reached => reached.mono fun entry => permuted.mem_iff.mpr

/-- What visits in the order of their paths say. -/
theorem outlines_visited {entries : List Entry} {visited : List Stop}
    (members : ∀ stop, stop ∈ visited ↔ RootPath entries stop.path stop.entry)
    (ordered : visited.Pairwise fun left right => PathBefore left.path right.path) :
    Outlines entries
      (visited.filterMap fun stop => stop.entry.description?.map (stop.path, ·)) := by
  constructor
  · intro path text
    constructor
    · intro member
      obtain ⟨stop, present, shown⟩ := List.mem_filterMap.mp member
      obtain ⟨_, described, same⟩ := Option.map_eq_some_iff.mp shown
      obtain ⟨rfl, rfl⟩ := Prod.mk.inj same
      obtain ⟨content, given, visible, trimmed⟩ := Entry.description?_eq_some.mp described
      exact ⟨stop.entry, content, (members stop).mp present, given, visible, trimmed⟩
    · rintro ⟨entry, content, reached, given, visible, trimmed⟩
      have described := Entry.description?_eq_some.mpr ⟨content, given, visible, trimmed⟩
      refine List.mem_filterMap.mpr ⟨⟨path, entry⟩, (members _).mpr reached, ?_⟩
      simp only [described, Option.map_some]
  · refine List.pairwise_filterMap.mpr (ordered.imp ?_)
    intro left right before first leftShown second rightShown
    obtain ⟨_, _, rfl⟩ := Option.map_eq_some_iff.mp leftShown
    obtain ⟨_, _, rfl⟩ := Option.map_eq_some_iff.mp rightShown
    exact before

/-- The bullets of visits are their lines, with a line feed between them. -/
theorem render_of_visits {entries : List Entry} {visited : List Stop}
    (walked : visits entries = visited.map Stop.visit) :
    render entries = String.intercalate "\n"
      ((visited.filterMap fun stop => stop.entry.description?.map (stop.path, ·)).map bullet) := by
  rw [render, lines, walked, List.filterMap_map, List.map_filterMap]
  congr 2
  funext stop
  simp [line?, Stop.visit, bullet, Function.comp_def]

theorem exists_outlines {entries : List Entry} (nodup : (entries.map Entry.id).Nodup) :
    ∃ listed, Outlines entries listed ∧
      render entries = String.intercalate "\n" (listed.map bullet) := by
  obtain ⟨visited, walked, members, ordered⟩ := visits_eq nodup
  exact ⟨_, outlines_visited members ordered, render_of_visits walked⟩

/-- A listing of entries that their ids tell apart has one bullet for each described path, in the
order of the paths. Entries that no chain of parents connects to the root have no path: those that
only have each other, or none of the entries, as parents. -/
theorem render_eq_bullets (entries : List Entry) (nodup : (entries.map Entry.id).Nodup) :
    (∃ listed, Outlines entries listed ∧ (∀ other, Outlines entries other → other = listed) ∧
      render entries = String.intercalate "\n" (listed.map bullet)) ∧
    ∀ lost : Entry → Prop,
      (∀ entry ∈ entries, lost entry →
        ∃ id, entry.parentId = some id ∧ ∀ parent ∈ entries, parent.id = id → lost parent) →
      ∀ path entry, RootPath entries path entry → ¬lost entry := by
  refine ⟨?_, fun lost closed path entry reached => reached.not_of_closed closed⟩
  obtain ⟨listed, outlines, rendered⟩ := exists_outlines nodup
  exact ⟨listed, outlines, fun other again => again.unique outlines, rendered⟩

/-- A leaf below a structural entry, an entry below itself and an orphan. -/
def mixed : List Entry :=
  [⟨"b", some "a", some " leaf "⟩, ⟨"a", none, none⟩, ⟨"c", some "c", some "self"⟩,
    ⟨"d", some "gone", some "orphan"⟩]

theorem render_mixed_eq_bullets :
    (mixed.map Entry.id).Nodup ∧
      (∃ listed, Outlines mixed listed ∧
        render mixed = String.intercalate "\n" (listed.map bullet)) ∧
      ∀ path entry, RootPath mixed path entry → ¬(entry.id = "c" ∨ entry.id = "d") := by
  have nodup : (mixed.map Entry.id).Nodup := by decide
  obtain ⟨⟨listed, outlines, _, rendered⟩, lost⟩ := render_eq_bullets mixed nodup
  refine ⟨nodup, ⟨listed, outlines, rendered⟩, lost (fun entry => entry.id = "c" ∨ entry.id = "d") ?_⟩
  simp [mixed]

end Listing

end Caption
