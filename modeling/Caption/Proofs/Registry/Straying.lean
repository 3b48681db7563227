import Caption.Proofs.Registry.Descending
import Caption.Proofs.Registry.Rendering

/-!
Orphans. An entry strays when its parents lead to an id that is not in the tree. It has no path from
the root then, and the listing is the one without it. A tree that inherits from one in which the entry
strays does not bring it back.
-/
namespace Caption

namespace EntryTree

/-- An id from which the parents lead to one that is not in the tree. -/
inductive Lost (tree : EntryTree) : String → Prop where
  | missing {id : String} (absent : tree.get? id = none) : Lost tree id
  | beneath {id above : String} {parent : Entry} (standing : tree.get? id = some parent)
      (under : parent.parentId = some above) (further : Lost tree above) : Lost tree id

/-- An entry below a lost id. -/
def Strays (tree : EntryTree) (entry : Entry) : Prop :=
  ∃ id, entry.parentId = some id ∧ tree.Lost id

/-- Entries stand below ids that were issued before a counter. -/
def Grounded (tree : EntryTree) (counter : UInt64) : Prop :=
  ∀ entry ∈ tree.entries, ∀ id, entry.parentId = some id →
    ∃ number < counter, id = idOfCounter number

variable {tree later : EntryTree} {counter : UInt64} {entry : Entry}

/-- A lost id stays lost: the ids on the way are not issued again, and what still stands under them
has its old parent. -/
theorem Lost.inherited (grounded : tree.Grounded counter) (inherits : later.Inherits counter tree)
    {id : String} (lost : tree.Lost id) {number : UInt64} (issued : number < counter)
    (named : id = idOfCounter number) : later.Lost id := by
  induction lost generalizing number with
  | @missing id absent =>
    refine .missing ?_
    cases stands : later.get? id with
    | none => rfl
    | some entry =>
      subst named
      obtain ⟨earlier, stood, _⟩ := inherits number issued entry stands
      rw [absent] at stood
      cases stood
  | @beneath id above parent standing under further ih =>
    cases stands : later.get? id with
    | none => exact .missing stands
    | some entry =>
      subst named
      obtain ⟨earlier, stood, same⟩ := inherits number issued entry stands
      obtain rfl := Option.some.inj (standing.symm.trans stood)
      obtain ⟨origin, before, called⟩ := grounded parent (get?_eq_some.mp standing).1 above under
      exact .beneath stands (same ▸ under) (ih before called)

theorem Strays.not_rootPath (strays : tree.Strays entry) (path : List String) :
    ¬Listing.RootPath tree.entries path entry := by
  intro reached
  refine reached.not_of_closed ?_ strays
  rintro other _ ⟨id, under, lost⟩
  refine ⟨id, under, ?_⟩
  rintro parent member rfl
  have stands := mem_entries.mp member
  cases lost with
  | missing absent =>
    rw [absent] at stands
    cases stands
  | beneath standing above further =>
    obtain rfl := Option.some.inj (standing.symm.trans stands)
    exact ⟨_, above, further⟩

theorem nodup_ids (tree : EntryTree) : (tree.entries.map Entry.id).Nodup :=
  List.pairwise_map.mpr (tree.sorted.imp Text.ne_of_before)

/-- Without an entry that has no path the others have theirs. -/
theorem rootPath_erase_iff (member : entry ∈ tree.entries)
    (unreached : ∀ path, ¬Listing.RootPath tree.entries path entry) {path : List String}
    {other : Entry} :
    Listing.RootPath (tree.erase entry.id).entries path other ↔
      Listing.RootPath tree.entries path other := by
  have kept : ∀ {path : List String} {other : Entry}, Listing.RootPath tree.entries path other →
      other ∈ (tree.erase entry.id).entries := by
    intro path other reached
    have different : entry.id ≠ other.id := by
      intro same
      have one := Entry.distinct_of_nodup tree.nodup_ids entry member other reached.mem same
      exact unreached path (one ▸ reached)
    exact mem_erase_iff.mpr ⟨reached.mem, Ne.symm different⟩
  constructor
  · exact fun reached => reached.mono fun item stays => (mem_erase_iff.mp stays).1
  · intro reached
    induction reached with
    | root stored top => exact .root (kept (.root stored top)) top
    | beneath earlier stored under ih => exact .beneath ih (kept (.beneath earlier stored under)) under

end EntryTree

namespace Listing

/-- The order of the paths leaves no choice of the visits. -/
theorem visits_congr {entries others : List Entry} (nodup : (entries.map Entry.id).Nodup)
    (nodupOthers : (others.map Entry.id).Nodup)
    (same : ∀ path entry, RootPath entries path entry ↔ RootPath others path entry) :
    visits entries = visits others := by
  obtain ⟨visited, walked, members, ordered⟩ := visits_eq nodup
  obtain ⟨again, walkedAgain, membersAgain, orderedAgain⟩ := visits_eq nodupOthers
  have equal : visited = again := by
    refine eq_of_pathBefore ordered orderedAgain fun stop => ?_
    rw [members, membersAgain, same]
  rw [walked, walkedAgain, equal]

theorem rootPath_of_mem_visits {entries : List Entry} (nodup : (entries.map Entry.id).Nodup)
    {entry : Entry} {depth : Nat} (visited : (entry, depth) ∈ visits entries) :
    ∃ path, RootPath entries path entry := by
  obtain ⟨stops, walked, members, _⟩ := visits_eq nodup
  rw [walked] at visited
  obtain ⟨stop, member, same⟩ := List.mem_map.mp visited
  obtain ⟨rfl, _⟩ := Prod.mk.inj same
  exact ⟨stop.path, (members stop).mp member⟩

end Listing

/-- An entry that strays is not visited, and the listing is the one without it. -/
theorem EntryTree.Strays.unlisted {tree : EntryTree} {entry : Entry} (strays : tree.Strays entry)
    (member : entry ∈ tree.entries) :
    (∀ depth, (entry, depth) ∉ Listing.visits tree.entries) ∧
      (tree.erase entry.id).render = tree.render := by
  constructor
  · intro depth visited
    obtain ⟨path, reached⟩ := Listing.rootPath_of_mem_visits tree.nodup_ids visited
    exact strays.not_rootPath path reached
  · have visits := Listing.visits_congr (tree.erase entry.id).nodup_ids tree.nodup_ids
      fun path other => rootPath_erase_iff member strays.not_rootPath
    rw [render, render, Listing.render, Listing.render, Listing.lines, Listing.lines, visits]

end Caption
