import Mathlib.Data.List.Forall2
import Caption.Proofs.Registry.Reordering
import Caption.Proofs.Splitting

/-!
The lines of a listing. A bullet holds the whole text of its entry, line feeds and all, so that it is
one line for texts without a line feed, and as many lines as its text has otherwise.
-/
namespace Caption

namespace Listing

/-- The described entries that are reached from the root, in depth-first order, and the path and the
text of each. -/
structure Recites (entries shown : List Entry) (listed : List (List String × String)) : Prop where
  nodup : shown.Nodup
  members : ∀ entry, entry ∈ shown ↔
    (∃ path, RootPath entries path entry) ∧
      ∃ content, entry.content = some content ∧ Text.trim content ≠ ""
  told : List.Forall₂ (fun entry item =>
    RootPath entries item.1 entry ∧
      ∃ content, entry.content = some content ∧ Text.trim content = item.2) shown listed
  ordered : listed.Pairwise fun left right => PathBefore left.1 right.1

/-- A described stop with its text. -/
def Stop.telling? (stop : Stop) : Option (Stop × String) := stop.entry.description?.map (stop, ·)

theorem Stop.telling?_eq_some {stop : Stop} {told : Stop × String} :
    stop.telling? = some told ↔ told.1 = stop ∧ stop.entry.description? = some told.2 := by
  rw [Stop.telling?, Option.map_eq_some_iff]
  constructor
  · rintro ⟨text, described, rfl⟩
    exact ⟨rfl, described⟩
  · rintro ⟨rfl, described⟩
    exact ⟨told.2, described, rfl⟩

section Visited

variable {entries : List Entry} {visited : List Stop}

/-- What visits in the order of their paths recite. -/
theorem recites_visited (nodup : (entries.map Entry.id).Nodup)
    (members : ∀ stop, stop ∈ visited ↔ RootPath entries stop.path stop.entry)
    (ordered : visited.Pairwise fun left right => PathBefore left.path right.path) :
    Recites entries ((visited.filterMap Stop.telling?).map fun told => told.1.entry)
      ((visited.filterMap Stop.telling?).map fun told => (told.1.path, told.2)) := by
  have distinct := Entry.distinct_of_nodup nodup
  have reached : ∀ told ∈ visited.filterMap Stop.telling?,
      RootPath entries told.1.path told.1.entry ∧ told.1.entry.description? = some told.2 := by
    intro told member
    obtain ⟨stop, present, tells⟩ := List.mem_filterMap.mp member
    obtain ⟨rfl, described⟩ := Stop.telling?_eq_some.mp tells
    exact ⟨(members _).mp present, described⟩
  have inOrder : (visited.filterMap Stop.telling?).Pairwise fun left right =>
      PathBefore left.1.path right.1.path := by
    apply List.pairwise_filterMap.mpr
    apply ordered.imp
    intro left right before first leftTells second rightTells
    rw [(Stop.telling?_eq_some.mp leftTells).1, (Stop.telling?_eq_some.mp rightTells).1]
    exact before
  refine ⟨?_, ?_, ?_, ?_⟩
  · -- An entry has one path, so that it does not come again behind itself.
    apply List.pairwise_map.mpr
    apply inOrder.imp_of_mem
    intro left right leftMember rightMember before same
    have path := (same ▸ (reached left leftMember).1).path_unique distinct (reached right rightMember).1
    exact pathBefore_irrefl _ (path ▸ before)
  · intro entry
    rw [List.mem_map]
    constructor
    · rintro ⟨told, member, rfl⟩
      obtain ⟨path, described⟩ := reached told member
      obtain ⟨content, given, visible, _⟩ := Entry.description?_eq_some.mp described
      exact ⟨⟨_, path⟩, content, given, visible⟩
    · rintro ⟨⟨path, root⟩, content, given, visible⟩
      have described := Entry.description?_eq_some.mpr ⟨content, given, visible, rfl⟩
      refine ⟨(⟨path, entry⟩, Text.trim content), ?_, rfl⟩
      apply List.mem_filterMap.mpr
      exact ⟨⟨path, entry⟩, (members _).mpr root, Stop.telling?_eq_some.mpr ⟨rfl, described⟩⟩
  · rw [List.forall₂_map_left_iff, List.forall₂_map_right_iff, List.forall₂_same]
    intro told member
    obtain ⟨path, described⟩ := reached told member
    obtain ⟨content, given, _, trimmed⟩ := Entry.description?_eq_some.mp described
    exact ⟨path, content, given, trimmed⟩
  · exact List.pairwise_map.mpr inOrder

theorem map_telling (visited : List Stop) :
    (visited.filterMap Stop.telling?).map (fun told => (told.1.path, told.2)) =
      visited.filterMap fun stop => stop.entry.description?.map (stop.path, ·) := by
  rw [List.map_filterMap]
  congr 1
  funext stop
  simp [Stop.telling?, Function.comp_def]

end Visited

/-- The text of a listing has the bullets of the described entries, with a line feed between them. -/
theorem exists_recites {entries : List Entry} (nodup : (entries.map Entry.id).Nodup) :
    ∃ shown listed, Recites entries shown listed ∧
      render entries = String.intercalate "\n" (listed.map bullet) := by
  obtain ⟨visited, walked, members, ordered⟩ := visits_eq nodup
  refine ⟨_, _, recites_visited nodup members ordered, ?_⟩
  rw [map_telling]
  exact render_of_visits walked

theorem bullet_ne_empty (item : List String × String) : bullet item ≠ "" := by
  intro empty
  have characters := congrArg String.length empty
  simp [bullet] at characters

theorem isLine_bullet {item : List String × String} :
    Text.IsLine (bullet item) ↔ Text.IsLine item.2 := by
  have mark : Text.IsLine "- " := by decide
  have indent : Text.IsLine (String.ofList (List.replicate (2 * (item.1.length - 1)) ' ')) := by
    simp [Text.IsLine]
  rw [bullet, Text.isLine_append, Text.isLine_append]
  simp [mark, indent]

/-- The lines of a listing are those of its bullets, one after the other: a bullet for each described
entry that is reached from the root, in depth-first order, with the whole text of the entry. There are
at least as many lines as such entries, just as many if none of their texts has a line feed and only
then, and each bullet is a line then. -/
theorem lines_render_eq_bullets (tree : EntryTree) :
    ∃ shown listed, Recites tree.entries shown listed ∧
      Text.lines tree.render = (listed.map bullet).flatMap Text.split ∧
      shown.length ≤ (Text.lines tree.render).length ∧
      ((Text.lines tree.render).length = shown.length ↔ ∀ item ∈ listed, Text.IsLine item.2) ∧
      ((∀ item ∈ listed, Text.IsLine item.2) → Text.lines tree.render = listed.map bullet) := by
  obtain ⟨shown, listed, recites, rendered⟩ := exists_recites tree.nodup_ids
  have parts : Text.lines tree.render = (listed.map bullet).flatMap Text.split := by
    rw [EntryTree.render, rendered]
    apply Text.lines_intercalate
    intro part member
    obtain ⟨item, _, rfl⟩ := List.mem_map.mp member
    exact bullet_ne_empty item
  have each : (∀ part ∈ listed.map bullet, Text.IsLine part) ↔
      ∀ item ∈ listed, Text.IsLine item.2 := by
    simp only [List.forall_mem_map, isLine_bullet]
  have length : shown.length = (listed.map bullet).length := by
    rw [List.length_map, recites.told.length_eq]
  refine ⟨shown, listed, recites, parts, ?_, ?_, ?_⟩
  · rw [parts, length]
    exact Text.length_le_length_flatMap_split _
  · rw [parts, length, Text.length_flatMap_split_eq_iff, each]
  · intro plain
    rw [parts]
    exact Text.flatMap_split_of_isLine (each.mpr plain)

/-- One entry whose text goes on behind a line feed as if a second one stood there. -/
def forged : EntryTree := EntryTree.empty.insert ⟨"a", none, some "x\n- y"⟩

def genuine : EntryTree := (EntryTree.empty.insert ⟨"a", none, some "x"⟩).insert ⟨"b", none, some "y"⟩

/-- The entry of `forged` is its only one, and yet there are two lines, the same as those of two
entries. -/
theorem lines_forged :
    forged.entries = [⟨"a", none, some "x\n- y"⟩] ∧
      RootPath forged.entries ["a"] ⟨"a", none, some "x\n- y"⟩ ∧
      Text.lines forged.render = ["- x", "- y"] ∧ forged.render = genuine.render := by
  have alone : visits forged.entries = [(⟨"a", none, some "x\n- y"⟩, 0)] := by
    apply forged.visits_pops.unique
    exact .first (by decide) (.done _)
  have both : visits genuine.entries =
      [(⟨"a", none, some "x"⟩, 0), (⟨"b", none, some "y"⟩, 0)] := by
    apply genuine.visits_pops.unique
    exact .first (by decide) (.first (by decide) (.done _))
  have shown : forged.render = "- x\n- y" := by
    rw [EntryTree.render, render, lines, alone]
    decide
  have shownBoth : genuine.render = "- x\n- y" := by
    rw [EntryTree.render, render, lines, both]
    decide
  refine ⟨rfl, .root List.mem_cons_self rfl, ?_, shown.trans shownBoth.symm⟩
  rw [shown]
  decide

end Listing

end Caption
