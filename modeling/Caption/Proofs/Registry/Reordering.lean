import Caption.Proofs.Registry.Collecting
import Caption.Proofs.Registry.Popping
import Caption.Proofs.Registry.Straying

/-!
The order in which entries come. A listing sorts the siblings, so that it sees no order but theirs:
entries that come in another order give the same text as long as no two siblings have one id. If the
ids of all entries differ, a registry and a tree hold them in one order, and list them alike.
-/
namespace Caption

namespace Listing

/-- Whether no two siblings have one id. The same id may stand under several parents. -/
def SiblingsApart (entries : List Entry) : Prop :=
  entries.Pairwise fun left right => ¬(left.parentId = right.parentId ∧ left.id = right.id)

instance (entries : List Entry) : Decidable (SiblingsApart entries) :=
  inferInstanceAs (Decidable (entries.Pairwise fun left right =>
    ¬(left.parentId = right.parentId ∧ left.id = right.id)))

variable {entries others : List Entry}

namespace SiblingsApart

theorem of_nodup (nodup : (entries.map Entry.id).Nodup) : SiblingsApart entries := by
  apply (List.pairwise_map.mp nodup).imp
  intro left right different same
  exact different same.2

theorem perm (apart : SiblingsApart entries) (permuted : entries.Perm others) :
    SiblingsApart others := by
  apply (permuted.pairwise_iff ?_).mp apart
  intro left right different same
  exact different ⟨same.1.symm, same.2.symm⟩

theorem sorted_siblings (apart : SiblingsApart entries) (parentId : Option String) :
    Keyed.Sorted Entry.id (siblings (entries.mergeSort EntryTree.atMost) parentId) := by
  have weakly := List.pairwise_mergeSort EntryTree.atMost_trans EntryTree.atMost_total entries
  have sortedApart := apart.perm (List.mergeSort_perm entries EntryTree.atMost).symm
  apply List.pairwise_filter.mpr
  apply (weakly.and sortedApart).imp
  rintro left right ⟨atMost, different⟩ leftUnder rightUnder
  apply EntryTree.before_of_atMost atMost
  intro same
  have parents : left.parentId = right.parentId :=
    (of_decide_eq_true leftUnder).trans (of_decide_eq_true rightUnder).symm
  exact different ⟨parents, same⟩

/-- The siblings below one parent are the same in every order of the entries. -/
theorem siblings_eq (apart : SiblingsApart entries) (permuted : entries.Perm others)
    (parentId : Option String) :
    siblings (entries.mergeSort EntryTree.atMost) parentId =
      siblings (others.mergeSort EntryTree.atMost) parentId := by
  have sorted := apart.sorted_siblings parentId
  have sortedOthers := (apart.perm permuted).sorted_siblings parentId
  have sortedPermuted : (entries.mergeSort EntryTree.atMost).Perm
      (others.mergeSort EntryTree.atMost) :=
    (List.mergeSort_perm entries _).trans (permuted.trans (List.mergeSort_perm others _).symm)
  exact Keyed.eq_of_perm sorted sortedOthers (sortedPermuted.filter _)

end SiblingsApart

namespace Pops

variable {noted : List String} {pending popped later : List (Entry × Nat)}

/-- A loop sees nothing of the entries but the siblings below the ids that it pops. -/
theorem congr (same : ∀ id, siblings entries (some id) = siblings others (some id))
    (pops : Pops entries noted pending popped) : Pops others noted pending popped := by
  induction pops with
  | done noted => exact .done noted
  | first fresh next ih =>
    rw [same] at ih
    exact .first fresh ih
  | again known next ih => exact .again known ih

theorem unique (pops : Pops entries noted pending popped)
    (again : Pops entries noted pending later) : popped = later := by
  induction pops generalizing later with
  | done noted =>
    cases again
    rfl
  | first fresh next ih =>
    cases again with
    | first _ other => rw [ih other]
    | again known _ => exact absurd known fresh
  | again known next ih =>
    cases again with
    | first fresh _ => exact absurd known fresh
    | again _ other => rw [ih other]

end Pops

/-- The visits of a listing are what the loop pops that starts at the root. -/
theorem visits_pops (entries : List Entry) :
    Pops (entries.mergeSort EntryTree.atMost) []
      (atDepth 0 (siblings (entries.mergeSort EntryTree.atMost) none)) (visits entries) := by
  have whole : Remains (entries.mergeSort EntryTree.atMost) []
      (groups (entries.mergeSort EntryTree.atMost)) := fun id => by simp
  obtain ⟨popped, walked, pops⟩ := walk_pops whole
    (atDepth 0 (siblings (entries.mergeSort EntryTree.atMost) none)) []
  rw [visits, getD_groups, walked]
  exact pops

theorem visits_of_perm (apart : SiblingsApart entries) (permuted : entries.Perm others) :
    visits entries = visits others := by
  have pops := visits_pops entries
  rw [apart.siblings_eq permuted] at pops
  apply Pops.unique (pops.congr fun id => apart.siblings_eq permuted (some id))
  exact visits_pops others

theorem render_of_perm (apart : SiblingsApart entries) (permuted : entries.Perm others) :
    render entries = render others := by
  rw [render, render, lines, lines, visits_of_perm apart permuted]

end Listing

namespace EntryTree

/-- A tree lists its entries as they are listed in any order. -/
theorem render_of_perm {tree : EntryTree} {entries : List Entry}
    (permuted : tree.entries.Perm entries) : tree.render = Listing.render entries :=
  Listing.render_of_perm (Listing.SiblingsApart.of_nodup tree.nodup_ids) permuted

/-- The entries of a tree are in the order of their ids, whatever order they came in. -/
theorem entries_eq_of_perm {tree : EntryTree} {entries : List Entry}
    (permuted : tree.entries.Perm entries) : tree.entries = entries.mergeSort atMost := by
  have nodup := (permuted.map Entry.id).nodup_iff.mp tree.nodup_ids
  apply Keyed.eq_of_perm tree.sorted (Listing.sorted_mergeSort nodup)
  exact permuted.trans (List.mergeSort_perm entries atMost).symm

/-- The loop over a tree has nothing to sort. -/
theorem visits_pops (tree : EntryTree) :
    Listing.Pops tree.entries [] (Listing.atDepth 0 (Listing.siblings tree.entries none))
      (Listing.visits tree.entries) := by
  have pops := Listing.visits_pops tree.entries
  rw [← tree.entries_eq_of_perm (List.Perm.refl _)] at pops
  exact pops

variable {entries : List Entry} (nodup : (entries.map Entry.id).Nodup)
include nodup

theorem insertAll_empty_perm : (empty.insertAll entries).entries.Perm entries := by
  have stored := insertAll_perm empty nodup fun entry _ => get?_empty entry.id
  exact stored

theorem ofList_perm : (ofList entries).entries.Perm entries := by
  rw [ofList_eq_insertAll]
  exact insertAll_empty_perm nodup

end EntryTree

namespace Surface

/-- An entry that is registered with a host that does not answer is stored and published once. -/
theorem register_of_silent {surface : Surface} (silent : surface.reactions = []) (entry : Entry) :
    surface.register entry =
      (surface.placed entry).stored (surface.placed entry) (surface.placed entry).description :=
  publish_of_nil (show (surface.placed entry).reactions = [] from silent) _

theorem foldl_register_of_silent {surface : Surface} (silent : surface.reactions = [])
    (entries : List Entry) :
    (entries.foldl Surface.register surface).tree = surface.tree.insertAll entries := by
  induction entries generalizing surface with
  | nil => rfl
  | cons entry later ih =>
    rw [List.foldl_cons, register_of_silent silent]
    exact ih silent

end Surface

namespace Listing

/-- Entries of which no two siblings have one id give one listing, in whatever order they come. If all
their ids differ, then a registry on which they are registered in any order, with a host that does not
answer, and a tree into which they are collected in any order hold them sorted by their ids, and both
list them as they are listed themselves. -/
theorem render_ignores_order {entries others : List Entry} (permuted : entries.Perm others)
    (apart : SiblingsApart entries) :
    render entries = render others ∧
      ((entries.map Entry.id).Nodup →
        ∀ arranged : List Entry, arranged.Perm entries →
          ∀ fresh : Surface, fresh.tree = EntryTree.empty → fresh.reactions = [] →
            let surface := arranged.foldl Surface.register fresh
            let tree := EntryTree.ofList arranged
            surface.tree.entries = entries.mergeSort EntryTree.atMost ∧
              tree.entries = entries.mergeSort EntryTree.atMost ∧
              surface.description = render entries ∧ tree.render = render entries) := by
  refine ⟨render_of_perm apart permuted, ?_⟩
  intro nodup arranged rearranged fresh unused silent surface tree
  have nodupArranged : (arranged.map Entry.id).Nodup :=
    (rearranged.map Entry.id).nodup_iff.mpr nodup
  have registered : surface.tree.entries.Perm entries := by
    have stored := Surface.foldl_register_of_silent silent arranged
    rw [unused] at stored
    rw [stored]
    exact (EntryTree.insertAll_empty_perm nodupArranged).trans rearranged
  have collected : tree.entries.Perm entries :=
    (EntryTree.ofList_perm nodupArranged).trans rearranged
  refine ⟨?_, ?_, ?_, ?_⟩
  · exact EntryTree.entries_eq_of_perm registered
  · exact EntryTree.entries_eq_of_perm collected
  · exact EntryTree.render_of_perm registered
  · exact EntryTree.render_of_perm collected

/-- One id under two parents and under itself. -/
def repeated : List Entry :=
  [⟨"c", some "b", some "second"⟩, ⟨"a", none, some "top"⟩, ⟨"c", some "a", some "first"⟩,
    ⟨"b", none, none⟩, ⟨"c", some "c", some "self"⟩]

theorem render_repeated_ignores_order :
    repeated.Perm repeated.reverse ∧ SiblingsApart repeated ∧
      render repeated = render repeated.reverse ∧
      (mixed.map Entry.id).Nodup ∧
      (mixed.reverse.foldl Surface.register {}).description = render mixed ∧
      (EntryTree.ofList mixed.reverse).render = render mixed := by
  have reversed : repeated.Perm repeated.reverse := (List.reverse_perm repeated).symm
  have apart : SiblingsApart repeated := by decide
  have nodup : (mixed.map Entry.id).Nodup := by decide
  obtain ⟨same, _⟩ := render_ignores_order reversed apart
  obtain ⟨_, further⟩ := render_ignores_order (List.Perm.refl mixed) (SiblingsApart.of_nodup nodup)
  obtain ⟨_, _, registered, collected⟩ :=
    further nodup mixed.reverse (List.reverse_perm mixed) {} rfl rfl
  exact ⟨reversed, apart, same, nodup, registered, collected⟩

end Listing

end Caption
