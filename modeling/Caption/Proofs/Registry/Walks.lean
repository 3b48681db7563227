import Std.Data.HashMap.Lemmas
import Caption.Proofs.Registry.Paths
import Caption.Registry.Listing

/-!
The walk of a listing visits the entries in the order of their paths. Each entry that waits carries
its path; the paths that wait part from one another in their order, and no group that one of them
still leads to has been taken out.
-/
namespace Caption

namespace Listing

/-- The entries below an id, or at the root. -/
def siblings (entries : List Entry) (parentId : Option String) : List Entry :=
  entries.filter fun entry => entry.parentId = parentId

theorem mem_siblings {entries : List Entry} {parentId : Option String} {entry : Entry} :
    entry ∈ siblings entries parentId ↔ entry ∈ entries ∧ entry.parentId = parentId := by
  simp [siblings]

theorem sorted_siblings {entries : List Entry} (sorted : Keyed.Sorted Entry.id entries)
    (parentId : Option String) : Keyed.Sorted Entry.id (siblings entries parentId) :=
  List.Pairwise.filter _ sorted

theorem getD_groups (entries : List Entry) (parentId : Option String) :
    (groups entries).getD parentId [] = siblings entries parentId := by
  induction entries with
  | nil => simp [groups, siblings]
  | cons head rest ih =>
    rw [groups, List.foldr_cons, ← groups, Std.HashMap.getD_insert]
    by_cases same : head.parentId = parentId
    · subst parentId
      simp [ih, siblings]
    · simp [same, ih, siblings]

theorem mem_groups (entries : List Entry) (parentId : Option String) :
    parentId ∈ groups entries ↔ siblings entries parentId ≠ [] := by
  induction entries with
  | nil => simp [groups, siblings]
  | cons head rest ih =>
    rw [groups, List.foldr_cons, ← groups, Std.HashMap.mem_insert, ih]
    by_cases same : head.parentId = parentId
    · simp [same, siblings]
    · simp [same, siblings]

/-- An entry that waits, with its path. -/
structure Stop where
  path : List String
  entry : Entry

namespace Stop

/-- What a walk keeps of a stop. -/
def visit (stop : Stop) : Entry × Nat := (stop.entry, stop.path.length - 1)

def below (entries : List Entry) (stop : Stop) : List Stop :=
  (siblings entries (some stop.entry.id)).map fun entry => ⟨stop.path ++ [entry.id], entry⟩

def top (entries : List Entry) : List Stop :=
  (siblings entries none).map fun entry => ⟨[entry.id], entry⟩

variable {entries : List Entry} {stop next : Stop}

theorem map_visit_below (nonempty : stop.path ≠ []) :
    (below entries stop).map visit =
      atDepth (stop.path.length - 1 + 1) (siblings entries (some stop.entry.id)) := by
  have positive := List.length_pos_iff.mpr nonempty
  have depth : stop.path.length - 1 + 1 = stop.path.length := by omega
  simp [below, atDepth, visit, depth, Function.comp_def]

theorem map_visit_top : (top entries).map visit = atDepth 0 (siblings entries none) := by
  simp [top, atDepth, visit, Function.comp_def]

theorem exists_of_mem_below (member : next ∈ below entries stop) :
    ∃ entry ∈ entries, entry.parentId = some stop.entry.id ∧
      next = ⟨stop.path ++ [entry.id], entry⟩ := by
  obtain ⟨entry, sibling, rfl⟩ := List.mem_map.mp member
  obtain ⟨stored, under⟩ := mem_siblings.mp sibling
  exact ⟨entry, stored, under, rfl⟩

theorem prefix_of_mem_below (member : next ∈ below entries stop) : stop.path <+: next.path := by
  obtain ⟨entry, _, _, rfl⟩ := exists_of_mem_below member
  exact List.prefix_append _ _

/-- Siblings part at their own ids. -/
theorem parted_below (sorted : Keyed.Sorted Entry.id entries) (stop : Stop) :
    (below entries stop).Pairwise fun left right => PartsBefore left.path right.path := by
  refine List.pairwise_map.mpr ((sorted_siblings sorted _).imp ?_)
  intro left right before
  exact ⟨stop.path, left.id, right.id, [], [], rfl, rfl, before⟩

theorem parted_top (sorted : Keyed.Sorted Entry.id entries) :
    (top entries).Pairwise fun left right => PartsBefore left.path right.path := by
  refine List.pairwise_map.mpr ((sorted_siblings sorted _).imp ?_)
  intro left right before
  exact ⟨[], left.id, right.id, [], [], rfl, rfl, before⟩

end Stop

/-- A stop on a path from the root that one of the waiting paths begins. -/
def Awaited (entries : List Entry) (trail : List Stop) (stop : Stop) : Prop :=
  RootPath entries stop.path stop.entry ∧ ∃ waiting ∈ trail, waiting.path <+: stop.path

/-- What holds between the groups that remain and the stops that wait. -/
structure Follows (entries : List Entry) (remaining : Groups) (trail : List Stop) : Prop where
  reached : ∀ stop ∈ trail, RootPath entries stop.path stop.entry
  parted : trail.Pairwise fun left right => PartsBefore left.path right.path
  kept : ∀ stop, Awaited entries trail stop →
    remaining[some stop.entry.id]? = (groups entries)[some stop.entry.id]?

variable {entries : List Entry} {remaining : Groups} {trail rest : List Stop} {stop next : Stop}

theorem Awaited.of_mem (reached : RootPath entries stop.path stop.entry) (member : stop ∈ trail) :
    Awaited entries trail stop :=
  ⟨reached, stop, member, List.prefix_refl _⟩

/-- A stop on the way to `next` is either `next` itself or is passed towards one of the stops
below it. -/
theorem awaited_cons (distinct : Entry.Distinct entries)
    (reached : RootPath entries stop.path stop.entry) :
    Awaited entries (stop :: rest) next ↔
      next = stop ∨ Awaited entries (stop.below entries ++ rest) next := by
  constructor
  · rintro ⟨far, waiting, member, begins⟩
    rcases List.mem_cons.mp member with rfl | later
    · obtain ⟨more, whole⟩ := begins
      cases more with
      | nil =>
        left
        rw [List.append_nil] at whole
        rcases next with ⟨path, entry⟩
        obtain rfl : waiting.path = path := whole
        obtain rfl : waiting.entry = entry := reached.entry_unique distinct far
        rfl
      | cons id more =>
        right
        rw [← whole] at far
        obtain ⟨entry, stored, under, rfl⟩ := reached.child distinct far
        refine ⟨whole ▸ far, ⟨waiting.path ++ [entry.id], entry⟩, ?_, ?_⟩
        · apply List.mem_append_left
          exact List.mem_map.mpr ⟨entry, mem_siblings.mpr ⟨stored, under⟩, rfl⟩
        · exact ⟨more, by rw [← whole]; simp⟩
    · exact Or.inr ⟨far, waiting, List.mem_append_right _ later, begins⟩
  · rintro (rfl | ⟨far, waiting, member, begins⟩)
    · exact Awaited.of_mem reached List.mem_cons_self
    · rcases List.mem_append.mp member with new | later
      · exact ⟨far, stop, List.mem_cons_self, (Stop.prefix_of_mem_below new).trans begins⟩
      · exact ⟨far, waiting, List.mem_cons_of_mem _ later, begins⟩

/-- A stop comes before everything that is awaited once it has been left. -/
theorem pathBefore_of_awaited (parted : ∀ waiting ∈ rest, PartsBefore stop.path waiting.path)
    (awaited : Awaited entries (stop.below entries ++ rest) next) :
    PathBefore stop.path next.path := by
  obtain ⟨_, waiting, member, begins⟩ := awaited
  rcases List.mem_append.mp member with new | later
  · obtain ⟨entry, _, _, rfl⟩ := Stop.exists_of_mem_below new
    obtain ⟨more, whole⟩ := begins
    rw [← whole, List.append_assoc]
    exact pathBefore_append stop.path entry.id more
  · exact ((parted waiting later).extend (List.prefix_refl _) begins).pathBefore

namespace Follows

theorem mem_remaining (follows : Follows entries remaining (stop :: rest)) :
    some stop.entry.id ∈ remaining ↔ siblings entries (some stop.entry.id) ≠ [] := by
  have awaited := Awaited.of_mem (follows.reached stop List.mem_cons_self)
    (List.mem_cons_self (l := rest))
  rw [← mem_groups, Std.HashMap.mem_iff_isSome_getElem?, follows.kept stop awaited,
    Std.HashMap.mem_iff_isSome_getElem?]

theorem getD_remaining (follows : Follows entries remaining (stop :: rest)) :
    remaining.getD (some stop.entry.id) [] = siblings entries (some stop.entry.id) := by
  have awaited := Awaited.of_mem (follows.reached stop List.mem_cons_self)
    (List.mem_cons_self (l := rest))
  rw [← getD_groups, Std.HashMap.getD_eq_getD_getElem?, follows.kept stop awaited,
    Std.HashMap.getD_eq_getD_getElem?]

/-- Leaving a stop for the stops below it. Nothing that waits afterwards leads to its own group. -/
theorem leave (sorted : Keyed.Sorted Entry.id entries) (distinct : Entry.Distinct entries)
    (follows : Follows entries remaining (stop :: rest)) :
    Follows entries (remaining.erase (some stop.entry.id)) (stop.below entries ++ rest) := by
  have reached := follows.reached stop List.mem_cons_self
  have parted := List.pairwise_cons.mp follows.parted
  refine ⟨?_, ?_, ?_⟩
  · intro next member
    rcases List.mem_append.mp member with new | later
    · obtain ⟨entry, stored, under, rfl⟩ := Stop.exists_of_mem_below new
      exact .beneath reached stored under
    · exact follows.reached next (List.mem_cons_of_mem _ later)
  · refine List.pairwise_append.mpr ⟨Stop.parted_below sorted stop, parted.2, ?_⟩
    intro left new right later
    exact (parted.1 right later).extend (Stop.prefix_of_mem_below new) (List.prefix_refl _)
  · intro next awaited
    have apart : some stop.entry.id ≠ some next.entry.id := by
      intro same
      have before := pathBefore_of_awaited parted.1 awaited
      have sameEntry := distinct _ reached.mem _ awaited.1.mem (Option.some.inj same)
      have samePath : stop.path = next.path :=
        reached.path_unique distinct (sameEntry ▸ awaited.1)
      exact pathBefore_irrefl _ (samePath ▸ before)
    rw [Std.HashMap.getElem?_erase]
    simp only [beq_iff_eq, apart, if_false]
    exact follows.kept next ((awaited_cons distinct reached).mpr (Or.inr awaited))

theorem skip (follows : Follows entries remaining (stop :: rest)) :
    Follows entries remaining rest := by
  refine ⟨?_, (List.pairwise_cons.mp follows.parted).2, ?_⟩
  · exact fun next member => follows.reached next (List.mem_cons_of_mem _ member)
  · rintro next ⟨far, waiting, member, begins⟩
    exact follows.kept next ⟨far, waiting, List.mem_cons_of_mem _ member, begins⟩

end Follows

/-- The stops of a walk: what is awaited, in the order of the paths. -/
structure Covers (entries : List Entry) (trail visited : List Stop) : Prop where
  members : ∀ stop, stop ∈ visited ↔ Awaited entries trail stop
  ordered : visited.Pairwise fun left right => PathBefore left.path right.path

/-- A stop comes first, and then what is awaited below it and after it. -/
theorem Covers.cons {visited : List Stop} (distinct : Entry.Distinct entries)
    (follows : Follows entries remaining (stop :: rest))
    (covers : Covers entries (stop.below entries ++ rest) visited) :
    Covers entries (stop :: rest) (stop :: visited) := by
  have reached := follows.reached stop List.mem_cons_self
  have parted := (List.pairwise_cons.mp follows.parted).1
  constructor
  · intro next
    rw [awaited_cons distinct reached, List.mem_cons, covers.members]
  · refine List.pairwise_cons.mpr ⟨?_, covers.ordered⟩
    intro next member
    exact pathBefore_of_awaited parted ((covers.members next).mp member)

/-- A walk visits what is awaited, in the order of the paths. -/
theorem walk_visits (sorted : Keyed.Sorted Entry.id entries) (distinct : Entry.Distinct entries)
    (follows : Follows entries remaining trail) (done : List (Entry × Nat)) :
    ∃ visited : List Stop,
      walk remaining (trail.map Stop.visit) done = done.reverse ++ visited.map Stop.visit ∧
        Covers entries trail visited := by
  generalize whole : trail.map Stop.visit = pending
  induction remaining, pending, done using walk.induct generalizing trail with
  | case1 remaining done =>
    obtain rfl := List.map_eq_nil_iff.mp whole
    exact ⟨[], by simp [walk], by simp [Awaited], List.Pairwise.nil⟩
  | case2 remaining done entry depth waiting present ih =>
    obtain ⟨stop, rest, rfl, visit, rfl⟩ := List.map_eq_cons_iff.mp whole
    obtain ⟨rfl, rfl⟩ := Prod.mk.inj visit
    have reached := follows.reached stop List.mem_cons_self
    obtain ⟨visited, walked, covers⟩ := ih (follows.leave sorted distinct) (by
      rw [List.map_append, Stop.map_visit_below reached.ne_nil, follows.getD_remaining])
    refine ⟨stop :: visited, ?_, covers.cons distinct follows⟩
    rw [walk, if_pos present, walked]
    simp [Stop.visit]
  | case3 remaining done entry depth waiting absent ih =>
    obtain ⟨stop, rest, rfl, visit, rfl⟩ := List.map_eq_cons_iff.mp whole
    obtain ⟨rfl, rfl⟩ := Prod.mk.inj visit
    have childless : stop.below entries = [] := by
      rw [follows.mem_remaining, Decidable.not_not] at absent
      simp [Stop.below, absent]
    obtain ⟨visited, walked, covers⟩ := ih follows.skip rfl
    rw [← List.nil_append rest, ← childless] at covers
    refine ⟨stop :: visited, ?_, covers.cons distinct follows⟩
    rw [walk, if_neg absent, walked]
    simp [Stop.visit]

end Listing

end Caption
