import Caption.Proofs.Registry.Naming
import Caption.Proofs.Registry.Performing
import Caption.Proofs.Registry.Settling

/-!
A host that answers each publication with one toast as long as it has any. Each toast is published
while the ones before it still stand, and the last one is the first to go.
-/
namespace Caption

/-- The answer of a host that shows a toast once a listing is stored. -/
def Reaction.showing (content : Option String) : Reaction := { afterStore := [.toast content] }

/-- The entries of toasts, under the fresh ids from a counter on. -/
def Entry.toasts (counter : UInt64) : List (Option String) → List Entry
  | [] => []
  | content :: later => ⟨idOfCounter counter, none, content⟩ :: toasts (counter + 1) later

/-- The tree that a single change by hand makes; a toast is none. -/
def Mutation.single? (tree : EntryTree) : Mutation → Option EntryTree
  | .register entry => some (tree.insert entry)
  | .unregister id => some (tree.erase id)
  | .toast _ => none

section Toasts

variable {counter : UInt64} {contents : List (Option String)} {entry : Entry}

@[simp] theorem Entry.length_toasts (counter : UInt64) (contents : List (Option String)) :
    (Entry.toasts counter contents).length = contents.length := by
  induction contents generalizing counter with
  | nil => rfl
  | cons content later ih => rw [Entry.toasts, List.length_cons, ih, List.length_cons]

theorem Entry.map_id_toasts (counter : UInt64) (contents : List (Option String)) :
    (Entry.toasts counter contents).map Entry.id = idsFrom counter contents.length := by
  induction contents generalizing counter with
  | nil => rfl
  | cons content later ih => rw [Entry.toasts, List.map_cons, ih, List.length_cons, idsFrom]

theorem Entry.ne_of_mem_later_toasts (room : counter.toNat + 1 + contents.length < 2 ^ 64)
    (member : entry ∈ Entry.toasts (counter + 1) contents) : idOfCounter counter ≠ entry.id := by
  have ordered : (idsFrom counter (contents.length + 1)).Pairwise
      fun left right => Text.before left right = true := pairwise_idsFrom (by omega)
  have later : entry.id ∈ idsFrom (counter + 1) contents.length := by
    rw [← map_id_toasts]
    exact List.mem_map.mpr ⟨entry, member, rfl⟩
  exact Text.ne_of_before ((List.pairwise_cons.mp ordered).1 entry.id later)

theorem Entry.nodup_ids_toasts (room : counter.toNat + contents.length < 2 ^ 64) :
    ((Entry.toasts counter contents).map Entry.id).Nodup := by
  rw [map_id_toasts]
  exact (pairwise_idsFrom room).imp Text.ne_of_before

end Toasts

namespace EntryTree

def insertAll (tree : EntryTree) (entries : List Entry) : EntryTree := entries.foldl insert tree

/-- Entries under new ids stand beside those that are there. -/
theorem insertAll_perm (tree : EntryTree) {entries : List Entry}
    (nodup : (entries.map Entry.id).Nodup) (absent : ∀ entry ∈ entries, tree.get? entry.id = none) :
    (tree.insertAll entries).entries.Perm (tree.entries ++ entries) := by
  induction entries generalizing tree with
  | nil => simp [insertAll]
  | cons entry later ih =>
    obtain ⟨fresh, others⟩ := List.nodup_cons.mp nodup
    obtain ⟨free, rest⟩ := List.forall_mem_cons.mp absent
    have placed : (tree.insert entry).entries.Perm (entry :: tree.entries) := by
      have stored := Keyed.perm_put tree.sorted entry
      rw [Keyed.remove_eq_self free] at stored
      exact stored
    have further := ih (tree.insert entry) others fun other member => by
      have apart : entry.id ≠ other.id := fun same =>
        fresh (List.mem_map.mpr ⟨other, member, same.symm⟩)
      rw [get?_insert, if_neg apart, rest other member]
    refine further.trans ((placed.append_right later).trans ?_)
    exact List.perm_middle.symm

/-- An entry that comes under a new id and goes again leaves nothing behind. -/
theorem erase_insert {tree : EntryTree} {entry : Entry} (free : tree.get? entry.id = none) :
    (tree.insert entry).erase entry.id = tree :=
  erase_followAll_insert free (List.forall_mem_nil _)

/-- The trees that stand at the writes while toasts come and go over a tree: one more at each write
up to the last one, and then one less. -/
def tide (tree : EntryTree) (toasts : List Entry) : List EntryTree :=
  (List.range (2 * toasts.length + 1)).map fun index =>
    tree.insertAll (toasts.take (min index (2 * toasts.length - index)))

theorem tide_cons (tree : EntryTree) (toast : Entry) (later : List Entry) :
    tree.tide (toast :: later) = tree :: ((tree.insert toast).tide later ++ [tree]) := by
  have count : 2 * (toast :: later).length = 2 * later.length + 2 := by
    rw [List.length_cons]
    omega
  have between : ∀ index ∈ List.range (2 * later.length + 1),
      tree.insertAll ((toast :: later).take (min (index + 1) (2 * later.length + 2 - (index + 1)))) =
        (tree.insert toast).insertAll (later.take (min index (2 * later.length - index))) := by
    intro index member
    have bounded := List.mem_range.mp member
    have level : min (index + 1) (2 * later.length + 2 - (index + 1)) =
        min index (2 * later.length - index) + 1 := by omega
    rw [level, List.take_succ_cons]
    rfl
  rw [tide, count, List.range_succ, List.range_succ_eq_map, List.map_append, List.map_cons,
    List.map_map, List.map_singleton, List.cons_append, tide, ← List.map_congr_left between]
  simp [insertAll, Function.comp_def]

end EntryTree

namespace Surface

variable {surface : Surface} {contents : List (Option String)}

/-- What a publication leaves to whose store toasts are the answer. -/
structure Subsides (before : Surface) (contents : List (Option String)) (after : Surface) : Prop where
  tree : after.tree = before.tree
  counter : after.counter.toNat = before.counter.toNat + contents.length
  writes : after.writes = before.writes + (2 * contents.length + 1)
  reactions : after.reactions = []
  seen : after.seen = before.seen ++ before.tree.tide (Entry.toasts before.counter contents)

theorem published_of_nil (plain : surface.reactions = []) :
    published Surface.publish surface = surface.stored surface surface.description := by
  rw [published, publish_of_nil plain]
  rfl

/-- A publication with toasts to come stores the listing, publishes again with the first toast in
place, and then once more without it. -/
theorem published_of_showing {content : Option String} {later : List (Option String)}
    (queue : surface.reactions = (content :: later).map Reaction.showing) :
    ∃ shown : Surface, shown.tree = surface.tree.insert ⟨idOfCounter surface.counter, none, content⟩ ∧
      shown.counter = surface.counter + 1 ∧ shown.writes = surface.writes + 1 ∧
      shown.reactions = later.map Reaction.showing ∧ shown.seen = surface.seen ++ [surface.tree] ∧
      published Surface.publish surface = published Surface.publish
        ((published Surface.publish shown).cleared (idOfCounter surface.counter)) := by
  refine ⟨(({ surface with reactions := later.map Reaction.showing } : Surface).stored
    { surface with reactions := later.map Reaction.showing } surface.description).named.placed
      ⟨idOfCounter surface.counter, none, content⟩, rfl, rfl, rfl, rfl, rfl, ?_⟩
  rw [published, publish_of_cons queue, publishWith_eq]
  rfl

/-- Toasts leave the tree as it was. The induction is on the toasts that wait: while the first one
stands, the others come and go over it. -/
theorem published_subsides (queue : surface.reactions = contents.map Reaction.showing)
    (room : surface.counter.toNat + contents.length < 2 ^ 64)
    (free : ∀ toast ∈ Entry.toasts surface.counter contents, surface.tree.get? toast.id = none) :
    Subsides surface contents (published Surface.publish surface) := by
  induction contents generalizing surface with
  | nil =>
    rw [published_of_nil queue]
    exact ⟨rfl, rfl, rfl, queue, rfl⟩
  | cons content later ih =>
    rw [List.length_cons] at room
    obtain ⟨own, others⟩ := List.forall_mem_cons.mp free
    have next : (surface.counter + 1).toNat = surface.counter.toNat + 1 := toNat_succ (by omega)
    obtain ⟨shown, tree, counter, writes, waiting, seen, unwound⟩ := published_of_showing queue
    have shows : Subsides shown later (published Surface.publish shown) := by
      refine ih waiting (by rw [counter]; omega) fun toast member => ?_
      rw [counter] at member
      rw [tree, EntryTree.get?_insert, if_neg, others toast member]
      exact Entry.ne_of_mem_later_toasts (by omega) member
    have restored : (published Surface.publish shown).tree.erase (idOfCounter surface.counter) =
        surface.tree := by
      rw [shows.tree, tree]
      exact EntryTree.erase_insert own
    rw [unwound, published_of_nil (show ((published Surface.publish shown).cleared _).reactions = []
      from shows.reactions)]
    refine ⟨restored, ?_, ?_, shows.reactions, ?_⟩
    · refine shows.counter.trans ?_
      rw [counter, List.length_cons]
      omega
    · refine (congrArg (· + 1) shows.writes).trans ?_
      rw [writes, List.length_cons]
      omega
    · change (published Surface.publish shown).seen ++
        [(published Surface.publish shown).tree.erase (idOfCounter surface.counter)] = _
      rw [restored, shows.seen, seen, tree, counter, Entry.toasts, EntryTree.tide_cons]
      simp

/-- A single change by hand is published as it stands. -/
theorem mutate_of_single {mutation : Mutation} {tree : EntryTree}
    (single : mutation.single? surface.tree = some tree) :
    surface.mutate mutation = published Surface.publish { surface with tree := tree } := by
  cases mutation with
  | register entry => cases single; rfl
  | unregister id => cases single; rfl
  | toast content => cases single

/-- A change by hand over a host with toasts writes once for the change and twice for each toast. At
the writes stand the toasts that have come and not gone again, under fresh ids: one more each time up
to the last one, and then one less. In the end there is nothing but the change and its listing. -/
theorem mutate_shows_toasts (surface : Surface) (contents : List (Option String))
    (queue : surface.reactions = contents.map Reaction.showing) {mutation : Mutation}
    {tree : EntryTree} (single : mutation.single? surface.tree = some tree)
    (room : surface.counter.toNat + contents.length < 2 ^ 64)
    (free : ∀ toast ∈ Entry.toasts surface.counter contents, tree.get? toast.id = none) :
    let toasts := Entry.toasts surface.counter contents
    let after := surface.mutate mutation
    after.writes = surface.writes + (2 * contents.length + 1) ∧
      after.reactions = [] ∧
      after.seen.length = surface.seen.length + (2 * contents.length + 1) ∧
      surface.seen <+: after.seen ∧
      (∀ index ≤ 2 * contents.length, ∃ shown,
        after.seen[surface.seen.length + index]? = some shown ∧
          shown.entries.Perm
            (tree.entries ++ toasts.take (min index (2 * contents.length - index))) ∧
          shown.size = tree.size + min index (2 * contents.length - index)) ∧
      after.tree = tree ∧
      after.counter.toNat = surface.counter.toNat + contents.length ∧
      after.stateText? surface.stateKey = some tree.render := by
  intro toasts after
  have subsides : Subsides { surface with tree := tree } contents after := by
    rw [show after = surface.mutate mutation from rfl, mutate_of_single single]
    exact published_subsides queue room free
  have seen : after.seen = surface.seen ++ tree.tide toasts := subsides.seen
  have count : toasts.length = contents.length := Entry.length_toasts _ _
  refine ⟨subsides.writes, subsides.reactions, ?_, seen ▸ List.prefix_append _ _, ?_, subsides.tree,
    subsides.counter, ?_⟩
  · rw [seen, List.length_append, EntryTree.tide, List.length_map, List.length_range, count]
  · intro index bounded
    let level := min index (2 * contents.length - index)
    have perm : (tree.insertAll (toasts.take level)).entries.Perm
        (tree.entries ++ toasts.take level) := by
      apply EntryTree.insertAll_perm
      · exact (Entry.nodup_ids_toasts room).sublist ((List.take_sublist _ _).map _)
      · exact fun toast member => free toast ((List.take_sublist _ _).subset member)
    refine ⟨tree.insertAll (toasts.take level), ?_, perm, ?_⟩
    · rw [seen, List.getElem?_append_right (Nat.le_add_right _ _), Nat.add_sub_cancel_left,
        EntryTree.tide, count, List.getElem?_map, List.getElem?_range (by omega), Option.map_some]
    · have height : level ≤ contents.length := by omega
      rw [EntryTree.size, perm.length_eq, List.length_append, List.length_take, count,
        Nat.min_eq_left height, EntryTree.size]
  · have trails : surface.Trails := by
      intro reaction member
      rw [queue] at member
      obtain ⟨content, _, rfl⟩ := List.mem_map.mp member
      exact ⟨rfl, rfl, rfl⟩
    have settles := mutate_settles trails mutation
    rw [stateText?, settles.state, Members.ofState, Members.get?_set, if_pos rfl, Option.bind_some,
      description]
    exact congrArg (some ·.render) subsides.tree

/-- A host that answers the next two publications with a toast each. -/
def greeting : Surface := { reactions := [some "hello", some "again"].map Reaction.showing }

theorem mutate_greeting_shows_toasts :
    let entry : Entry := ⟨"m", none, some "by hand"⟩
    let after := greeting.mutate (.register entry)
    (∀ toast ∈ Entry.toasts 0 [some "hello", some "again"],
        (EntryTree.empty.insert entry).get? toast.id = none) ∧
      after.writes = 5 ∧ after.tree = EntryTree.empty.insert entry ∧
      ∃ shown, after.seen[2]? = some shown ∧
        shown.entries.Perm (entry :: Entry.toasts 0 [some "hello", some "again"]) := by
  intro entry after
  have free : ∀ toast ∈ Entry.toasts 0 [some "hello", some "again"],
      (EntryTree.empty.insert entry).get? toast.id = none := by decide
  obtain ⟨writes, _, _, _, stands, tree, _, _⟩ :=
    mutate_shows_toasts greeting [some "hello", some "again"] rfl
      (show (Mutation.register entry).single? _ = some (EntryTree.empty.insert entry) from rfl)
      (by decide) free
  obtain ⟨shown, third, entries, _⟩ := stands 2 (by decide)
  exact ⟨free, writes, tree, shown, third, entries⟩

end Surface

end Caption
