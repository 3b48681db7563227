import Caption.Proofs.Registry.Tracking

/-!
What toasts leave to the entries under ids that were issued before them. Under such an id a tree that
stands later holds an entry only if one stood there earlier, and below the same parent; this goes for
the trees in the midst of a publication as well.
-/
namespace Caption

/-- Whether a mutation is a toast. -/
def Mutation.Floats : Mutation → Prop
  | .toast _ => True
  | _ => False

instance (mutation : Mutation) : Decidable mutation.Floats :=
  match mutation with
  | .toast _ => inferInstanceAs (Decidable True)
  | .register _ | .unregister _ => inferInstanceAs (Decidable False)

/-- A host that does nothing but show toasts in a publication. -/
structure Reaction.Toasts (reaction : Reaction) : Prop where
  beforeRead : ∀ mutation ∈ reaction.beforeRead, mutation.Floats
  between : ∀ mutation ∈ reaction.afterRead ++ reaction.beforeStore, mutation.Floats
  afterStore : ∀ mutation ∈ reaction.afterStore, mutation.Floats

instance (reaction : Reaction) : Decidable reaction.Toasts :=
  decidable_of_iff
    ((∀ mutation ∈ reaction.beforeRead, mutation.Floats) ∧
      (∀ mutation ∈ reaction.afterRead ++ reaction.beforeStore, mutation.Floats) ∧
        ∀ mutation ∈ reaction.afterStore, mutation.Floats)
    ⟨fun ⟨first, second, third⟩ => ⟨first, second, third⟩,
      fun toasts => ⟨toasts.beforeRead, toasts.between, toasts.afterStore⟩⟩

namespace EntryTree

/-- What stands in a tree under an id issued before a counter stood there in an earlier tree, below
the same parent. -/
def Inherits (counter : UInt64) (after before : EntryTree) : Prop :=
  ∀ number < counter, ∀ entry, after.get? (idOfCounter number) = some entry →
    ∃ earlier, before.get? (idOfCounter number) = some earlier ∧ earlier.parentId = entry.parentId

variable {counter next : UInt64} {first second third tree : EntryTree} {entry earlier : Entry}

theorem inherits_refl (counter : UInt64) (tree : EntryTree) : Inherits counter tree tree :=
  fun _ _ entry standing => ⟨entry, standing, rfl⟩

theorem Inherits.trans (late : Inherits next third second) (behind : counter ≤ next)
    (early : Inherits counter second first) : Inherits counter third first := by
  intro number issued entry standing
  obtain ⟨middle, stood, same⟩ := late number (UInt64.lt_of_lt_of_le issued behind) entry standing
  obtain ⟨earlier, before, again⟩ := early number issued middle stood
  exact ⟨earlier, before, again.trans same⟩

theorem inherits_erase (counter : UInt64) (tree : EntryTree) (id : String) :
    (tree.erase id).Inherits counter tree := by
  intro number issued entry standing
  rw [get?_erase] at standing
  split at standing
  · cases standing
  · exact ⟨entry, standing, rfl⟩

/-- An entry under an id issued later. -/
theorem inherits_insert_fresh (tree : EntryTree) (named : entry.id = idOfCounter next)
    (behind : counter ≤ next) : (tree.insert entry).Inherits counter tree := by
  intro number issued other standing
  rw [get?_insert, named, if_neg] at standing
  · exact ⟨other, standing, rfl⟩
  · intro same
    rw [idOfCounter_inj] at same
    subst same
    exact absurd (UInt64.lt_of_lt_of_le issued behind) (UInt64.lt_irrefl _)

/-- An entry in the place of one below the same parent. -/
theorem inherits_insert_same (counter : UInt64) (standing : tree.get? entry.id = some earlier)
    (same : earlier.parentId = entry.parentId) : (tree.insert entry).Inherits counter tree := by
  intro number issued other stands
  rw [get?_insert] at stands
  by_cases here : entry.id = idOfCounter number
  · rw [if_pos here] at stands
    obtain rfl := Option.some.inj stands
    exact ⟨earlier, here ▸ standing, same⟩
  · rw [if_neg here] at stands
    exact ⟨other, stands, rfl⟩

end EntryTree

namespace Surface

/-- A host that does nothing but show toasts, in any publication to come. -/
def Toasts (surface : Surface) : Prop := ∀ reaction ∈ surface.reactions, reaction.Toasts

/-- A later surface: it and all that was seen on the way inherit from the tree before. -/
structure Descends (before after : Surface) : Prop where
  counter : before.counter ≤ after.counter
  reactions : after.reactions <:+ before.reactions
  tree : after.tree.Inherits before.counter before.tree
  seen : ∃ later, after.seen = before.seen ++ later ∧
    ∀ shown ∈ later, shown.Inherits before.counter before.tree

variable {limit left : Nat} {surface first second third : Surface} {entry : Entry}

namespace Descends

theorem toasts (descends : Descends first second) (toasts : first.Toasts) : second.Toasts :=
  fun reaction member => toasts reaction (descends.reactions.subset member)

theorem few (descends : Descends first second) (few : first.reactions.length ≤ left) :
    second.reactions.length ≤ left :=
  Nat.le_trans descends.reactions.length_le few

theorem refl (surface : Surface) : Descends surface surface :=
  ⟨UInt64.le_refl _, List.suffix_refl _, EntryTree.inherits_refl _ _, [], by simp, by simp⟩

theorem trans (early : Descends first second) (late : Descends second third) :
    Descends first third := by
  refine ⟨UInt64.le_trans early.counter late.counter, late.reactions.trans early.reactions,
    late.tree.trans early.counter early.tree, ?_⟩
  obtain ⟨former, seenFormer, inherits⟩ := early.seen
  obtain ⟨latter, seenLatter, further⟩ := late.seen
  refine ⟨former ++ latter, by rw [seenLatter, seenFormer, List.append_assoc], ?_⟩
  intro shown member
  rcases List.mem_append.mp member with before | after
  · exact inherits shown before
  · exact (further shown after).trans early.counter early.tree

theorem of_host (tree : second.tree = first.tree) (counter : second.counter = first.counter)
    (reactions : second.reactions = first.reactions) (seen : second.seen = first.seen) :
    Descends first second :=
  ⟨counter ▸ UInt64.le_refl _, reactions ▸ List.suffix_refl _, tree ▸ EntryTree.inherits_refl _ _, [],
    by simp [seen], by simp⟩

theorem of_tree {tree : EntryTree} (inherits : tree.Inherits surface.counter surface.tree) :
    Descends surface { surface with tree := tree } :=
  ⟨UInt64.le_refl _, List.suffix_refl _, inherits, [], by simp, by simp⟩

theorem cleared (surface : Surface) (id : String) : Descends surface (surface.cleared id) :=
  of_tree (EntryTree.inherits_erase _ _ _)

theorem named (room : surface.counter.toNat + 1 < 2 ^ 64) : Descends surface surface.named := by
  refine ⟨?_, List.suffix_refl _, EntryTree.inherits_refl _ _, [], by simp [Surface.named], by simp⟩
  rw [UInt64.le_iff_toNat_le]
  change _ ≤ (surface.counter + 1).toNat
  rw [toNat_succ room]
  exact Nat.le_succ _

/-- An entry under an id that was issued on the way. -/
theorem placed {number : UInt64} (descends : Descends first second)
    (named : entry.id = idOfCounter number) (behind : first.counter ≤ number) :
    Descends first (second.placed entry) := by
  refine ⟨descends.counter, descends.reactions, ?_, descends.seen⟩
  exact (EntryTree.inherits_insert_fresh second.tree named behind).trans (UInt64.le_refl _)
    descends.tree

theorem stored (descends : Descends first second) (asked : Surface) (text : String) :
    Descends first (second.stored asked text) := by
  refine descends.trans ⟨UInt64.le_refl _, List.suffix_refl _, EntryTree.inherits_refl _ _,
    [second.tree], rfl, ?_⟩
  intro shown member
  rw [List.mem_singleton.mp member]
  exact EntryTree.inherits_refl _ _

end Descends

/-- Publications to a host with few toasts left are descents. -/
def Descending (limit left : Nat) : Prop :=
  ∀ (surface : Surface) (text : String), surface.Toasts → surface.reactions.length ≤ left →
    Spares limit surface (Course.within surface.reactions).events →
      Descends surface (surface.publish text)

section Publishing

variable (descending : Descending limit left) (toasts : surface.Toasts)
  (few : surface.reactions.length ≤ left)
include descending toasts few

/-- While a toast stands and after it has gone, there is nothing new under the earlier ids. -/
theorem toast_descends (content : Option String)
    (spares : Spares limit surface
      (Course.unroll (Mutation.toast content).events surface.reactions).events) :
    Descends surface (surface.mutate (.toast content)) := by
  have split : Course.unroll (Mutation.toast content).events surface.reactions =
      (Course.unroll [.own true] surface.reactions).followedBy [.own false] :=
    Course.unroll_append [.own true] [.own false] _
  rw [split] at spares
  have sparesShown := spares.of_append
  rw [Course.unroll_single] at sparesShown
  have room := sparesShown.room
  have bounded := sparesShown.bounded
  rw [Event.taken_named] at room
  have gone := toast_performs (publishes limit left) few content spares.of_append
  have placed : Descends surface
      (surface.named.placed ⟨idOfCounter surface.counter, none, content⟩) :=
    (Descends.named (by omega)).placed rfl (UInt64.le_refl _)
  have shown := descending _ (surface.named.placed
    ⟨idOfCounter surface.counter, none, content⟩).description (placed.toasts toasts) few
      (sparesShown.named_placed none content)
  have hides := (placed.trans shown).trans (Descends.cleared _ (idOfCounter surface.counter))
  rw [Surface.mutate, mutateWith_toast]
  refine hides.trans (descending _ _ (hides.toasts toasts) (hides.few few) ?_)
  have kept := spares.after gone
  rw [Course.unroll_single, ← gone.reactions] at kept
  exact kept.of_cons

theorem foldl_mutate_descends (mutations : List Mutation)
    (floats : ∀ mutation ∈ mutations, mutation.Floats)
    (spares : Spares limit surface
      (Course.unroll (Mutation.eventsOf mutations) surface.reactions).events) :
    Descends surface (mutations.foldl Surface.mutate surface) := by
  induction mutations generalizing surface with
  | nil => exact Descends.refl surface
  | cons mutation later ih =>
    obtain ⟨first, others⟩ := List.forall_mem_cons.mp floats
    cases mutation with
    | register entry => exact first.elim
    | unregister id => exact first.elim
    | toast content =>
      rw [Mutation.eventsOf, List.flatMap_cons, ← Mutation.eventsOf, Course.unroll_append] at spares
      have descends := toast_descends descending toasts few content spares.of_append
      have performs := mutate_performs (.toast content) spares.of_append
      have kept := spares.after performs
      rw [← performs.reactions] at kept
      exact descends.trans (ih (descends.toasts toasts) (descends.few few) others kept)

theorem publishWith_descends {reaction : Reaction} (floats : reaction.Toasts) (text : String)
    (spares : Spares limit surface (Course.unroll reaction.events surface.reactions).events) :
    Descends surface (publishWith Surface.mutate reaction text surface) := by
  have publishing := publishes limit left
  rw [Reaction.events, Course.unroll_append] at spares
  have sparesTold := spares.of_append
  rw [Course.unroll_append] at sparesTold
  -- What the host shows before it stores the state.
  have asks := foldl_mutate_descends descending toasts few reaction.beforeRead floats.beforeRead
    sparesTold.of_append
  have asked := foldl_mutate_performs publishing few reaction.beforeRead sparesTold.of_append
  have sparesAsked := sparesTold.after asked
  rw [← asked.reactions] at sparesAsked
  have tells := foldl_mutate_descends descending (asks.toasts toasts) (asks.few few)
    (reaction.afterRead ++ reaction.beforeStore) floats.between sparesAsked
  have told := asked.trans (asked.reactions ▸ foldl_mutate_performs publishing (asks.few few)
    (reaction.afterRead ++ reaction.beforeStore) sparesAsked)
  rw [← Course.unroll_append] at told
  have stores := (asks.trans tells).stored (reaction.beforeRead.foldl Surface.mutate surface) text
  -- What it shows afterwards.
  have sparesStored := spares.after told
  rw [← told.reactions] at sparesStored
  rw [publishWith_eq]
  exact stores.trans (foldl_mutate_descends descending (stores.toasts toasts) (stores.few few)
    reaction.afterStore floats.afterStore (sparesStored.congr rfl rfl))

end Publishing

/-- The induction is on the reactions that are left, of which each publication uses up one. -/
theorem descending (limit left : Nat) : Descending limit left := by
  induction left with
  | zero =>
    intro surface text toasts few spares
    have plain : surface.reactions = [] := List.length_eq_zero_iff.mp (Nat.le_zero.mp few)
    rw [publish_of_nil plain]
    exact (Descends.refl surface).stored surface text
  | succ left ih =>
    intro surface text toasts few spares
    cases queue : surface.reactions with
    | nil =>
      rw [publish_of_nil queue]
      exact (Descends.refl surface).stored surface text
    | cons reaction rest =>
      rw [queue] at few spares
      obtain ⟨first, others⟩ :=
        List.forall_mem_cons.mp (show ∀ other ∈ reaction :: rest, other.Toasts from queue ▸ toasts)
      rw [publish_of_cons queue]
      have uses : Descends surface { surface with reactions := rest } :=
        ⟨UInt64.le_refl _, queue ▸ List.suffix_cons _ _, EntryTree.inherits_refl _ _, [], by simp,
          by simp⟩
      exact uses.trans (publishWith_descends ih (uses.toasts toasts) (Nat.le_of_succ_le_succ few) first
        text (spares.congr rfl rfl))

namespace Tracks

variable {course : Course} {owned : List Entry} {attachment : Attachment}

theorem publish_descends (tracks : Tracks course owned surface)
    (allowed : Event.Allowed limit course.publish.events) (toasts : surface.Toasts)
    (text : String) : Descends surface (surface.publish text) := by
  have spares := tracks.spares allowed
  rw [← tracks.reactions] at spares
  exact descending limit surface.reactions.length surface text toasts (Nat.le_refl _) spares

theorem named_descends (tracks : Tracks course owned surface)
    (allowed : Event.Allowed limit (course.note (.own true)).events) :
    Descends surface surface.named := by
  have room := allowed.room
  have bounded := allowed.bounded
  have counter := tracks.counter
  simp only [Course.note, Event.taken_append, Event.taken_named, Event.taken_nil] at room
  exact Descends.named (by omega)

theorem attachBelow_descends (tracks : Tracks course owned surface)
    (allowed : Event.Allowed limit (course.followedBy [.own true]).events) (toasts : surface.Toasts)
    (parentId content : Option String) :
    Descends surface (surface.attachBelow parentId content).2 := by
  rw [Course.followedBy_single] at allowed
  have named := tracks.named allowed.of_append
  have descends := tracks.named_descends allowed.of_append
  have earlier : surface.counter < surface.named.counter := by
    rw [UInt64.lt_iff_toNat_lt, named.counter, tracks.counter]
    simp [Course.note]
  have placed := named.placed ⟨idOfCounter surface.counter, parentId, content⟩
    ⟨surface.counter, earlier, rfl⟩ tracks.unowned_next
  have places := descends.placed
    (show (⟨idOfCounter surface.counter, parentId, content⟩ : Entry).id = _ from rfl)
    (UInt64.le_refl _)
  exact places.trans (placed.publish_descends allowed (places.toasts toasts) _)

theorem detach_descends (tracks : Tracks course (attachment.entry :: owned) surface)
    (allowed : Event.Allowed limit (course.followedBy [.own false]).events)
    (toasts : surface.Toasts) : Descends surface (surface.detach attachment) := by
  rw [Course.followedBy_single] at allowed
  have clears := Descends.cleared surface attachment.entry.id
  exact clears.trans ((tracks.note.cleared allowed.of_append).publish_descends allowed
    (clears.toasts toasts) _)

theorem register_changed_descends {changed : Entry} (tracks : Tracks course (entry :: owned) surface)
    (allowed : Event.Allowed limit (course.followedBy [.own false]).events)
    (toasts : surface.Toasts) (same : changed.id = entry.id)
    (kept : changed.parentId = entry.parentId) : Descends surface (surface.register changed) := by
  rw [Course.followedBy_single] at allowed
  have standing := tracks.held entry List.mem_cons_self
  rw [← same] at standing
  have places : Descends surface (surface.placed changed) :=
    Descends.of_tree (EntryTree.inherits_insert_same _ standing kept.symm)
  exact places.trans ((tracks.note.replaced allowed.of_append same).publish_descends allowed
    (places.toasts toasts) _)

theorem reattach_descends (tracks : Tracks course (attachment.entry :: owned) surface)
    (allowed : Event.Allowed limit (course.followedBy [.own true, .own false]).events)
    (toasts : surface.Toasts) : Descends surface (surface.reattach attachment).2 := by
  rw [followedBy_reattach] at allowed
  have allowedGone := allowed.of_append.of_append
  have names := tracks.named_descends allowedGone.of_append
  have clears := names.trans (Descends.cleared surface.named attachment.entry.id)
  have goes : Descends surface (surface.named.unregister attachment.entry.id) :=
    clears.trans (((tracks.named allowedGone.of_append).cleared allowedGone.of_append).publish_descends
      allowedGone (clears.toasts toasts) _)
  have places := goes.placed
    (show ({ attachment.entry with id := idOfCounter surface.counter } : Entry).id = _ from rfl)
    (UInt64.le_refl _)
  exact places.trans ((tracks.renamed allowedGone).publish_descends allowed (places.toasts toasts) _)

end Tracks

end Surface

end Caption
