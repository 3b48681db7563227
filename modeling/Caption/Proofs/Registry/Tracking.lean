import Caption.Proofs.Registry.Performing
import Caption.Registry.Attachment

/-!
A registry and the entries of its attachments. Under every id that an attachment owns the tree holds
that attachment's own entry, and under every other id what stands by hand.
-/
namespace Caption

/-- Events that take fewer fresh ids than there are and leave those ids alone by hand. -/
structure Event.Allowed (limit : Nat) (events : List Event) : Prop where
  bounded : limit < 2 ^ 64
  room : Event.taken events ≤ limit
  clear : Event.Clear limit events

namespace Event.Allowed

variable {limit : Nat} {first second events : List Event}

theorem of_append (allowed : Allowed limit (first ++ second)) : Allowed limit first := by
  refine ⟨allowed.bounded, ?_, allowed.clear.mono fun _ => List.mem_append_left _⟩
  have room := allowed.room
  rw [Event.taken_append] at room
  omega

/-- No entry stands by hand under a fresh id. -/
theorem get?_byHand (allowed : Allowed limit events) {counter : UInt64}
    (below : counter.toNat < limit) :
    (EntryTree.byHand events).get? (idOfCounter counter) = none := by
  rw [EntryTree.byHand, EntryTree.get?_followAll_of_untouched (allowed.clear counter below)]
  rfl

end Event.Allowed

namespace Course

/-- A course after one more event, whose publication has not begun. -/
def note (course : Course) (event : Event) : Course := ⟨course.events ++ [event], course.left⟩

/-- A course after one more publication. -/
def publish (course : Course) : Course :=
  ⟨course.events ++ (within course.left).events, (within course.left).left⟩

theorem followedBy_single (course : Course) (event : Event) :
    course.followedBy [event] = (course.note event).publish := by
  simp [followedBy, unroll_single, note, publish]

theorem followedBy_append (course : Course) (first second : List Event) :
    course.followedBy (first ++ second) = (course.followedBy first).followedBy second := by
  simp [followedBy, unroll_append]

@[simp] theorem followedBy_nil (course : Course) : course.followedBy [] = course := by
  simp [followedBy]

end Course

namespace Surface

/-- What holds of a surface after a course of events while attachments own some of its entries. -/
structure Tracks (course : Course) (owned : List Entry) (surface : Surface) : Prop where
  counter : surface.counter.toNat = Event.taken course.events
  reactions : surface.reactions = course.left
  fresh : ∀ entry ∈ owned, ∃ counter < surface.counter, entry.id = idOfCounter counter
  distinct : (owned.map Entry.id).Nodup
  held : ∀ entry ∈ owned, surface.tree.get? entry.id = some entry
  others : ∀ id, (∀ entry ∈ owned, entry.id ≠ id) →
    surface.tree.get? id = (EntryTree.byHand course.events).get? id

namespace Tracks

variable {limit : Nat} {course : Course} {owned : List Entry} {surface after : Surface}
  {entry : Entry} {events : List Event}

theorem perm {arranged : List Entry} (tracks : Tracks course owned surface)
    (permuted : owned.Perm arranged) : Tracks course arranged surface := by
  refine ⟨tracks.counter, tracks.reactions, ?_, (permuted.map _).nodup_iff.mp tracks.distinct, ?_, ?_⟩
  · exact fun entry member => tracks.fresh entry (permuted.mem_iff.mpr member)
  · exact fun entry member => tracks.held entry (permuted.mem_iff.mpr member)
  · intro id unowned
    exact tracks.others id fun entry member => unowned entry (permuted.mem_iff.mp member)

theorem lt_limit (tracks : Tracks course owned surface) (allowed : Event.Allowed limit course.events)
    {counter : UInt64} (earlier : counter < surface.counter) : counter.toNat < limit := by
  have room := allowed.room
  have before := UInt64.lt_iff_toNat_lt.mp earlier
  rw [tracks.counter] at before
  omega

/-- The registry is ready for events that go on with an allowed course. -/
theorem spares (tracks : Tracks course owned surface)
    (allowed : Event.Allowed limit (course.events ++ events)) : Spares limit surface events := by
  refine ⟨allowed.bounded, ?_, allowed.clear.mono fun _ => List.mem_append_right _, ?_⟩
  · rw [tracks.counter, ← Event.taken_append]
    exact allowed.room
  · intro counter later below
    rw [tracks.others]
    · exact allowed.of_append.get?_byHand below
    · intro entry member same
      obtain ⟨earlier, before, named⟩ := tracks.fresh entry member
      rw [named, idOfCounter_inj] at same
      subst same
      exact absurd (UInt64.lt_iff_toNat_lt.mp before)
        (Nat.not_lt.mpr (UInt64.le_iff_toNat_le.mp later))

/-- Events by hand change what stands by hand and no entry of an attachment. -/
theorem follow (tracks : Tracks course owned surface) {left : List Reaction}
    (allowed : Event.Allowed limit (course.events ++ events))
    (tree : after.tree = surface.tree.followAll events)
    (counter : after.counter.toNat = surface.counter.toNat + Event.taken events)
    (reactions : after.reactions = left) :
    Tracks ⟨course.events ++ events, left⟩ owned after := by
  refine ⟨?_, reactions, ?_, tracks.distinct, ?_, ?_⟩
  · rw [counter, tracks.counter, Event.taken_append]
  · intro entry member
    obtain ⟨number, earlier, named⟩ := tracks.fresh entry member
    refine ⟨number, ?_, named⟩
    rw [UInt64.lt_iff_toNat_lt] at earlier ⊢
    omega
  · intro entry member
    obtain ⟨number, earlier, named⟩ := tracks.fresh entry member
    have below := tracks.lt_limit allowed.of_append earlier
    rw [tree, EntryTree.get?_followAll_of_untouched, tracks.held entry member]
    intro event present
    rw [named]
    exact allowed.clear number below event (List.mem_append_right _ present)
  · intro id unowned
    rw [tree, EntryTree.byHand_append]
    exact EntryTree.get?_followAll_congr (tracks.others id unowned) events

theorem publish (tracks : Tracks course owned surface)
    (allowed : Event.Allowed limit course.publish.events) (text : String) :
    Tracks course.publish owned (surface.publish text) := by
  have spares := tracks.spares allowed
  rw [← tracks.reactions] at spares
  have performs := publish_performs text spares
  rw [Course.unroll_single, tracks.reactions] at performs
  refine tracks.follow allowed performs.tree ?_ performs.reactions
  rw [performs.counter, Event.taken_unnamed]

theorem mutate (tracks : Tracks course owned surface) (mutation : Mutation)
    (allowed : Event.Allowed limit (course.followedBy mutation.events).events) :
    Tracks (course.followedBy mutation.events) owned (surface.mutate mutation) := by
  have spares := tracks.spares allowed
  rw [← tracks.reactions] at spares
  have performs := mutate_performs mutation spares
  rw [tracks.reactions] at performs
  exact tracks.follow allowed performs.tree performs.counter performs.reactions

/-- An event that changes nothing by hand. -/
theorem note (tracks : Tracks course owned surface) :
    Tracks (course.note (.own false)) owned surface := by
  refine ⟨?_, tracks.reactions, tracks.fresh, tracks.distinct, tracks.held, ?_⟩
  · simpa [Course.note] using tracks.counter
  · simpa [Course.note, EntryTree.byHand_append, EntryTree.follow] using tracks.others

theorem named (tracks : Tracks course owned surface)
    (allowed : Event.Allowed limit (course.note (.own true)).events) :
    Tracks (course.note (.own true)) owned surface.named := by
  have room := allowed.room
  have bounded := allowed.bounded
  simp only [Course.note, Event.taken_append, Event.taken_named, Event.taken_nil] at room
  have counter := tracks.counter
  refine tracks.follow allowed rfl ?_ tracks.reactions
  exact toNat_succ (by omega)

/-- An entry under an own id that no attachment has. -/
theorem placed (tracks : Tracks course owned surface) (entry : Entry)
    (fresh : ∃ counter < surface.counter, entry.id = idOfCounter counter)
    (unowned : ∀ other ∈ owned, other.id ≠ entry.id) :
    Tracks course (entry :: owned) (surface.placed entry) := by
  refine ⟨tracks.counter, tracks.reactions, ?_, ?_, ?_, ?_⟩
  · exact List.forall_mem_cons.mpr ⟨fresh, tracks.fresh⟩
  · rw [List.map_cons, List.nodup_cons]
    refine ⟨?_, tracks.distinct⟩
    intro member
    obtain ⟨other, present, same⟩ := List.mem_map.mp member
    exact unowned other present same
  · intro other member
    change (surface.tree.insert entry).get? other.id = some other
    rw [EntryTree.get?_insert]
    rcases List.mem_cons.mp member with rfl | later
    · rw [if_pos rfl]
    · rw [if_neg (Ne.symm (unowned other later)), tracks.held other later]
  · intro id apart
    obtain ⟨different, others⟩ := List.forall_mem_cons.mp apart
    change (surface.tree.insert entry).get? id = _
    rw [EntryTree.get?_insert, if_neg different, tracks.others id others]

theorem cleared (tracks : Tracks course (entry :: owned) surface)
    (allowed : Event.Allowed limit course.events) :
    Tracks course owned (surface.cleared entry.id) := by
  have distinct := tracks.distinct
  rw [List.map_cons, List.nodup_cons] at distinct
  have unowned : ∀ other ∈ owned, entry.id ≠ other.id := by
    intro other member same
    exact distinct.1 (List.mem_map.mpr ⟨other, member, same.symm⟩)
  refine ⟨tracks.counter, tracks.reactions, ?_, distinct.2, ?_, ?_⟩
  · exact fun other member => tracks.fresh other (List.mem_cons_of_mem _ member)
  · intro other member
    change (surface.tree.erase entry.id).get? other.id = some other
    rw [EntryTree.get?_erase, if_neg (unowned other member)]
    exact tracks.held other (List.mem_cons_of_mem _ member)
  · intro id others
    change (surface.tree.erase entry.id).get? id = _
    rw [EntryTree.get?_erase]
    by_cases same : entry.id = id
    · obtain ⟨counter, earlier, named⟩ := tracks.fresh entry List.mem_cons_self
      rw [if_pos same, ← same, named, allowed.get?_byHand (tracks.lt_limit allowed earlier)]
    · rw [if_neg same]
      exact tracks.others id (List.forall_mem_cons.mpr ⟨same, others⟩)

/-- An attachment changes its entry and keeps its id. -/
theorem replaced {changed : Entry} (tracks : Tracks course (entry :: owned) surface)
    (allowed : Event.Allowed limit course.events) (same : changed.id = entry.id) :
    Tracks course (changed :: owned) (surface.placed changed) := by
  have distinct := tracks.distinct
  rw [List.map_cons, List.nodup_cons] at distinct
  have unowned : ∀ other ∈ owned, other.id ≠ changed.id := by
    intro other member again
    exact distinct.1 (List.mem_map.mpr ⟨other, member, again.trans same⟩)
  have fresh := tracks.fresh entry List.mem_cons_self
  have placed := (tracks.cleared allowed).placed changed (same ▸ fresh) unowned
  have tree : (surface.tree.erase entry.id).insert changed = surface.tree.insert changed := by
    refine EntryTree.ext_get? fun id => ?_
    rw [EntryTree.get?_insert, EntryTree.get?_insert, EntryTree.get?_erase, ← same]
    split <;> rfl
  have surfaces : (surface.cleared entry.id).placed changed = surface.placed changed := by
    simp only [Surface.cleared, Surface.placed, tree]
  rw [← surfaces]
  exact placed

theorem unowned_next (tracks : Tracks course owned surface) :
    ∀ entry ∈ owned, entry.id ≠ idOfCounter surface.counter := by
  intro entry member same
  obtain ⟨counter, earlier, named⟩ := tracks.fresh entry member
  rw [named, idOfCounter_inj] at same
  subst same
  exact absurd (UInt64.lt_iff_toNat_lt.mp earlier) (Nat.lt_irrefl _)

theorem attachBelow (tracks : Tracks course owned surface)
    (allowed : Event.Allowed limit (course.followedBy [.own true]).events)
    (parentId content : Option String) :
    Tracks (course.followedBy [.own true])
      ((surface.attachBelow parentId content).1.entry :: owned)
      (surface.attachBelow parentId content).2 := by
  rw [Course.followedBy_single] at allowed ⊢
  have named := tracks.named allowed.of_append
  have earlier : surface.counter < surface.named.counter := by
    rw [UInt64.lt_iff_toNat_lt, named.counter, tracks.counter]
    simp [Course.note]
  have placed := named.placed ⟨idOfCounter surface.counter, parentId, content⟩
    ⟨surface.counter, earlier, rfl⟩ tracks.unowned_next
  exact placed.publish allowed _

theorem detach {attachment : Attachment} (tracks : Tracks course (attachment.entry :: owned) surface)
    (allowed : Event.Allowed limit (course.followedBy [.own false]).events) :
    Tracks (course.followedBy [.own false]) owned (surface.detach attachment) := by
  rw [Course.followedBy_single] at allowed ⊢
  exact (tracks.note.cleared allowed.of_append).publish allowed _

theorem register_changed {changed : Entry} (tracks : Tracks course (entry :: owned) surface)
    (allowed : Event.Allowed limit (course.followedBy [.own false]).events)
    (same : changed.id = entry.id) :
    Tracks (course.followedBy [.own false]) (changed :: owned) (surface.register changed) := by
  rw [Course.followedBy_single] at allowed ⊢
  exact (tracks.note.replaced allowed.of_append same).publish allowed _

theorem followedBy_reattach (course : Course) :
    course.followedBy [.own true, .own false] =
      ((course.note (.own true)).publish.note (.own false)).publish := by
  rw [← Course.followedBy_single, ← Course.followedBy_single, ← Course.followedBy_append]
  rfl

/-- An attachment's entry goes under the id taken before, and its publication may take further
ids. -/
theorem renamed {attachment : Attachment}
    (tracks : Tracks course (attachment.entry :: owned) surface)
    (allowed : Event.Allowed limit (course.note (.own true)).publish.events) :
    Tracks ((course.note (.own true)).publish.note (.own false))
      ({ attachment.entry with id := idOfCounter surface.counter } :: owned)
      ((surface.named.unregister attachment.entry.id).placed
        { attachment.entry with id := idOfCounter surface.counter }) := by
  have named := tracks.named allowed.of_append
  have gone : Tracks (course.note (.own true)).publish owned
      (surface.named.unregister attachment.entry.id) :=
    (named.cleared allowed.of_append).publish allowed _
  have earlier : surface.counter < (surface.named.unregister attachment.entry.id).counter := by
    rw [UInt64.lt_iff_toNat_lt, gone.counter, tracks.counter]
    simp only [Course.publish, Course.note, Event.taken_append, Event.taken_named, Event.taken_nil]
    omega
  exact gone.note.placed _ ⟨surface.counter, earlier, rfl⟩ fun other member =>
    tracks.unowned_next other (List.mem_cons_of_mem _ member)

theorem reattach {attachment : Attachment}
    (tracks : Tracks course (attachment.entry :: owned) surface)
    (allowed : Event.Allowed limit (course.followedBy [.own true, .own false]).events) :
    Tracks (course.followedBy [.own true, .own false])
      ((surface.reattach attachment).1.entry :: owned) (surface.reattach attachment).2 := by
  rw [followedBy_reattach] at allowed ⊢
  exact (tracks.renamed allowed.of_append.of_append).publish allowed _

/-- Where the course has come to can be read off the surface. -/
theorem settled (tracks : Tracks course owned surface) :
    Tracks ⟨course.events, surface.reactions⟩ owned surface :=
  ⟨tracks.counter, rfl, tracks.fresh, tracks.distinct, tracks.held, tracks.others⟩

/-- The tree holds what stands by hand and the entries of the attachments, and nothing else. -/
theorem entries_perm (tracks : Tracks course owned surface)
    (allowed : Event.Allowed limit course.events) :
    surface.tree.entries.Perm ((EntryTree.byHand course.events).entries ++ owned) := by
  have apart : ∀ entry ∈ owned, (EntryTree.byHand course.events).get? entry.id = none := by
    intro entry member
    obtain ⟨counter, earlier, named⟩ := tracks.fresh entry member
    rw [named]
    exact allowed.get?_byHand (tracks.lt_limit allowed earlier)
  have nodup : ((EntryTree.byHand course.events).entries ++ owned).Nodup := by
    refine List.nodup_append.mpr ⟨EntryTree.nodup_entries _, ?_, ?_⟩
    · exact List.Pairwise.of_map Entry.id (fun _ _ different same => different (same ▸ rfl))
        tracks.distinct
    · rintro entry standing other member rfl
      rw [EntryTree.mem_entries, apart entry member] at standing
      cases standing
  refine (List.perm_ext_iff_of_nodup (EntryTree.nodup_entries _) nodup).mpr fun entry => ?_
  rw [List.mem_append, EntryTree.mem_entries, EntryTree.mem_entries]
  by_cases claimed : ∃ other ∈ owned, other.id = entry.id
  · obtain ⟨other, member, same⟩ := claimed
    rw [← same, tracks.held other member, apart other member]
    constructor
    · intro equal
      exact Or.inr (Option.some.inj equal ▸ member)
    · rintro (impossible | present)
      · cases impossible
      · have held := tracks.held entry present
        rw [← same, tracks.held other member] at held
        exact held
  · have unowned : ∀ other ∈ owned, other.id ≠ entry.id :=
      fun other member same => claimed ⟨other, member, same⟩
    rw [tracks.others entry.id unowned]
    constructor
    · exact Or.inl
    · rintro (standing | present)
      · exact standing
      · exact absurd rfl (unowned entry present)

end Tracks

end Surface

end Caption
