import Caption.Proofs.Registry.Events
import Caption.Proofs.Registry.Naming
import Caption.Proofs.Registry.Publishing

/-!
A mutation leaves the tree that its events by hand make of the tree before: toasts, however they are
nested, go as they came.
-/
namespace Caption

/-- Events by hand under other ids than the first fresh ones. -/
def Event.Clear (limit : Nat) (events : List Event) : Prop :=
  ∀ counter : UInt64, counter.toNat < limit →
    ∀ event ∈ events, ¬event.Touches (idOfCounter counter)

theorem Event.Clear.mono {limit : Nat} {events fewer : List Event} (clear : Clear limit events)
    (kept : ∀ event ∈ fewer, event ∈ events) : Clear limit fewer :=
  fun counter below event member => clear counter below event (kept event member)

/-- Whether an event leaves all ids alone that are as long as the fresh ones. -/
def Event.Foreign : Event → Prop
  | .register entry => entry.id.length ≠ 21
  | .unregister id => id.length ≠ 21
  | .own _ => True

instance (event : Event) : Decidable event.Foreign := by
  cases event <;> unfold Event.Foreign <;> infer_instance

theorem Event.clear_of_foreign (limit : Nat) {events : List Event}
    (foreign : ∀ event ∈ events, event.Foreign) : Clear limit events := by
  intro counter _ event member touched
  have apart := foreign event member
  have long := length_idOfCounter counter
  cases event with
  | register entry => exact apart (touched.symm ▸ long)
  | unregister id => exact apart (touched.symm ▸ long)
  | own named => exact touched

namespace Surface

/-- A surface that is yet to take fresh ids below a limit, through events that leave them alone. -/
structure Spares (limit : Nat) (surface : Surface) (events : List Event) : Prop where
  bounded : limit < 2 ^ 64
  room : surface.counter.toNat + Event.taken events ≤ limit
  clear : Event.Clear limit events
  absent : ∀ counter : UInt64, surface.counter ≤ counter → counter.toNat < limit →
    surface.tree.get? (idOfCounter counter) = none

/-- A surface before and after a course of events. -/
structure Performs (before after : Surface) (course : Course) : Prop where
  tree : after.tree = before.tree.followAll course.events
  counter : after.counter.toNat = before.counter.toNat + Event.taken course.events
  writes : after.writes = before.writes + course.events.length
  reactions : after.reactions = course.left

variable {limit left : Nat} {surface first second third : Surface} {course : Course}
  {events : List Event}

namespace Spares

theorem congr (spares : Spares limit first events) (tree : second.tree = first.tree)
    (counter : second.counter = first.counter) : Spares limit second events := by
  refine ⟨spares.bounded, counter ▸ spares.room, spares.clear, ?_⟩
  rw [tree, counter]
  exact spares.absent

theorem of_cons {event : Event} {later : List Event} (spares : Spares limit surface (event :: later)) :
    Spares limit surface later := by
  refine ⟨spares.bounded, ?_, spares.clear.mono fun _ => List.mem_cons_of_mem _, spares.absent⟩
  have fewer : Event.taken later ≤ Event.taken (event :: later) :=
    (List.sublist_cons_self event later).count_le _
  have room := spares.room
  omega

theorem of_append {before after : List Event} (spares : Spares limit surface (before ++ after)) :
    Spares limit surface before := by
  refine ⟨spares.bounded, ?_, spares.clear.mono fun _ => List.mem_append_left _, spares.absent⟩
  have room := spares.room
  rw [Event.taken_append] at room
  omega

/-- What was promised for a longer course is still promised behind its beginning. -/
theorem after (spares : Spares limit first (course.followedBy events).events)
    (performs : Performs first second course) :
    Spares limit second (Course.unroll events course.left).events := by
  have room := spares.room
  have advanced := performs.counter
  simp only [Course.followedBy, Event.taken_append] at room
  refine ⟨spares.bounded, by omega, spares.clear.mono fun _ => List.mem_append_right _, ?_⟩
  intro counter later below
  have earlier : first.counter ≤ counter := by
    rw [UInt64.le_iff_toNat_le] at later ⊢
    omega
  rw [performs.tree, EntryTree.get?_followAll_of_untouched]
  · exact spares.absent counter earlier below
  · exact fun event member => spares.clear counter below event (List.mem_append_left _ member)

end Spares

theorem Performs.refl (surface : Surface) : Performs surface surface ⟨[], surface.reactions⟩ :=
  ⟨rfl, rfl, rfl, rfl⟩

theorem Performs.trans (early : Performs first second course)
    (late : Performs second third (Course.unroll events course.left)) :
    Performs first third (course.followedBy events) := by
  refine ⟨?_, ?_, ?_, late.reactions⟩
  · rw [late.tree, early.tree]
    exact (EntryTree.followAll_append _ _ _).symm
  · rw [late.counter, early.counter, Nat.add_assoc]
    simp [Course.followedBy]
  · rw [late.writes, early.writes, Nat.add_assoc]
    simp [Course.followedBy]

/-- A course that begins with a change of the tree, seen from before that change. -/
theorem Performs.of_follow {event : Event} (unnamed : event ≠ .own true)
    (tree : second.tree = first.tree.follow event) (counter : second.counter = first.counter)
    (writes : second.writes = first.writes)
    (performs : Performs second third ⟨.own false :: course.events, course.left⟩) :
    Performs first third ⟨event :: course.events, course.left⟩ := by
  refine ⟨?_, ?_, ?_, performs.reactions⟩
  · rw [performs.tree, tree]
    rfl
  · rw [performs.counter, counter]
    cases event with
    | own named => cases named <;> simp at unnamed ⊢
    | _ => simp
  · rw [performs.writes, writes]
    rfl

/-- A store after a course belongs to the publication that the course stands in. -/
theorem Performs.stored (performs : Performs first second course) (asked : Surface)
    (text : String) :
    Performs first (second.stored asked text) ⟨.own false :: course.events, course.left⟩ := by
  refine ⟨performs.tree, ?_, ?_, performs.reactions⟩
  · rw [Event.taken_unnamed]
    exact performs.counter
  · rw [List.length_cons, ← Nat.add_assoc, ← performs.writes]
    rfl

namespace Spares

theorem follow {event : Event} {later : List Event} (spares : Spares limit first (event :: later))
    (tree : second.tree = first.tree.follow event) (counter : second.counter = first.counter) :
    Spares limit second later := by
  have kept := spares.of_cons
  refine ⟨kept.bounded, counter ▸ kept.room, kept.clear, ?_⟩
  intro number later below
  rw [tree, EntryTree.get?_follow, if_neg (spares.clear number below event List.mem_cons_self)]
  exact spares.absent number (counter ▸ later) below

/-- Taking a fresh id leaves the ids after it. -/
theorem named_placed {later : List Event} (spares : Spares limit surface (.own true :: later))
    (parentId content : Option String) :
    Spares limit (surface.named.placed ⟨idOfCounter surface.counter, parentId, content⟩) later := by
  have room := spares.room
  have bounded := spares.bounded
  rw [Event.taken_named] at room
  have next : (surface.counter + 1).toNat = surface.counter.toNat + 1 := toNat_succ (by omega)
  refine ⟨bounded, ?_, spares.of_cons.clear, ?_⟩
  · change (surface.counter + 1).toNat + _ ≤ _
    omega
  · intro counter behind below
    have apart : surface.counter.toNat < counter.toNat := by
      have behindNat := UInt64.le_iff_toNat_le.mp behind
      change (surface.counter + 1).toNat ≤ _ at behindNat
      omega
    have different : idOfCounter surface.counter ≠ idOfCounter counter :=
      Text.ne_of_before (before_idOfCounter (UInt64.lt_iff_toNat_lt.mpr apart))
    change (surface.tree.insert _).get? _ = _
    rw [EntryTree.get?_insert, if_neg different]
    exact spares.absent counter (UInt64.le_iff_toNat_le.mpr (by omega)) below

end Spares

/-- What a publication of a surface does to it while few reactions are left. -/
def Publishes (limit left : Nat) : Prop :=
  ∀ (surface : Surface) (text : String), surface.reactions.length ≤ left →
    Spares limit surface (Course.within surface.reactions).events →
      Performs surface (surface.publish text) (Course.unroll [.own false] surface.reactions)

section Publishing

variable (publishes : Publishes limit left) (few : surface.reactions.length ≤ left)
include publishes few

theorem publish_performs_of_follow {event : Event} (second : Surface) (unnamed : event ≠ .own true)
    (tree : second.tree = surface.tree.follow event) (counter : second.counter = surface.counter)
    (writes : second.writes = surface.writes) (queue : second.reactions = surface.reactions)
    (spares : Spares limit surface (Course.unroll [event] surface.reactions).events) (text : String) :
    Performs surface (second.publish text) (Course.unroll [event] surface.reactions) := by
  rw [Course.unroll_single] at spares ⊢
  refine Performs.of_follow unnamed tree counter writes ?_
  rw [← Course.unroll_single, ← queue]
  exact publishes second text (queue ▸ few) (queue ▸ spares.follow tree counter)

/-- A toast is gone again before its last publication. -/
theorem toast_performs (content : Option String)
    (spares : Spares limit surface (Course.unroll [.own true] surface.reactions).events) :
    Performs surface
      ((published Surface.publish
        (surface.named.placed ⟨idOfCounter surface.counter, none, content⟩)).cleared
          (idOfCounter surface.counter))
      (Course.unroll [.own true] surface.reactions) := by
  rw [Course.unroll_single] at spares ⊢
  have room := spares.room
  have bounded := spares.bounded
  rw [Event.taken_named] at room
  have shown := publishes (surface.named.placed ⟨idOfCounter surface.counter, none, content⟩)
    (surface.named.placed ⟨idOfCounter surface.counter, none, content⟩).description few
    (spares.named_placed none content)
  rw [Course.unroll_single] at shown
  refine ⟨?_, ?_, ?_, shown.reactions⟩
  · have absent := spares.absent surface.counter (UInt64.le_refl _) (by omega)
    have untouched : ∀ event ∈ (Course.within surface.reactions).events,
        ¬event.Touches (idOfCounter surface.counter) := fun event member =>
      spares.clear surface.counter (by omega) event (List.mem_cons_of_mem _ member)
    have gone : ((surface.tree.insert ⟨idOfCounter surface.counter, none, content⟩).followAll
        (Course.within surface.reactions).events).erase (idOfCounter surface.counter) =
          surface.tree.followAll (Course.within surface.reactions).events :=
      EntryTree.erase_followAll_insert absent untouched
    exact (congrArg (EntryTree.erase · (idOfCounter surface.counter)) shown.tree).trans gone
  · refine shown.counter.trans ?_
    change (surface.counter + 1).toNat + _ = _
    rw [toNat_succ (by omega), Event.taken_named]
    simp only [Event.taken_unnamed]
    exact Nat.succ_add _ _
  · exact shown.writes

theorem mutate_performs_within (mutation : Mutation)
    (spares : Spares limit surface (Course.unroll mutation.events surface.reactions).events) :
    Performs surface (surface.mutate mutation)
      (Course.unroll mutation.events surface.reactions) := by
  cases mutation with
  | register entry =>
    exact publish_performs_of_follow publishes few (surface.placed entry) (by simp) rfl rfl rfl rfl
      spares _
  | unregister id =>
    exact publish_performs_of_follow publishes few (surface.cleared id) (by simp) rfl rfl rfl rfl
      spares _
  | toast content =>
    have split : Course.unroll (Mutation.toast content).events surface.reactions =
        (Course.unroll [.own true] surface.reactions).followedBy [.own false] :=
      Course.unroll_append [.own true] [.own false] _
    rw [split] at spares ⊢
    have gone := toast_performs publishes few content spares.of_append
    refine gone.trans ?_
    rw [Surface.mutate, mutateWith_toast]
    generalize concealed : (published Surface.publish
      (surface.named.placed ⟨idOfCounter surface.counter, none, content⟩)).cleared
        (idOfCounter surface.counter) = hidden at gone
    have fewHidden : hidden.reactions.length ≤ left := by
      rw [← concealed]
      exact Nat.le_trans (length_reactions_publish _ _) few
    rw [← gone.reactions]
    refine publishes hidden _ fewHidden ?_
    have kept := spares.after gone
    rw [Course.unroll_single, ← gone.reactions] at kept
    exact kept.of_cons

theorem foldl_mutate_performs (mutations : List Mutation)
    (spares : Spares limit surface
      (Course.unroll (Mutation.eventsOf mutations) surface.reactions).events) :
    Performs surface (mutations.foldl Surface.mutate surface)
      (Course.unroll (Mutation.eventsOf mutations) surface.reactions) := by
  induction mutations generalizing surface with
  | nil =>
    rw [Mutation.eventsOf, List.flatMap_nil, Course.unroll_nil]
    exact Performs.refl surface
  | cons mutation later ih =>
    rw [Mutation.eventsOf, List.flatMap_cons, ← Mutation.eventsOf, Course.unroll_append] at spares ⊢
    have performs := mutate_performs_within publishes few mutation spares.of_append
    have kept := spares.after performs
    refine performs.trans ?_
    rw [← performs.reactions] at kept ⊢
    exact ih (Nat.le_trans (wanes_mutate surface mutation) few) kept

theorem publishWith_performs (reaction : Reaction) (text : String)
    (spares : Spares limit surface (Course.unroll reaction.events surface.reactions).events) :
    Performs surface (publishWith Surface.mutate reaction text surface)
      ⟨.own false :: (Course.unroll reaction.events surface.reactions).events,
        (Course.unroll reaction.events surface.reactions).left⟩ := by
  rw [Reaction.events, Course.unroll_append] at spares ⊢
  have sparesTold := spares.of_append
  rw [Course.unroll_append] at sparesTold
  -- What the host does before it stores the state.
  have asked := foldl_mutate_performs publishes few reaction.beforeRead sparesTold.of_append
  have sparesAsked := sparesTold.after asked
  rw [← asked.reactions] at sparesAsked
  have fewAsked := Nat.le_trans (wanes_mutate.foldl reaction.beforeRead surface) few
  have later := foldl_mutate_performs publishes fewAsked
    (reaction.afterRead ++ reaction.beforeStore) sparesAsked
  have told := asked.trans (asked.reactions ▸ later)
  rw [← Course.unroll_append] at told
  -- What it does afterwards; the store itself changes neither the tree nor the counter.
  have sparesTold := spares.after told
  rw [← told.reactions] at sparesTold
  have fewTold := Nat.le_trans
    (wanes_mutate.foldl (reaction.afterRead ++ reaction.beforeStore) _) fewAsked
  have stored := told.stored (reaction.beforeRead.foldl Surface.mutate surface) text
  rw [publishWith_eq]
  refine stored.trans ?_
  rw [← told.reactions]
  refine foldl_mutate_performs publishes ?_ reaction.afterStore ?_
  · exact fewTold
  · exact sparesTold.congr rfl rfl

end Publishing

/-- A publication performs what the host's reactions bring about. -/
theorem publishes (limit left : Nat) : Publishes limit left := by
  induction left with
  | zero =>
    intro surface text few spares
    have plain : surface.reactions = [] := List.length_eq_zero_iff.mp (Nat.le_zero.mp few)
    rw [publish_of_nil plain, plain]
    exact ⟨rfl, rfl, rfl, plain⟩
  | succ left ih =>
    intro surface text few spares
    cases queue : surface.reactions with
    | nil =>
      rw [publish_of_nil queue]
      exact ⟨rfl, rfl, rfl, queue⟩
    | cons reaction rest =>
      rw [queue] at few spares
      rw [publish_of_cons queue, Course.unroll_single]
      have later : rest.length ≤ left := Nat.le_of_succ_le_succ few
      generalize entered : ({ surface with reactions := rest } : Surface) = inner
      have fewInner : inner.reactions.length ≤ left := entered ▸ later
      have sparesInner : Spares limit inner (Course.unroll reaction.events inner.reactions).events :=
        entered ▸ spares.congr rfl rfl
      have performs := publishWith_performs ih fewInner reaction text sparesInner
      subst entered
      exact ⟨performs.tree, performs.counter, performs.writes, performs.reactions⟩

theorem publish_performs (text : String)
    (spares : Spares limit surface (Course.within surface.reactions).events) :
    Performs surface (surface.publish text) (Course.unroll [.own false] surface.reactions) :=
  publishes limit surface.reactions.length surface text (Nat.le_refl _) spares

theorem mutate_performs (mutation : Mutation)
    (spares : Spares limit surface (Course.unroll mutation.events surface.reactions).events) :
    Performs surface (surface.mutate mutation)
      (Course.unroll mutation.events surface.reactions) :=
  mutate_performs_within (publishes limit surface.reactions.length) (Nat.le_refl _) mutation spares

end Surface

end Caption
