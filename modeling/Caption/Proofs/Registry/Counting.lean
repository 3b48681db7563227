import Caption.Proofs.Registry.Running

/-!
The number of the next fresh id counts the ids that were taken, whatever else happens: entries by hand
may stand under any ids.
-/
namespace Caption

namespace Surface

/-- A surface before and after a course of events, as far as fresh ids and reactions go. -/
structure Advances (before after : Surface) (course : Course) : Prop where
  counter : after.counter = before.counter + UInt64.ofNat (Event.taken course.events)
  reactions : after.reactions = course.left

variable {left : Nat} {surface first second third : Surface} {course : Course}
  {events : List Event} {event : Event}

namespace Advances

theorem refl (surface : Surface) : Advances surface surface ⟨[], surface.reactions⟩ :=
  ⟨(UInt64.add_zero _).symm, rfl⟩

theorem trans (early : Advances first second course)
    (late : Advances second third (Course.unroll events course.left)) :
    Advances first third (course.followedBy events) := by
  refine ⟨?_, late.reactions⟩
  rw [late.counter, early.counter, UInt64.add_assoc, ← UInt64.ofNat_add]
  simp [Course.followedBy]

/-- The course of a change that takes no id of its own is that of its publication. -/
theorem of_unnamed (advances : Advances second third (Course.within second.reactions))
    (unnamed : event ≠ .own true) (counter : second.counter = first.counter)
    (reactions : second.reactions = first.reactions) :
    Advances first third (Course.unroll [event] first.reactions) := by
  rw [Course.unroll_single, ← reactions]
  have same : Event.taken (event :: (Course.within second.reactions).events) =
      Event.taken (Course.within second.reactions).events := List.count_cons_of_ne unnamed
  refine ⟨?_, advances.reactions⟩
  rw [same, advances.counter, counter]

theorem stored (advances : Advances first second course) (asked : Surface) (text : String) :
    Advances first (second.stored asked text) course :=
  ⟨advances.counter, advances.reactions⟩

/-- The course of a change under a fresh id. -/
theorem of_named (advances : Advances second third (Course.within second.reactions))
    (counter : second.counter = first.counter + 1)
    (reactions : second.reactions = first.reactions) :
    Advances first third (Course.unroll [.own true] first.reactions) := by
  rw [Course.unroll_single, ← reactions]
  refine ⟨?_, advances.reactions⟩
  rw [Event.taken_named, advances.counter, counter, UInt64.add_assoc, Nat.add_comm, UInt64.ofNat_add]
  rfl

end Advances

/-- What a publication of a surface does to its counter while few reactions are left. -/
def Counts (left : Nat) : Prop :=
  ∀ (surface : Surface) (text : String), surface.reactions.length ≤ left →
    Advances surface (surface.publish text) (Course.within surface.reactions)

section Counting

variable (counts : Counts left) (few : surface.reactions.length ≤ left)
include counts few

theorem mutate_advances_within (mutation : Mutation) :
    Advances surface (surface.mutate mutation) (Course.unroll mutation.events surface.reactions) := by
  cases mutation with
  | register entry =>
    have published := counts (surface.placed entry) (surface.placed entry).description few
    exact published.of_unnamed (by simp) rfl rfl
  | unregister id =>
    have published := counts (surface.cleared id) (surface.cleared id).description few
    exact published.of_unnamed (by simp) rfl rfl
  | toast content =>
    rw [Surface.mutate, mutateWith_toast]
    generalize placing : surface.named.placed ⟨idOfCounter surface.counter, none, content⟩ = shown
    have fewShown : shown.reactions.length ≤ left := placing ▸ few
    have coming : Advances surface (published Surface.publish shown)
        (Course.unroll [.own true] surface.reactions) :=
      (counts shown shown.description fewShown).of_named (placing ▸ rfl) (placing ▸ rfl)
    generalize concealed : (published Surface.publish shown).cleared (idOfCounter surface.counter) =
      hidden
    have gone : Advances surface hidden (Course.unroll [.own true] surface.reactions) :=
      concealed ▸ ⟨coming.counter, coming.reactions⟩
    have fewHidden : hidden.reactions.length ≤ left := by
      rw [← concealed]
      exact Nat.le_trans (length_reactions_publish _ _) fewShown
    have split : Course.unroll (Mutation.toast content).events surface.reactions =
        (Course.unroll [.own true] surface.reactions).followedBy [.own false] :=
      Course.unroll_append [.own true] [.own false] _
    rw [split]
    refine gone.trans ?_
    rw [← gone.reactions]
    exact (counts hidden hidden.description fewHidden).of_unnamed (by simp) rfl rfl

theorem foldl_mutate_advances (mutations : List Mutation) :
    Advances surface (mutations.foldl Surface.mutate surface)
      (Course.unroll (Mutation.eventsOf mutations) surface.reactions) := by
  induction mutations generalizing surface with
  | nil =>
    rw [Mutation.eventsOf, List.flatMap_nil, Course.unroll_nil]
    exact Advances.refl surface
  | cons mutation later ih =>
    rw [Mutation.eventsOf, List.flatMap_cons, ← Mutation.eventsOf, Course.unroll_append]
    have advances := mutate_advances_within counts few mutation
    refine advances.trans ?_
    rw [← advances.reactions]
    exact ih (Nat.le_trans (wanes_mutate surface mutation) few)

theorem publishWith_advances (reaction : Reaction) (text : String) :
    Advances surface (publishWith Surface.mutate reaction text surface)
      (Course.unroll reaction.events surface.reactions) := by
  have asked := foldl_mutate_advances counts few reaction.beforeRead
  have fewAsked := Nat.le_trans (wanes_mutate.foldl reaction.beforeRead surface) few
  have later := foldl_mutate_advances counts fewAsked (reaction.afterRead ++ reaction.beforeStore)
  have fewTold := Nat.le_trans
    (wanes_mutate.foldl (reaction.afterRead ++ reaction.beforeStore) _) fewAsked
  have told := asked.trans (asked.reactions ▸ later)
  rw [← Course.unroll_append] at told
  have stored := told.stored (reaction.beforeRead.foldl Surface.mutate surface) text
  rw [publishWith_eq, Reaction.events, Course.unroll_append]
  refine stored.trans ?_
  rw [← told.reactions]
  refine foldl_mutate_advances counts ?_ reaction.afterStore
  exact fewTold

end Counting

theorem counts (left : Nat) : Counts left := by
  induction left with
  | zero =>
    intro surface text few
    have plain : surface.reactions = [] := List.length_eq_zero_iff.mp (Nat.le_zero.mp few)
    rw [publish_of_nil plain, plain]
    exact ⟨(UInt64.add_zero _).symm, plain⟩
  | succ left ih =>
    intro surface text few
    cases queue : surface.reactions with
    | nil =>
      rw [publish_of_nil queue]
      exact ⟨(UInt64.add_zero _).symm, queue⟩
    | cons reaction rest =>
      rw [queue] at few
      rw [publish_of_cons queue]
      have later : rest.length ≤ left := Nat.le_of_succ_le_succ few
      generalize entered : ({ surface with reactions := rest } : Surface) = inner
      have fewInner : inner.reactions.length ≤ left := entered ▸ later
      have advances := publishWith_advances ih fewInner reaction text
      subst entered
      exact ⟨advances.counter, advances.reactions⟩

theorem publish_advances (surface : Surface) (text : String) :
    Advances surface (surface.publish text) (Course.within surface.reactions) :=
  counts surface.reactions.length surface text (Nat.le_refl _)

theorem register_advances (surface : Surface) (entry : Entry) (unnamed : event ≠ .own true) :
    Advances surface (surface.register entry) (Course.unroll [event] surface.reactions) :=
  (publish_advances (surface.placed entry) _).of_unnamed unnamed rfl rfl

theorem unregister_advances (surface : Surface) (id : String) (unnamed : event ≠ .own true) :
    Advances surface (surface.unregister id) (Course.unroll [event] surface.reactions) :=
  (publish_advances (surface.cleared id) _).of_unnamed unnamed rfl rfl

theorem attachBelow_advances (surface : Surface) (parentId content : Option String) :
    Advances surface (surface.attachBelow parentId content).2
      (Course.unroll [.own true] surface.reactions) :=
  (publish_advances (surface.named.placed _) _).of_named rfl rfl

theorem reattach_advances (surface : Surface) (attachment : Attachment) :
    Advances surface (surface.reattach attachment).2
      (Course.unroll [.own true, .own false] surface.reactions) := by
  have split := Course.unroll_append [.own true] [.own false] surface.reactions
  rw [List.singleton_append] at split
  have gone : Advances surface (surface.named.unregister attachment.entry.id)
      (Course.unroll [.own true] surface.reactions) :=
    (publish_advances (surface.named.cleared attachment.entry.id) _).of_named rfl rfl
  rw [split]
  refine gone.trans ?_
  rw [← gone.reactions]
  exact register_advances _ _ (by simp)

end Surface

namespace Session

variable {session : Session}

theorem adopt_advances (session : Session) (handle : String) (parentId content : Option String) :
    session.surface.Advances
      (session.adopt handle (session.surface.attachBelow parentId content)).2.surface
      (Course.unroll (.own true :: session.drops handle) session.surface.reactions) := by
  have attached := session.surface.attachBelow_advances parentId content
  rw [adopt, drops]
  cases lookup : session.attachment? handle with
  | none => exact attached
  | some previous =>
    have split := Course.unroll_append [.own true] [.own false] session.surface.reactions
    rw [List.singleton_append] at split
    simp only [split]
    refine attached.trans ?_
    rw [← attached.reactions]
    exact Surface.unregister_advances _ _ (by simp)

theorem counter_step (session : Session) (step : Step) :
    (session.step step).2.surface.counter =
      session.surface.counter + UInt64.ofNat (Event.taken (session.happens step)) := by
  have idle : session.surface.counter = session.surface.counter +
      UInt64.ofNat (Event.taken (Course.unroll [] session.surface.reactions).events) := by
    rw [Course.unroll_nil]
    exact (UInt64.add_zero _).symm
  cases step with
  | register entry => exact (session.surface.register_advances entry (by simp)).counter
  | unregister id => exact (session.surface.unregister_advances id (by simp)).counter
  | freshId => rfl
  | attach handle content => exact (session.adopt_advances handle none content).counter
  | attachChild handle parent content =>
    simp only [happens, sets, Session.step]
    cases session.attachment? parent with
    | none => exact idle
    | some above => exact (session.adopt_advances handle (some above.entry.id) content).counter
  | setContent handle content =>
    simp only [happens, sets, Session.step]
    cases session.attachment? handle with
    | none => exact idle
    | some attachment =>
      simp only [Surface.setContent]
      split
      · exact idle
      · exact (session.surface.register_advances _ (by simp)).counter
  | reattach handle =>
    simp only [happens, sets, Session.step]
    cases session.attachment? handle with
    | none => exact idle
    | some attachment => exact (session.surface.reattach_advances attachment).counter
  | detach handle =>
    simp only [happens, sets, drops, Session.step]
    cases session.attachment? handle with
    | none => exact idle
    | some attachment =>
      exact (session.surface.unregister_advances attachment.entry.id (by simp)).counter
  | inspect handle =>
    simp only [happens, sets, Session.step]
    split <;> exact idle
  | debugHandle handle =>
    simp only [happens, sets, Session.step]
    split <;> exact idle
  | _ => exact idle

theorem counter_run (session : Session) (steps : List Step) :
    (session.run steps).surface.counter =
      session.surface.counter + UInt64.ofNat (Event.taken (session.history steps)) := by
  induction steps generalizing session with
  | nil => exact (UInt64.add_zero _).symm
  | cons step later ih =>
    rw [run_cons, ih, counter_step, history, Event.taken_append, UInt64.ofNat_add, UInt64.add_assoc]

end Session

end Caption
