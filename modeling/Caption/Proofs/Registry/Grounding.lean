import Caption.Proofs.Registry.Mirroring
import Caption.Proofs.Registry.Straying

/-!
Sessions in which nothing is changed by hand. Ids are not issued twice and an attachment keeps its
parent, so that an attachment that strays does so for as long as it lives, in every tree that its host
gets to see.
-/
namespace Caption

/-- A step of attachments or of a reader, which changes nothing by hand. -/
def Step.Mounted : Step → Prop
  | .register _ | .unregister _ => False
  | _ => True

instance (step : Step) : Decidable step.Mounted := by
  cases step <;> unfold Step.Mounted <;> infer_instance

/-- An event of an attachment or a toast. -/
def Event.Own : Event → Prop
  | .own _ => True
  | _ => False

theorem Mutation.own_eventsOf {mutations : List Mutation}
    (floats : ∀ mutation ∈ mutations, mutation.Floats) :
    ∀ event ∈ Mutation.eventsOf mutations, event.Own := by
  intro event member
  obtain ⟨mutation, present, within⟩ := List.mem_flatMap.mp member
  have toast := floats mutation present
  cases mutation with
  | register entry => exact toast.elim
  | unregister id => exact toast.elim
  | toast content =>
    simp only [Mutation.events, List.mem_cons, List.not_mem_nil, or_false] at within
    rcases within with rfl | rfl <;> exact trivial

theorem Reaction.Toasts.own_events {reaction : Reaction} (toasts : reaction.Toasts) :
    ∀ event ∈ reaction.events, event.Own := by
  intro event member
  rw [Reaction.events] at member
  rcases List.mem_append.mp member with earlier | after
  · rcases List.mem_append.mp earlier with before | between
    · exact Mutation.own_eventsOf toasts.beforeRead event before
    · exact Mutation.own_eventsOf toasts.between event between
  · exact Mutation.own_eventsOf toasts.afterStore event after

section Own

variable {events : List Event} (own : ∀ event ∈ events, event.Own)
include own

/-- What happens during own events is of their kind if the host shows nothing but toasts. -/
theorem Course.own_unroll {reactions : List Reaction}
    (toasts : ∀ reaction ∈ reactions, reaction.Toasts) :
    ∀ event ∈ (Course.unroll events reactions).events, event.Own := by
  induction reactions generalizing events with
  | nil => simpa [Course.unroll] using own
  | cons reaction rest ih =>
    obtain ⟨first, others⟩ := List.forall_mem_cons.mp toasts
    cases events with
    | nil => simp
    | cons event later =>
      obtain ⟨head, tail⟩ := List.forall_mem_cons.mp own
      refine List.forall_mem_cons.mpr ⟨head, ih ?_ others⟩
      exact List.forall_mem_append.mpr ⟨first.own_events, tail⟩

theorem Event.clear_of_own (limit : Nat) : Event.Clear limit events := by
  intro counter _ event member touched
  have kind := own event member
  cases event with
  | own named => exact touched
  | register entry => exact kind
  | unregister id => exact kind

theorem Event.allowed_of_own (room : Event.taken events < 2 ^ 64) :
    Event.Allowed (Event.taken events) events :=
  ⟨room, Nat.le_refl _, Event.clear_of_own own _⟩

theorem EntryTree.byHand_of_own : EntryTree.byHand events = EntryTree.empty := by
  rw [EntryTree.byHand]
  generalize EntryTree.empty = tree
  induction events generalizing tree with
  | nil => rfl
  | cons event later ih =>
    obtain ⟨head, tail⟩ := List.forall_mem_cons.mp own
    cases event with
    | own named => exact ih tail tree
    | register entry => exact head.elim
    | unregister id => exact head.elim

end Own

namespace Session

variable {limit : Nat} {past : List Event} {session : Session} {handle : String}

theorem own_drops (session : Session) (handle : String) :
    ∀ event ∈ session.drops handle, event.Own := by
  unfold drops
  split
  · exact List.forall_mem_nil _
  · exact List.forall_mem_singleton.mpr trivial

theorem own_sets (session : Session) {step : Step} (mounted : step.Mounted) :
    ∀ event ∈ session.sets step, event.Own := by
  cases step with
  | register entry => exact mounted.elim
  | unregister id => exact mounted.elim
  | attach handle content => exact List.forall_mem_cons.mpr ⟨trivial, session.own_drops handle⟩
  | attachChild handle parent content =>
    simp only [sets]
    split
    · exact List.forall_mem_nil _
    · exact List.forall_mem_cons.mpr ⟨trivial, session.own_drops handle⟩
  | setContent handle content =>
    simp only [sets]
    split
    · exact List.forall_mem_nil _
    · split
      · exact List.forall_mem_nil _
      · exact List.forall_mem_singleton.mpr trivial
  | reattach handle =>
    simp only [sets]
    split
    · exact List.forall_mem_nil _
    · exact List.forall_mem_cons.mpr ⟨trivial, List.forall_mem_singleton.mpr trivial⟩
  | detach handle => exact session.own_drops handle
  | _ => exact List.forall_mem_nil _

theorem own_happens {step : Step} (mounted : step.Mounted) (toasts : session.surface.Toasts) :
    ∀ event ∈ session.happens step, event.Own := by
  cases step with
  | freshId => exact List.forall_mem_singleton.mpr trivial
  | _ => exact Course.own_unroll (session.own_sets mounted) toasts

theorem adopt_descends (follows : Follows past session) (toasts : session.surface.Toasts)
    (allowed : Event.Allowed limit
      (past ++ (Course.unroll (.own true :: session.drops handle) session.surface.reactions).events))
    (parentId content : Option String) :
    session.surface.Descends
      (session.adopt handle (session.surface.attachBelow parentId content)).2.surface := by
  have split := Course.followedBy_append ⟨past, session.surface.reactions⟩ [.own true]
    (session.drops handle)
  change Event.Allowed limit (Course.followedBy ⟨past, session.surface.reactions⟩
    ([.own true] ++ session.drops handle)).events at allowed
  rw [split] at allowed
  have attached := follows.tracks.attachBelow allowed.of_append parentId content
  have attaches := follows.tracks.attachBelow_descends allowed.of_append toasts parentId content
  rw [adopt]
  cases lookup : session.attachment? handle with
  | none => exact attaches
  | some previous =>
    rw [drops, lookup] at allowed
    have arranged := attached.perm (((owned_perm follows.handles lookup).cons _).trans
      (List.Perm.swap _ _ _))
    exact attaches.trans (arranged.detach_descends allowed (attaches.toasts toasts))

theorem step_descends (follows : Follows past session) (toasts : session.surface.Toasts)
    {step : Step} (mounted : step.Mounted)
    (allowed : Event.Allowed limit (past ++ session.happens step)) :
    session.surface.Descends (session.step step).2.surface := by
  cases step with
  | register entry => exact mounted.elim
  | unregister id => exact mounted.elim
  | freshId => exact follows.tracks.named_descends allowed
  | setState state => exact Surface.Descends.of_host rfl rfl rfl rfl
  | attach handle content => exact adopt_descends follows toasts allowed none content
  | attachChild handle parent content =>
    simp only [happens, sets, Session.step] at allowed ⊢
    cases lookup : session.attachment? parent with
    | none => exact .refl _
    | some above =>
      rw [lookup] at allowed
      exact adopt_descends follows toasts allowed (some above.entry.id) content
  | setContent handle content =>
    simp only [happens, sets] at allowed
    cases lookup : session.attachment? handle with
    | none =>
      rw [step_setContent_none lookup]
      exact .refl _
    | some attachment =>
      simp only [lookup] at allowed
      by_cases same : attachment.entry.content = content
      · rw [step_setContent_same follows.handles lookup same]
        exact .refl _
      · rw [if_neg same] at allowed
        rw [step_setContent_changed lookup same]
        have tracks := follows.tracks.perm (owned_perm follows.handles lookup)
        exact tracks.register_changed_descends allowed toasts rfl rfl
  | reattach handle =>
    simp only [happens, sets, Session.step] at allowed ⊢
    cases lookup : session.attachment? handle with
    | none => exact .refl _
    | some attachment =>
      rw [lookup] at allowed
      have tracks := follows.tracks.perm (owned_perm follows.handles lookup)
      exact tracks.reattach_descends allowed toasts
  | detach handle =>
    simp only [happens, sets, drops, Session.step] at allowed ⊢
    cases lookup : session.attachment? handle with
    | none => exact .refl _
    | some attachment =>
      rw [lookup] at allowed
      have tracks := follows.tracks.perm (owned_perm follows.handles lookup)
      exact tracks.detach_descends allowed toasts
  | inspect handle =>
    simp only [Session.step]
    split <;> exact .refl _
  | debugHandle handle =>
    simp only [Session.step]
    split <;> exact .refl _
  | _ => exact .refl _

/-- If nothing was changed by hand, the tree holds the entries of the live attachments and nothing
else. -/
theorem mem_entries_iff_mem_owned (follows : Follows past session)
    (own : ∀ event ∈ past, event.Own) (room : Event.taken past < 2 ^ 64) {entry : Entry} :
    entry ∈ session.surface.tree.entries ↔ entry ∈ session.owned := by
  rw [(follows.tracks.entries_perm (Event.allowed_of_own own room)).mem_iff,
    EntryTree.byHand_of_own own]
  simp [EntryTree.empty]

/-- What holds of a session in which nothing was changed by hand. -/
structure Grounds (past : List Event) (session : Session) : Prop where
  follows : Follows past session
  own : ∀ event ∈ past, event.Own
  toasts : session.surface.Toasts
  grounded : session.surface.tree.Grounded session.surface.counter

/-- One step. A parent is an attachment that was there when the entry came, under an id of that
time. -/
theorem Grounds.step (grounds : Grounds past session) {step : Step} (mounted : step.Mounted)
    (room : Event.taken (past ++ session.happens step) < 2 ^ 64) :
    Grounds (past ++ session.happens step) (session.step step).2 ∧
      session.surface.Descends (session.step step).2.surface := by
  have own : ∀ event ∈ past ++ session.happens step, event.Own :=
    List.forall_mem_append.mpr ⟨grounds.own, own_happens mounted grounds.toasts⟩
  have allowed := Event.allowed_of_own own room
  have follows := grounds.follows.step step allowed
  have descends := step_descends grounds.follows grounds.toasts mounted allowed
  have roomPast : Event.taken past < 2 ^ 64 := by
    rw [Event.taken_append] at room
    omega
  refine ⟨⟨follows, own, descends.toasts grounds.toasts, ?_⟩, descends⟩
  intro entry member id under
  obtain ⟨handle, last, lookup, rfl⟩ :=
    (mem_owned follows.handles).mp ((mem_entries_iff_mem_owned follows own room).mp member)
  have issued : ∃ number < session.surface.counter, id = idOfCounter number := by
    rcases parentId_step lookup with ⟨first, held, same⟩ | top | ⟨parent, above, held, below⟩
    · have owned := (mem_owned grounds.follows.handles).mpr ⟨handle, first, held, rfl⟩
      have stood := (mem_entries_iff_mem_owned grounds.follows grounds.own roomPast).mpr owned
      exact grounds.grounded first.entry stood id (same ▸ under)
    · rw [top] at under
      cases under
    · have owned := (mem_owned grounds.follows.handles).mpr ⟨parent, above, held, rfl⟩
      obtain rfl := Option.some.inj (below.symm.trans under)
      exact grounds.follows.tracks.fresh above.entry owned
  obtain ⟨number, earlier, named⟩ := issued
  exact ⟨number, UInt64.lt_of_lt_of_le earlier descends.counter, named⟩

theorem Grounds.run (grounds : Grounds past session) {steps : List Step}
    (mounted : ∀ step ∈ steps, step.Mounted)
    (room : Event.taken (past ++ session.history steps) < 2 ^ 64) :
    Grounds (past ++ session.history steps) (session.run steps) ∧
      session.surface.Descends (session.run steps).surface := by
  induction steps generalizing past session with
  | nil =>
    rw [history, List.append_nil]
    exact ⟨grounds, .refl _⟩
  | cons step later ih =>
    obtain ⟨first, others⟩ := List.forall_mem_cons.mp mounted
    rw [history, ← List.append_assoc] at room ⊢
    have roomStep : Event.taken (past ++ session.happens step) < 2 ^ 64 := by
      rw [Event.taken_append] at room
      omega
    obtain ⟨grounded, descends⟩ := grounds.step first roomStep
    obtain ⟨final, further⟩ := ih grounded others room
    exact ⟨final, descends.trans further⟩

theorem history_append (session : Session) (first second : List Step) :
    session.history (first ++ second) =
      session.history first ++ (session.run first).history second := by
  induction first generalizing session with
  | nil => rfl
  | cons step later ih =>
    rw [List.cons_append, history, history, ih, List.append_assoc]
    rfl

/-- An attachment whose parents lead to an id that is not registered is never listed again while it
lives, whatever is attached, attached anew or detached, and whatever toasts come in between: neither
in the end nor in any tree that the host sees. The same goes for all that stands below the same
parent. -/
theorem run_never_lists_strays (stateKey : String) (state : Json) (reactions : List Reaction)
    (toasts : ∀ reaction ∈ reactions, reaction.Toasts) (steps more : List Step)
    (mounted : ∀ step ∈ steps ++ more, step.Mounted)
    (room : Event.taken ((opened stateKey state reactions).history (steps ++ more)) < 2 ^ 64)
    {handle : String} {first last : Attachment} :
    let session := (opened stateKey state reactions).run steps
    let later := session.run more
    session.attachment? handle = some first → session.surface.tree.Strays first.entry →
      (∀ step ∈ more, ¬step.Attaches handle) → later.attachment? handle = some last →
        last.entry ∈ later.surface.tree.entries ∧
          last.entry.parentId = first.entry.parentId ∧
          ∃ shown, later.surface.seen = session.surface.seen ++ shown ∧
            ∀ tree ∈ shown ++ [later.surface.tree], ∀ entry ∈ tree.entries,
              entry.parentId = first.entry.parentId →
                tree.Strays entry ∧ (∀ path, ¬Listing.RootPath tree.entries path entry) ∧
                  (∀ depth, (entry, depth) ∉ Listing.visits tree.entries) ∧
                  (tree.erase entry.id).render = tree.render := by
  intro session later before strays old after
  obtain ⟨mountedSteps, mountedMore⟩ := List.forall_mem_append.mp mounted
  rw [history_append] at room
  have opens : Grounds [] (opened stateKey state reactions) :=
    ⟨follows_opened _ _ _, List.forall_mem_nil _, toasts, List.forall_mem_nil _⟩
  have roomSteps : Event.taken ([] ++ (opened stateKey state reactions).history steps) < 2 ^ 64 := by
    rw [Event.taken_append] at room
    rw [List.nil_append]
    omega
  obtain ⟨grounds, _⟩ := opens.run mountedSteps roomSteps
  obtain ⟨final, descends⟩ := grounds.run mountedMore room
  have owned := (mem_owned grounds.follows.handles).mpr ⟨handle, first, before, rfl⟩
  have stood := (mem_entries_iff_mem_owned grounds.follows grounds.own roomSteps).mpr owned
  have stands := (mem_entries_iff_mem_owned final.follows final.own room).mpr
    ((mem_owned final.follows.handles).mpr ⟨handle, last, after, rfl⟩)
  obtain ⟨id, under, lost⟩ := strays
  obtain ⟨number, issued, named⟩ := grounds.grounded first.entry stood id under
  obtain ⟨shown, seen, inherits⟩ := descends.seen
  refine ⟨stands, parentId_run old before after, shown, seen, ?_⟩
  intro tree member entry present same
  have inherited : tree.Inherits session.surface.counter session.surface.tree := by
    rcases List.mem_append.mp member with between | standing
    · exact inherits tree between
    · rw [List.mem_singleton.mp standing]
      exact descends.tree
  have astray : tree.Strays entry :=
    ⟨id, same.trans under, lost.inherited grounds.grounded inherited issued named⟩
  exact ⟨astray, astray.not_rootPath, astray.unlisted present⟩

/-- A host that shows a toast in its first two publications. -/
def waving : List Reaction :=
  [{ afterStore := [.toast (some "hello")] }, { beforeRead := [.toast none] }]

/-- A card whose panel goes. -/
def orphaning : List Step :=
  [.attach "a" (some "panel"), .attachChild "b" "a" (some "card"), .detach "a"]

/-- A new panel, and the card attached again. -/
def renewing : List Step := [.attach "a" (some "panel"), .reattach "b"]

theorem run_renewing_never_lists_card :
    let session := (opened "key" .null waving).run orphaning
    let later := session.run renewing
    session.attachment? "b" = some ⟨⟨idOfCounter 3, some (idOfCounter 0), some "card"⟩⟩ ∧
      session.surface.tree.Lost (idOfCounter 0) ∧
      later.attachment? "b" = some ⟨⟨idOfCounter 5, some (idOfCounter 0), some "card"⟩⟩ ∧
      (later.surface.tree.erase (idOfCounter 5)).render = later.surface.tree.render := by
  have before : ((opened "key" .null waving).run orphaning).attachment? "b" =
      some ⟨⟨idOfCounter 3, some (idOfCounter 0), some "card"⟩⟩ := by decide
  have lost : ((opened "key" .null waving).run orphaning).surface.tree.Lost (idOfCounter 0) :=
    .missing (by decide)
  have after : (((opened "key" .null waving).run orphaning).run renewing).attachment? "b" =
      some ⟨⟨idOfCounter 5, some (idOfCounter 0), some "card"⟩⟩ := by decide
  obtain ⟨stands, same, shown, _, strays⟩ :=
    run_never_lists_strays "key" .null waving (by decide) orphaning renewing (by decide) (by decide)
      before ⟨_, rfl, lost⟩ (by simp [renewing, Step.Attaches]) after
  obtain ⟨_, _, _, unlisted⟩ :=
    strays _ (List.mem_append_right _ List.mem_cons_self) _ stands same
  exact ⟨before, lost, after, unlisted⟩

end Session

end Caption
