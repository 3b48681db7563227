import Caption.Proofs.Registry.Tracking
import Caption.Registry.Session

/-!
Runs of sessions, and the events that their steps and the host's reactions bring about. Every step
keeps the entries of the live attachments apart from what stands by hand.
-/
namespace Caption

namespace Session

/-- A session over an empty registry. -/
def opened (stateKey : String) (state : Json) (reactions : List Reaction) : Session :=
  { surface := { stateKey := stateKey, state := state, reactions := reactions } }

def run (session : Session) (steps : List Step) : Session :=
  steps.foldl (fun current next => (current.step next).2) session

def owned (session : Session) : List Entry := session.live.map fun held => held.2.entry

def ownedElsewhere (session : Session) (handle : String) : List Entry :=
  (Keyed.remove Prod.fst handle session.live).map fun held => held.2.entry

/-- What the end of the attachment under a handle brings about. -/
def drops (session : Session) (handle : String) : List Event :=
  match session.attachment? handle with
  | none => []
  | some _ => [.own false]

/-- The events that a step brings about by itself. -/
def sets (session : Session) : Step → List Event
  | .register entry => [.register entry]
  | .unregister id => [.unregister id]
  | .attach handle _ => .own true :: session.drops handle
  | .attachChild handle parent _ =>
    match session.attachment? parent with
    | none => []
    | some _ => .own true :: session.drops handle
  | .setContent handle content =>
    match session.attachment? handle with
    | none => []
    | some attachment => if attachment.entry.content = content then [] else [.own false]
  | .reattach handle =>
    match session.attachment? handle with
    | none => []
    | some _ => [.own true, .own false]
  | .detach handle => session.drops handle
  | _ => []

/-- All that happens during a step. An id that is only asked for is not published. -/
def happens (session : Session) : Step → List Event
  | .freshId => [.own true]
  | step => (Course.unroll (session.sets step) session.surface.reactions).events

/-- All that happens during steps. -/
def history (session : Session) : List Step → List Event
  | [] => []
  | step :: later => session.happens step ++ (session.step step).2.history later

/-- What holds of a session after the events of a history. -/
structure Follows (past : List Event) (session : Session) : Prop where
  handles : Keyed.Sorted Prod.fst session.live
  tracks : session.surface.Tracks ⟨past, session.surface.reactions⟩ session.owned

variable {limit : Nat} {past : List Event} {session : Session} {handle : String}
  {attachment : Attachment} {surface : Surface} {course : Course} {entry : Entry}

theorem run_cons (session : Session) (step : Step) (later : List Step) :
    session.run (step :: later) = (session.step step).2.run later := rfl

theorem attachment?_hold (session : Session) (handle other : String) (attachment : Attachment) :
    (session.hold handle attachment).attachment? other =
      if handle = other then some attachment else session.attachment? other := by
  simp only [attachment?, hold, Keyed.get?_put]
  split <;> rfl

theorem exists_of_attachment? (lookup : session.attachment? handle = some attachment) :
    Keyed.get? Prod.fst handle session.live = some (handle, attachment) := by
  obtain ⟨⟨name, kept⟩, found, rfl⟩ := Option.map_eq_some_iff.mp lookup
  have named : name = handle := by simpa using List.find?_some found
  rw [found, named]

theorem owned_perm (handles : Keyed.Sorted Prod.fst session.live)
    (lookup : session.attachment? handle = some attachment) :
    session.owned.Perm (attachment.entry :: session.ownedElsewhere handle) :=
  (Keyed.perm_of_get? handles (exists_of_attachment? lookup)).map _

theorem ownedElsewhere_of_none (lookup : session.attachment? handle = none) :
    session.ownedElsewhere handle = session.owned := by
  rw [ownedElsewhere, Keyed.remove_eq_self (Option.map_eq_none_iff.mp lookup), owned]

theorem mem_owned (handles : Keyed.Sorted Prod.fst session.live) {entry : Entry} :
    entry ∈ session.owned ↔
      ∃ handle attachment, session.attachment? handle = some attachment ∧
        attachment.entry = entry := by
  constructor
  · intro member
    obtain ⟨⟨handle, attachment⟩, held, rfl⟩ := List.mem_map.mp member
    refine ⟨handle, attachment, ?_, rfl⟩
    rw [attachment?, (Keyed.get?_eq_some handles).mpr ⟨held, rfl⟩, Option.map_some]
  · rintro ⟨handle, attachment, lookup, rfl⟩
    exact ((owned_perm handles lookup).mem_iff).mpr List.mem_cons_self

theorem owned_hold_perm (handles : Keyed.Sorted Prod.fst session.live) (handle : String)
    (attachment : Attachment) :
    (session.hold handle attachment).owned.Perm
      (attachment.entry :: session.ownedElsewhere handle) :=
  (Keyed.perm_put handles (handle, attachment)).map _

theorem hold_eq_self (handles : Keyed.Sorted Prod.fst session.live)
    (lookup : session.attachment? handle = some attachment) :
    session.hold handle attachment = session := by
  rw [hold, Keyed.put_eq_self handles (exists_of_attachment? lookup)]

section SetContent

variable {content : Option String}

theorem step_setContent_none (lookup : session.attachment? handle = none) :
    session.step (.setContent handle content) = (.noHandle, session) := by
  simp [step, lookup]

theorem step_setContent_same (handles : Keyed.Sorted Prod.fst session.live)
    (lookup : session.attachment? handle = some attachment)
    (same : attachment.entry.content = content) :
    session.step (.setContent handle content) = (.flag false, session) := by
  simp only [step, lookup, Surface.setContent, if_pos same]
  exact congrArg _ (hold_eq_self handles lookup)

/-- Changed content is registered under the same id. -/
theorem step_setContent_changed (lookup : session.attachment? handle = some attachment)
    (different : attachment.entry.content ≠ content) :
    session.step (.setContent handle content) =
      (.flag true,
        { session with
          surface := session.surface.register { attachment.entry with content := content } }.hold
            handle ⟨{ attachment.entry with content := content }⟩) := by
  simp only [step, lookup, Surface.setContent, if_neg different]

end SetContent

/-- A surface and attachments that fit each other make a session. -/
theorem Follows.of_tracks {live : List (String × Attachment)} (handles : Keyed.Sorted Prod.fst live)
    (tracks : surface.Tracks course (live.map fun held => held.2.entry)) :
    Follows course.events ⟨surface, live⟩ :=
  ⟨handles, tracks.settled⟩

theorem Follows.hold {later : Surface} (follows : Follows past session) (attachment : Attachment)
    (tracks : later.Tracks course (attachment.entry :: session.ownedElsewhere handle)) :
    Follows course.events ({ session with surface := later }.hold handle attachment) :=
  Follows.of_tracks (Keyed.sorted_put _ follows.handles)
    (tracks.perm (owned_hold_perm follows.handles handle attachment).symm)

/-- A new attachment takes the place of the one that its handle held. -/
theorem Follows.adopt (follows : Follows past session)
    (allowed : Event.Allowed limit
      (past ++ (Course.unroll (.own true :: session.drops handle) session.surface.reactions).events))
    (parentId content : Option String) :
    Follows (past ++ (Course.unroll (.own true :: session.drops handle)
        session.surface.reactions).events)
      (session.adopt handle (session.surface.attachBelow parentId content)).2 := by
  have split := Course.followedBy_append ⟨past, session.surface.reactions⟩ [.own true]
    (session.drops handle)
  change Event.Allowed limit (Course.followedBy ⟨past, session.surface.reactions⟩
    ([.own true] ++ session.drops handle)).events at allowed
  change Follows (Course.followedBy ⟨past, session.surface.reactions⟩
    ([.own true] ++ session.drops handle)).events _
  rw [split] at allowed ⊢
  have attached := follows.tracks.attachBelow allowed.of_append parentId content
  cases lookup : session.attachment? handle with
  | none =>
    rw [drops, lookup, Course.followedBy_nil]
    rw [Session.adopt, lookup]
    rw [← ownedElsewhere_of_none lookup] at attached
    exact follows.hold _ attached
  | some previous =>
    rw [drops, lookup] at allowed ⊢
    rw [Session.adopt, lookup]
    have arranged := attached.perm (((owned_perm follows.handles lookup).cons _).trans
      (List.Perm.swap _ _ _))
    exact follows.hold _ (arranged.detach allowed)

theorem Follows.step (follows : Follows past session) (step : Step)
    (allowed : Event.Allowed limit (past ++ session.happens step)) :
    Follows (past ++ session.happens step) (session.step step).2 := by
  have idle : Follows (past ++ (Course.unroll [] session.surface.reactions).events) session := by
    simpa using follows
  cases step with
  | register entry =>
    exact Follows.of_tracks follows.handles (follows.tracks.mutate (.register entry) allowed)
  | unregister id =>
    exact Follows.of_tracks follows.handles (follows.tracks.mutate (.unregister id) allowed)
  | freshId => exact Follows.of_tracks follows.handles (follows.tracks.named allowed)
  | setState state =>
    obtain ⟨handles, counter, reactions, fresh, distinct, held, others⟩ := idle
    exact ⟨handles, counter, reactions, fresh, distinct, held, others⟩
  | attach handle content => exact follows.adopt allowed none content
  | attachChild handle parent content =>
    simp only [happens, sets, Session.step] at allowed ⊢
    cases lookup : session.attachment? parent with
    | none => exact idle
    | some above =>
      rw [lookup] at allowed
      exact follows.adopt allowed (some above.entry.id) content
  | setContent handle content =>
    simp only [happens, sets] at allowed ⊢
    cases lookup : session.attachment? handle with
    | none =>
      rw [step_setContent_none lookup]
      exact idle
    | some attachment =>
      simp only [lookup] at allowed ⊢
      by_cases same : attachment.entry.content = content
      · rw [if_pos same, step_setContent_same follows.handles lookup same]
        exact idle
      · rw [if_neg same] at allowed ⊢
        rw [step_setContent_changed lookup same]
        have tracks := follows.tracks.perm (owned_perm follows.handles lookup)
        have kept : ({ attachment.entry with content := content } : Entry).id = attachment.entry.id :=
          rfl
        exact follows.hold _ (tracks.register_changed allowed kept)
  | reattach handle =>
    simp only [happens, sets, Session.step] at allowed ⊢
    cases lookup : session.attachment? handle with
    | none => exact idle
    | some attachment =>
      rw [lookup] at allowed
      have tracks := follows.tracks.perm (owned_perm follows.handles lookup)
      exact follows.hold _ (tracks.reattach allowed)
  | detach handle =>
    simp only [happens, sets, drops, Session.step] at allowed ⊢
    cases lookup : session.attachment? handle with
    | none => exact idle
    | some attachment =>
      rw [lookup] at allowed
      have tracks := follows.tracks.perm (owned_perm follows.handles lookup)
      exact Follows.of_tracks (Keyed.sorted_remove handle follows.handles) (tracks.detach allowed)
  | inspect handle =>
    simp only [happens, sets, Session.step]
    split <;> exact idle
  | debugHandle handle =>
    simp only [happens, sets, Session.step]
    split <;> exact idle
  | _ => exact idle

theorem Follows.run (follows : Follows past session) (steps : List Step)
    (allowed : Event.Allowed limit (past ++ session.history steps)) :
    Follows (past ++ session.history steps) (session.run steps) := by
  induction steps generalizing past session with
  | nil =>
    rw [history, List.append_nil]
    exact follows
  | cons step later ih =>
    rw [history, ← List.append_assoc] at allowed ⊢
    exact ih (follows.step step allowed.of_append) allowed

theorem follows_opened (stateKey : String) (state : Json) (reactions : List Reaction) :
    Follows [] (opened stateKey state reactions) :=
  ⟨List.Pairwise.nil, rfl, rfl, by simp [opened, owned], by simp [opened, owned],
    by simp [opened, owned], fun _ _ => rfl⟩

end Session

end Caption
