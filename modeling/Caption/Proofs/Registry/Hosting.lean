import Caption.Proofs.Registry.Running
import Caption.Proofs.Registry.Settling

/-!
What the host of a session finds in its state: the listing as it stands after the last mutation, and
otherwise what it wrote there itself.
-/
namespace Caption

namespace Surface

variable {surface : Surface}

/-- The state after a mutation is an object: the listing is under its key, and under every other key
is what was there before. -/
def Lists (before after : Surface) : Prop :=
  ∃ members : Members, after.state = .object members ∧
    members.get? before.stateKey = some (.string after.description) ∧
    ∀ key, key ≠ before.stateKey →
      members.get? key = (Members.ofState before.state).get? key

theorem Settles.lists {before after : Surface} (settles : Settles before after) :
    Lists before after := by
  refine ⟨_, settles.state, ?_, ?_⟩
  · rw [Members.get?_set, if_pos rfl]
  · intro key apart
    rw [Members.get?_set, if_neg (Ne.symm apart)]

theorem attachBelow_settles (trails : surface.Trails) (parentId content : Option String) :
    Settles surface (surface.attachBelow parentId content).2 := by
  have registered := mutate_settles (show surface.named.Trails from trails)
    (.register ⟨idOfCounter surface.counter, parentId, content⟩)
  exact registered.congr rfl rfl (List.suffix_refl _)

theorem detach_settles (trails : surface.Trails) (attachment : Attachment) :
    Settles surface (surface.detach attachment) :=
  mutate_settles trails (.unregister attachment.entry.id)

/-- Both publications of an attachment under a new id. -/
theorem reattach_settles (trails : surface.Trails) (attachment : Attachment) :
    Settles surface (surface.reattach attachment).2 := by
  have gone := mutate_settles (show surface.named.Trails from trails)
    (.unregister attachment.entry.id)
  have back := mutate_settles (gone.trails trails)
    (.register { attachment.entry with id := idOfCounter surface.counter })
  exact (gone.trans back).congr rfl rfl (List.suffix_refl _)

end Surface

/-- The state that a step of the host writes. -/
def Step.written? : Step → Option Json
  | .setState given => some given
  | _ => none

/-- The state that the host wrote last. -/
def Step.lastWritten (state : Json) (steps : List Step) : Json :=
  steps.foldl (fun last step => step.written?.getD last) state

namespace Session

variable {session : Session} {handle stateKey : String} {state : Json}

/-- Whether a step changes the registry. -/
def Mutates (session : Session) (step : Step) : Prop := session.sets step ≠ []

instance (session : Session) (step : Step) : Decidable (session.Mutates step) :=
  inferInstanceAs (Decidable (session.sets step ≠ []))

theorem adopt_settles (trails : session.surface.Trails) (handle : String)
    (parentId content : Option String) :
    session.surface.Settles
      (session.adopt handle (session.surface.attachBelow parentId content)).2.surface := by
  have attached := Surface.attachBelow_settles trails parentId content
  rw [adopt]
  cases session.attachment? handle with
  | none => exact attached
  | some previous =>
    exact attached.trans (Surface.detach_settles (attached.trails trails) previous)

/-- A step that changes the registry leaves the listing in the state. -/
theorem step_settles (trails : session.surface.Trails) {step : Step}
    (mutates : session.Mutates step) :
    session.surface.Settles (session.step step).2.surface := by
  cases step with
  | register entry => exact Surface.mutate_settles trails (.register entry)
  | unregister id => exact Surface.mutate_settles trails (.unregister id)
  | attach handle content => exact adopt_settles trails handle none content
  | attachChild handle parent content =>
    simp only [Mutates, sets, step] at mutates ⊢
    cases lookup : session.attachment? parent with
    | none => simp [lookup] at mutates
    | some above => exact adopt_settles trails handle (some above.entry.id) content
  | setContent handle content =>
    simp only [Mutates, sets] at mutates
    cases lookup : session.attachment? handle with
    | none => simp [lookup] at mutates
    | some attachment =>
      have different : attachment.entry.content ≠ content := by
        intro same
        simp [lookup, same] at mutates
      rw [step_setContent_changed lookup different]
      exact Surface.mutate_settles trails (.register { attachment.entry with content := content })
  | reattach handle =>
    simp only [Mutates, sets, step] at mutates ⊢
    cases lookup : session.attachment? handle with
    | none => simp [lookup] at mutates
    | some attachment => exact Surface.reattach_settles trails attachment
  | detach handle =>
    simp only [Mutates, sets, drops, step] at mutates ⊢
    cases lookup : session.attachment? handle with
    | none => simp [lookup] at mutates
    | some attachment => exact Surface.detach_settles trails attachment
  | _ => exact absurd rfl mutates

/-- A step that leaves the registry alone publishes nothing. -/
theorem step_rests {step : Step} (rests : ¬session.Mutates step) :
    (session.step step).2.surface.stateKey = session.surface.stateKey ∧
      (session.step step).2.surface.reactions = session.surface.reactions ∧
      (session.step step).2.surface.state = step.written?.getD session.surface.state := by
  have silent : session.sets step = [] := Classical.not_not.mp rests
  cases step with
  | register entry => simp [sets] at silent
  | unregister id => simp [sets] at silent
  | attach handle content => simp [sets] at silent
  | attachChild handle parent content =>
    cases lookup : session.attachment? parent with
    | none => simp [step, lookup, Step.written?]
    | some above => simp [sets, lookup] at silent
  | setContent handle content =>
    cases lookup : session.attachment? handle with
    | none => simp [step, lookup, Step.written?]
    | some attachment =>
      have same : attachment.entry.content = content := by
        simpa [sets, lookup] using silent
      simp [step, lookup, Surface.setContent, same, hold, Step.written?]
  | reattach handle =>
    cases lookup : session.attachment? handle with
    | none => simp [step, lookup, Step.written?]
    | some attachment => simp [sets, lookup] at silent
  | detach handle =>
    cases lookup : session.attachment? handle with
    | none => simp [step, lookup, Step.written?]
    | some attachment => simp [sets, drops, lookup] at silent
  | inspect handle => cases lookup : session.attachment? handle <;> simp [step, lookup, Step.written?]
  | debugHandle handle =>
    cases lookup : session.attachment? handle <;> simp [step, lookup, Step.written?]
  | _ => exact ⟨rfl, rfl, rfl⟩

/-- What the host finds under the keys that are its own. -/
structure Hosts (stateKey : String) (state : Json) (session : Session) : Prop where
  named : session.surface.stateKey = stateKey
  trails : session.surface.Trails
  kept : ∀ key, key ≠ stateKey →
    (Members.ofState session.surface.state).get? key = (Members.ofState state).get? key

theorem Hosts.step (hosts : Hosts stateKey state session) (step : Step) :
    Hosts stateKey (step.written?.getD state) (session.step step).2 := by
  by_cases mutates : session.Mutates step
  · have settles := step_settles hosts.trails mutates
    have unwritten : step.written? = none := by
      cases step with
      | setState state => exact absurd rfl mutates
      | _ => rfl
    refine ⟨settles.stateKey.trans hosts.named, settles.trails hosts.trails, ?_⟩
    intro key apart
    rw [settles.state, unwritten, hosts.named]
    exact (Members.get?_set _ _ _ _).trans ((if_neg (Ne.symm apart)).trans (hosts.kept key apart))
  · obtain ⟨sameKey, sameReactions, written⟩ := step_rests mutates
    refine ⟨sameKey.trans hosts.named, ?_, ?_⟩
    · rw [Surface.Trails, sameReactions]
      exact hosts.trails
    · intro key apart
      rw [written]
      cases step.written? with
      | none => exact hosts.kept key apart
      | some written => rfl

theorem Hosts.run (hosts : Hosts stateKey state session) (steps : List Step) :
    Hosts stateKey (Step.lastWritten state steps) (session.run steps) := by
  induction steps generalizing session state with
  | nil => exact hosts
  | cons step later ih => exact ih (hosts.step step)

/-- A host that shows two toasts in its first publication and one in the next. -/
def toasting : List Reaction :=
  [{ afterStore := [.toast (some "first"), .toast none] }, { afterStore := [.toast (some "last")] }]

/-- A panel, a new state from the host, and a card in the panel. -/
def restyling : List Step :=
  [.attach "a" (some "panel"), .setState (.object [("theme", .string "dark")]),
    .attachChild "b" "a" (some "card")]

end Session

end Caption
