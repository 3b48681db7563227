import Caption.Proofs.Registry.Running

/-!
What a step makes of the attachment under a handle. There is a new one, the one that was there gets a
fresh id, or it keeps its id and at most changes its content.
-/
namespace Caption

/-- Whether a step makes a new attachment under a handle. -/
def Step.Attaches : Step → String → Prop
  | .attach handle _, name => handle = name
  | .attachChild handle _ _, name => handle = name
  | _, _ => False

namespace Session

variable {session : Session} {handle : String} {step : Step} {last : Attachment}

/-- The handle whose attachment a step puts under a fresh id. -/
def renews (session : Session) : Step → Option String
  | .attach handle _ => some handle
  | .attachChild handle parent _ => (session.attachment? parent).map fun _ => handle
  | .reattach handle => (session.attachment? handle).map fun _ => handle
  | _ => none

/-- Whether an attachment stands at the root or below one that is there. -/
def Shelters (session : Session) (attachment : Attachment) : Prop :=
  attachment.entry.parentId = none ∨
    ∃ parent above, session.attachment? parent = some above ∧
      attachment.entry.parentId = some above.entry.id

/-- How the attachment that is under a handle after a step came there. -/
inductive Comes (session : Session) (step : Step) (handle : String) (last : Attachment) : Prop where
  | made (attaches : step.Attaches handle) (renewed : session.renews step = some handle)
      (named : last.entry.id = session.surface.freshId.1) (sheltered : session.Shelters last)
  | renamed (first : Attachment) (held : session.attachment? handle = some first)
      (renewed : session.renews step = some handle)
      (same : last.entry = { first.entry with id := session.surface.freshId.1 })
  | kept (first : Attachment) (held : session.attachment? handle = some first)
      (unrenewed : session.renews step ≠ some handle)
      (same : last.entry = { first.entry with content := last.entry.content })

theorem Comes.refl (held : session.attachment? handle = some last)
    (unrenewed : session.renews step ≠ some handle) : Comes session step handle last :=
  .kept last held unrenewed rfl

theorem attachment?_hold_eq_some {surface : Surface} {other : String} {changed : Attachment}
    (lookup : ({ session with surface := surface }.hold other changed).attachment? handle =
      some last) :
    (other = handle ∧ last = changed) ∨
      (other ≠ handle ∧ session.attachment? handle = some last) := by
  rw [attachment?_hold] at lookup
  split at lookup
  · rename_i same
    exact Or.inl ⟨same, (Option.some.inj lookup).symm⟩
  · rename_i apart
    exact Or.inr ⟨apart, lookup⟩

theorem comes_step (lookup : (session.step step).2.attachment? handle = some last) :
    Comes session step handle last := by
  cases step with
  | attach other content =>
    rcases attachment?_hold_eq_some lookup with ⟨rfl, rfl⟩ | ⟨apart, held⟩
    · exact .made rfl rfl rfl (Or.inl rfl)
    · exact .refl held (by simp [renews, apart])
  | attachChild other parent content =>
    cases present : session.attachment? parent with
    | none =>
      simp only [Session.step, present] at lookup
      exact .refl lookup (by simp [renews, present])
    | some above =>
      simp only [Session.step, present] at lookup
      rcases attachment?_hold_eq_some lookup with ⟨rfl, rfl⟩ | ⟨apart, held⟩
      · exact .made rfl (by simp [renews, present]) rfl (Or.inr ⟨parent, above, present, rfl⟩)
      · exact .refl held (by simp [renews, present, apart])
  | setContent other content =>
    have unrenewed : session.renews (.setContent other content) ≠ some handle := by simp [renews]
    cases present : session.attachment? other with
    | none =>
      rw [step_setContent_none present] at lookup
      exact .refl lookup unrenewed
    | some first =>
      simp only [Session.step, present, Surface.setContent] at lookup
      split at lookup
      all_goals
        rcases attachment?_hold_eq_some lookup with ⟨rfl, same⟩ | ⟨apart, held⟩
        · exact .kept first present unrenewed (by rw [same])
        · exact .refl held unrenewed
  | reattach other =>
    cases present : session.attachment? other with
    | none =>
      simp only [Session.step, present] at lookup
      exact .refl lookup (by simp [renews, present])
    | some first =>
      simp only [Session.step, present] at lookup
      rcases attachment?_hold_eq_some lookup with ⟨rfl, rfl⟩ | ⟨apart, held⟩
      · exact .renamed first present (by simp [renews, present]) rfl
      · exact .refl held (by simp [renews, present, apart])
  | detach other =>
    have unrenewed : session.renews (.detach other) ≠ some handle := by simp [renews]
    simp only [Session.step] at lookup
    split at lookup
    · exact .refl lookup unrenewed
    · simp only [attachment?, Keyed.get?_remove] at lookup
      split at lookup
      · cases lookup
      · exact .refl lookup unrenewed
  | inspect other =>
    simp only [Session.step] at lookup
    split at lookup <;> exact .refl lookup (by simp [renews])
  | debugHandle other =>
    simp only [Session.step] at lookup
    split at lookup <;> exact .refl lookup (by simp [renews])
  | _ => exact .refl lookup (by simp [renews])

/-- An attachment that a step has not made was there before, under the same parent. -/
theorem attachment?_step (old : ¬step.Attaches handle)
    (lookup : (session.step step).2.attachment? handle = some last) :
    ∃ first, session.attachment? handle = some first ∧
      last.entry.parentId = first.entry.parentId := by
  cases comes_step lookup with
  | made attaches => exact absurd attaches old
  | renamed first held _ same => exact ⟨first, held, by rw [same]⟩
  | kept first held _ same => exact ⟨first, held, by rw [same]⟩

/-- What a live attachment's parent is after a step: the one it had before, or for a new attachment
the root or another attachment. -/
theorem parentId_step (lookup : (session.step step).2.attachment? handle = some last) :
    (∃ first, session.attachment? handle = some first ∧
        last.entry.parentId = first.entry.parentId) ∨
      session.Shelters last := by
  cases comes_step lookup with
  | made _ _ _ sheltered => exact Or.inr sheltered
  | renamed first held _ same => exact Or.inl ⟨first, held, by rw [same]⟩
  | kept first held _ same => exact Or.inl ⟨first, held, by rw [same]⟩

/-- A live attachment has the id under which the step put it, or else the one that it had before. -/
theorem id_step (lookup : (session.step step).2.attachment? handle = some last) :
    (session.renews step = some handle ∧ last.entry.id = session.surface.freshId.1) ∨
      session.renews step ≠ some handle ∧ ∃ first, session.attachment? handle = some first ∧
        first.entry.id = last.entry.id := by
  cases comes_step lookup with
  | made _ renewed named => exact Or.inl ⟨renewed, named⟩
  | renamed first held renewed same => exact Or.inl ⟨renewed, by rw [same]⟩
  | kept first held unrenewed same => exact Or.inr ⟨unrenewed, first, held, by rw [same]⟩

end Session

end Caption
