import Caption.Proofs.Json.Members
import Caption.Proofs.Registry.Publishing
import Caption.Registry.Attachment

/-!
What a host finds in its state. If it answers a publication only after it has stored, every mutation
leaves the listing of the tree under its key, and every other key as it was.
-/
namespace Caption

/-- A host that does nothing before it has stored. -/
structure Reaction.Trails (reaction : Reaction) : Prop where
  beforeRead : reaction.beforeRead = []
  afterRead : reaction.afterRead = []
  beforeStore : reaction.beforeStore = []

instance (reaction : Reaction) : Decidable reaction.Trails :=
  decidable_of_iff
    (reaction.beforeRead = [] ∧ reaction.afterRead = [] ∧ reaction.beforeStore = [])
    ⟨fun ⟨first, second, third⟩ => ⟨first, second, third⟩,
      fun trails => ⟨trails.beforeRead, trails.afterRead, trails.beforeStore⟩⟩

namespace Surface

/-- A host that does nothing before it has stored, in any publication to come. -/
def Trails (surface : Surface) : Prop := ∀ reaction ∈ surface.reactions, reaction.Trails

/-- After a mutation the state is the one before it with the listing under its key. -/
structure Settles (before after : Surface) : Prop where
  stateKey : after.stateKey = before.stateKey
  state : after.state =
    .object ((Members.ofState before.state).set before.stateKey (.string after.description))
  reactions : after.reactions <:+ before.reactions

variable {surface first second third : Surface} {left : Nat}

namespace Settles

theorem trails (settles : Settles first second) (trails : first.Trails) : second.Trails :=
  fun reaction member => trails reaction (settles.reactions.subset member)

theorem few (settles : Settles first second) (few : first.reactions.length ≤ left) :
    second.reactions.length ≤ left :=
  Nat.le_trans settles.reactions.length_le few

/-- The later listing takes the place of the earlier one. -/
theorem trans (early : Settles first second) (late : Settles second third) :
    Settles first third := by
  refine ⟨late.stateKey.trans early.stateKey, ?_, late.reactions.trans early.reactions⟩
  rw [late.state, early.state, early.stateKey]
  exact congrArg Json.object (Members.set_set _ _ _ _)

/-- Only the host's side of the surface before a mutation plays a part. -/
theorem congr (settles : Settles second third) (stateKey : second.stateKey = first.stateKey)
    (state : second.state = first.state) (reactions : second.reactions <:+ first.reactions) :
    Settles first third := by
  refine ⟨settles.stateKey.trans stateKey, ?_, settles.reactions.trans reactions⟩
  rw [settles.state, state, stateKey]

end Settles

/-- A store of the listing as it stands. -/
theorem settles_stored (surface : Surface) :
    Settles surface (surface.stored surface surface.description) :=
  ⟨rfl, rfl, List.suffix_refl _⟩

/-- Publications leave the listing in the state while few reactions are left. -/
def Publicizes (left : Nat) : Prop :=
  ∀ surface : Surface, surface.Trails → surface.reactions.length ≤ left →
    Settles surface (published Surface.publish surface)

section Publishing

variable (publicizes : Publicizes left)
include publicizes

theorem mutate_settles_within (trails : surface.Trails) (few : surface.reactions.length ≤ left)
    (mutation : Mutation) : Settles surface (surface.mutate mutation) := by
  cases mutation with
  | register entry =>
    exact (publicizes (surface.placed entry) trails few).congr rfl rfl (List.suffix_refl _)
  | unregister id =>
    exact (publicizes (surface.cleared id) trails few).congr rfl rfl (List.suffix_refl _)
  | toast content =>
    rw [Surface.mutate, mutateWith_toast]
    have shows := (publicizes
      (surface.named.placed ⟨idOfCounter surface.counter, none, content⟩) trails few).congr
        (show surface.named.stateKey = surface.stateKey from rfl) rfl (List.suffix_refl _)
    generalize published Surface.publish
      (surface.named.placed ⟨idOfCounter surface.counter, none, content⟩) = shown at shows ⊢
    refine shows.trans ?_
    exact (publicizes (shown.cleared (idOfCounter surface.counter)) (shows.trails trails)
      (shows.few few)).congr rfl rfl (List.suffix_refl _)

theorem foldl_mutate_settles (mutations : List Mutation) (trails : second.Trails)
    (few : second.reactions.length ≤ left) (settles : Settles first second) :
    Settles first (mutations.foldl Surface.mutate second) := by
  induction mutations generalizing second with
  | nil => exact settles
  | cons mutation later ih =>
    have mutated := mutate_settles_within publicizes trails few mutation
    exact ih (mutated.trails trails) (mutated.few few) (settles.trans mutated)

end Publishing

/-- The host stores the listing first. Each mutation with which it answers stores the listing that
is the right one then, so that the last store is never an older one. -/
theorem publicizes (left : Nat) : Publicizes left := by
  induction left with
  | zero =>
    intro surface trails few
    have plain : surface.reactions = [] := List.length_eq_zero_iff.mp (Nat.le_zero.mp few)
    rw [published, publish_of_nil plain]
    exact settles_stored surface
  | succ left ih =>
    intro surface trails few
    rw [published]
    cases queue : surface.reactions with
    | nil =>
      rw [publish_of_nil queue]
      exact settles_stored surface
    | cons reaction rest =>
      have trailing : ∀ other ∈ reaction :: rest, other.Trails := queue ▸ trails
      have first := trailing reaction List.mem_cons_self
      rw [publish_of_cons queue, publishWith_eq, first.beforeRead, first.afterRead,
        first.beforeStore]
      simp only [List.append_nil, List.foldl_nil]
      generalize entered : ({ surface with reactions := rest } : Surface) = inner
      have enters : inner.description = surface.description := entered ▸ rfl
      have stored := settles_stored inner
      have innerTrails : inner.Trails := by
        subst entered
        exact fun other member => trailing other (List.mem_cons_of_mem _ member)
      have innerFew : inner.reactions.length ≤ left := by
        subst entered
        rw [queue] at few
        exact Nat.le_of_succ_le_succ few
      have answered := foldl_mutate_settles ih reaction.afterStore (stored.trails innerTrails)
        (stored.few innerFew) stored
      rw [← enters]
      refine answered.congr ?_ ?_ ?_
      · exact entered ▸ rfl
      · exact entered ▸ rfl
      · subst entered
        rw [queue]
        exact List.suffix_cons reaction rest

theorem mutate_settles (trails : surface.Trails) (mutation : Mutation) :
    Settles surface (surface.mutate mutation) :=
  mutate_settles_within (publicizes surface.reactions.length) trails (Nat.le_refl _) mutation

end Surface

end Caption
