import Caption.Registry.Surface

/-!
Publishing without a depth. A publication inside another one has fewer reactions left, so that the
depth that `publish` allows is never the reason why one ends.
-/
namespace Caption

namespace Surface

/-- The surface after a fresh id was taken. -/
def named (surface : Surface) : Surface := { surface with counter := surface.counter + 1 }

/-- The surface with an entry in place, not published yet. -/
def placed (surface : Surface) (entry : Entry) : Surface :=
  { surface with tree := surface.tree.insert entry }

/-- The surface without the entry of an id, not published yet. -/
def cleared (surface : Surface) (id : String) : Surface :=
  { surface with tree := surface.tree.erase id }

/-- Publish the listing of a surface as it stands. -/
def published (publish : String → Surface → Surface) (surface : Surface) : Surface :=
  publish surface.description surface

/-- The surface after a store of a listing, merged into the state as it was read. -/
def stored (told asked : Surface) (text : String) : Surface :=
  { told with
    state := .object ((Members.ofState asked.state).set asked.stateKey (.string text))
    writes := told.writes + 1
    seen := told.seen ++ [told.tree] }

section Changes

variable (publish : String → Surface → Surface) (surface : Surface)

theorem mutateWith_toast (content : Option String) :
    mutateWith publish surface (.toast content) =
      published publish
        ((published publish
          (surface.named.placed ⟨idOfCounter surface.counter, none, content⟩)).cleared
            (idOfCounter surface.counter)) := rfl

theorem publishWith_eq (mutate : Surface → Mutation → Surface) (reaction : Reaction)
    (text : String) :
    publishWith mutate reaction text surface =
      reaction.afterStore.foldl mutate
        (((reaction.afterRead ++ reaction.beforeStore).foldl mutate
          (reaction.beforeRead.foldl mutate surface)).stored
            (reaction.beforeRead.foldl mutate surface) text) := rfl

end Changes

/-- A way of changing surfaces that brings no new reactions. -/
def Wanes (mutate : Surface → Mutation → Surface) : Prop :=
  ∀ surface mutation, (mutate surface mutation).reactions.length ≤ surface.reactions.length

/-- Two ways of changing surfaces that agree as long as few reactions are left. -/
def AgreeWithin (left : Nat) (first second : Surface → Mutation → Surface) : Prop :=
  ∀ surface mutation, surface.reactions.length ≤ left →
    first surface mutation = second surface mutation

section Depths

variable {mutate other : Surface → Mutation → Surface} {publish : String → Surface → Surface}
  {left : Nat}

theorem Wanes.foldl (wanes : Wanes mutate) (mutations : List Mutation) (surface : Surface) :
    (mutations.foldl mutate surface).reactions.length ≤ surface.reactions.length := by
  induction mutations generalizing surface with
  | nil => exact Nat.le_refl _
  | cons mutation later ih => exact Nat.le_trans (ih _) (wanes surface mutation)

theorem Wanes.publishWith (wanes : Wanes mutate) (reaction : Reaction) (text : String)
    (surface : Surface) :
    (publishWith mutate reaction text surface).reactions.length ≤ surface.reactions.length := by
  have asked := wanes.foldl reaction.beforeRead surface
  have told := wanes.foldl (reaction.afterRead ++ reaction.beforeStore)
    (reaction.beforeRead.foldl mutate surface)
  exact Nat.le_trans (wanes.foldl _ _) (Nat.le_trans told asked)

theorem wanes_mutateWith
    (wanes : ∀ text surface, (publish text surface).reactions.length ≤ surface.reactions.length) :
    Wanes (mutateWith publish) := by
  intro surface mutation
  cases mutation with
  | register entry => exact wanes _ _
  | unregister id => exact wanes _ _
  | toast content => exact Nat.le_trans (wanes _ _) (wanes _ _)

theorem publishWithin_of_nil (depth : Nat) (text : String) {surface : Surface}
    (plain : surface.reactions = []) :
    publishWithin depth text surface = publishWith (fun surface _ => surface) {} text surface := by
  cases depth with
  | zero => rw [publishWithin]; simp
  | succ depth => simp [publishWithin, plain]

theorem publishWithin_of_cons (depth : Nat) (text : String) {surface : Surface}
    {reaction : Reaction} {rest : List Reaction} (queue : surface.reactions = reaction :: rest) :
    publishWithin (depth + 1) text surface =
      publishWith (mutateWith (publishWithin depth)) reaction text
        { surface with reactions := rest } := by
  rw [publishWithin.eq_def]
  simp only [queue]

theorem publishWith_plain (text : String) (surface : Surface) :
    (publishWith (fun surface _ => surface) {} text surface).reactions = surface.reactions := rfl

theorem length_reactions_publishWithin (depth : Nat) (text : String) (surface : Surface) :
    (publishWithin depth text surface).reactions.length ≤ surface.reactions.length := by
  induction depth generalizing text surface with
  | zero =>
    cases queue : surface.reactions <;> simp [publishWithin, queue, publishWith_plain]
  | succ depth ih =>
    cases queue : surface.reactions with
    | nil => simp [publishWithin_of_nil _ _ queue, publishWith_plain, queue]
    | cons reaction rest =>
      rw [publishWithin_of_cons _ _ queue]
      exact Nat.le_trans ((wanes_mutateWith ih).publishWith _ _ _) (Nat.le_succ _)

theorem AgreeWithin.foldl (agree : AgreeWithin left mutate other) (wanes : Wanes mutate)
    (mutations : List Mutation) {surface : Surface} (few : surface.reactions.length ≤ left) :
    mutations.foldl mutate surface = mutations.foldl other surface := by
  induction mutations generalizing surface with
  | nil => rfl
  | cons mutation later ih =>
    rw [List.foldl_cons, List.foldl_cons, ← agree surface mutation few]
    exact ih (Nat.le_trans (wanes surface mutation) few)

theorem AgreeWithin.publishWith (agree : AgreeWithin left mutate other) (wanes : Wanes mutate)
    (reaction : Reaction) (text : String) {surface : Surface}
    (few : surface.reactions.length ≤ left) :
    publishWith mutate reaction text surface = publishWith other reaction text surface := by
  have asked := agree.foldl wanes reaction.beforeRead few
  have fewAsked := Nat.le_trans (wanes.foldl reaction.beforeRead surface) few
  have told := agree.foldl wanes (reaction.afterRead ++ reaction.beforeStore) fewAsked
  have fewTold := Nat.le_trans
    (wanes.foldl (reaction.afterRead ++ reaction.beforeStore) _) fewAsked
  simp only [Surface.publishWith, ← asked, ← told]
  exact agree.foldl wanes reaction.afterStore fewTold

theorem agreeWithin_mutateWith {second : String → Surface → Surface}
    (wanes : ∀ text surface, (publish text surface).reactions.length ≤ surface.reactions.length)
    (agree : ∀ text surface, surface.reactions.length ≤ left →
      publish text surface = second text surface) :
    AgreeWithin left (mutateWith publish) (mutateWith second) := by
  intro surface mutation few
  cases mutation with
  | register entry => exact agree _ _ few
  | unregister id => exact agree _ _ few
  | toast content =>
    rw [mutateWith_toast, mutateWith_toast]
    generalize placing : surface.named.placed ⟨idOfCounter surface.counter, none, content⟩ = shown
    have fewShown : shown.reactions.length ≤ left := placing ▸ few
    have first : published publish shown = published second shown := agree _ _ fewShown
    rw [← first]
    exact agree _ _ (Nat.le_trans (wanes _ _) fewShown)

/-- Depths that leave room for all reactions publish alike. -/
theorem publishWithin_eq {depth further : Nat} (text : String) {surface : Surface}
    (enough : surface.reactions.length ≤ depth) (more : surface.reactions.length ≤ further) :
    publishWithin depth text surface = publishWithin further text surface := by
  induction depth generalizing further text surface with
  | zero =>
    have plain : surface.reactions = [] := List.length_eq_zero_iff.mp (Nat.le_zero.mp enough)
    rw [publishWithin_of_nil _ _ plain, publishWithin_of_nil _ _ plain]
  | succ depth ih =>
    cases queue : surface.reactions with
    | nil => rw [publishWithin_of_nil _ _ queue, publishWithin_of_nil _ _ queue]
    | cons reaction rest =>
      rw [queue, List.length_cons] at enough more
      obtain ⟨further, rfl⟩ : ∃ smaller, further = smaller + 1 := ⟨further - 1, by omega⟩
      rw [publishWithin_of_cons _ _ queue, publishWithin_of_cons _ _ queue]
      refine AgreeWithin.publishWith ?_ ?_ reaction text (Nat.le_refl rest.length)
      · refine agreeWithin_mutateWith (length_reactions_publishWithin depth) ?_
        intro text surface few
        exact ih text (by omega) (by omega)
      · exact wanes_mutateWith (length_reactions_publishWithin depth)

end Depths

theorem publish_of_nil {surface : Surface} (plain : surface.reactions = []) (text : String) :
    surface.publish text = publishWith (fun surface _ => surface) {} text surface := by
  simp [Surface.publish, plain, publishWithin]

/-- A publication uses up one reaction; the changes on the way are published in turn. -/
theorem publish_of_cons {surface : Surface} {reaction : Reaction} {rest : List Reaction}
    (queue : surface.reactions = reaction :: rest) (text : String) :
    surface.publish text =
      publishWith Surface.mutate reaction text { surface with reactions := rest } := by
  have depth : surface.reactions.length = rest.length + 1 := by rw [queue, List.length_cons]
  rw [Surface.publish, depth, publishWithin_of_cons _ _ queue]
  refine AgreeWithin.publishWith ?_ ?_ reaction text (Nat.le_refl rest.length)
  · refine agreeWithin_mutateWith (length_reactions_publishWithin rest.length) ?_
    intro text surface few
    exact publishWithin_eq text few (Nat.le_refl _)
  · exact wanes_mutateWith (length_reactions_publishWithin rest.length)

theorem length_reactions_publish (text : String) (surface : Surface) :
    (surface.publish text).reactions.length ≤ surface.reactions.length :=
  length_reactions_publishWithin _ text surface

theorem wanes_mutate : Wanes Surface.mutate := wanes_mutateWith length_reactions_publish

/-- A relation that every part of a publication keeps. -/
structure Steady (related : Surface → Surface → Prop) : Prop where
  refl : ∀ surface, related surface surface
  trans : ∀ first second third, related first second → related second third → related first third
  named : ∀ surface, related surface surface.named
  placed : ∀ surface entry, related surface (surface.placed entry)
  cleared : ∀ surface id, related surface (surface.cleared id)
  stored : ∀ told asked text, related told (told.stored asked text)
  used : ∀ surface rest, related surface { surface with reactions := rest }

namespace Steady

variable {related : Surface → Surface → Prop} (steady : Steady related)
include steady

theorem foldl {surface : Surface}
    (kept : ∀ later mutation, later.reactions.length ≤ surface.reactions.length →
      related later (Surface.mutate later mutation)) (mutations : List Mutation) :
    related surface (mutations.foldl Surface.mutate surface) := by
  induction mutations generalizing surface with
  | nil => exact steady.refl surface
  | cons mutation later ih =>
    refine steady.trans _ _ _ (kept surface mutation (Nat.le_refl _)) (ih ?_)
    intro further next few
    exact kept further next (Nat.le_trans few (wanes_mutate surface mutation))

theorem mutate_of_publish (left : Nat)
    (kept : ∀ surface text, surface.reactions.length ≤ left →
      related surface (surface.publish text))
    (surface : Surface) (mutation : Mutation) (few : surface.reactions.length ≤ left) :
    related surface (surface.mutate mutation) := by
  cases mutation with
  | register entry => exact steady.trans _ _ _ (steady.placed surface entry) (kept _ _ few)
  | unregister id => exact steady.trans _ _ _ (steady.cleared surface id) (kept _ _ few)
  | toast content =>
    rw [Surface.mutate, mutateWith_toast]
    generalize placing : surface.named.placed ⟨idOfCounter surface.counter, none, content⟩ = shown
    have fewShown : shown.reactions.length ≤ left := placing ▸ few
    have first : related surface shown :=
      placing ▸ steady.trans _ _ _ (steady.named surface) (steady.placed _ _)
    have second := kept shown shown.description fewShown
    have third := steady.cleared (shown.publish shown.description) (idOfCounter surface.counter)
    refine steady.trans _ _ _ (steady.trans _ _ _ first (steady.trans _ _ _ second third)) ?_
    exact kept _ _ (Nat.le_trans (length_reactions_publish _ shown) fewShown)

/-- What holds between the surfaces around a store holds around a whole publication. -/
theorem publishWith (surface : Surface)
    (kept : ∀ later mutation, later.reactions.length ≤ surface.reactions.length →
      related later (Surface.mutate later mutation)) (reaction : Reaction) (text : String) :
    ∃ told asked : Surface, related surface told ∧
      related (told.stored asked text) (Surface.publishWith Surface.mutate reaction text surface) := by
  have asked := steady.foldl kept reaction.beforeRead
  have fewAsked := wanes_mutate.foldl reaction.beforeRead surface
  have told := steady.foldl
    (fun later mutation few => kept later mutation (Nat.le_trans few fewAsked))
    (reaction.afterRead ++ reaction.beforeStore)
  have fewTold := wanes_mutate.foldl (reaction.afterRead ++ reaction.beforeStore)
    (reaction.beforeRead.foldl Surface.mutate surface)
  refine ⟨_, reaction.beforeRead.foldl Surface.mutate surface, steady.trans _ _ _ asked told, ?_⟩
  rw [publishWith_eq]
  refine steady.foldl ?_ reaction.afterStore
  intro later mutation few
  exact kept later mutation (Nat.le_trans few (Nat.le_trans fewTold fewAsked))

/-- A publication is a store, with what holds around stores before and after it. -/
theorem publish_of_few (left : Nat) (surface : Surface) (text : String)
    (few : surface.reactions.length ≤ left) :
    ∃ told asked : Surface, related surface told ∧
      related (told.stored asked text) (surface.publish text) := by
  induction left generalizing surface text with
  | zero =>
    have plain : surface.reactions = [] := List.length_eq_zero_iff.mp (Nat.le_zero.mp few)
    exact ⟨surface, surface, steady.refl _, publish_of_nil plain text ▸ steady.refl _⟩
  | succ left ih =>
    cases queue : surface.reactions with
    | nil => exact ⟨surface, surface, steady.refl _, publish_of_nil queue text ▸ steady.refl _⟩
    | cons reaction rest =>
      rw [queue] at few
      have inner : ∀ later mutation, later.reactions.length ≤ rest.length →
          related later (Surface.mutate later mutation) := by
        intro later mutation fewer
        refine steady.mutate_of_publish left ?_ later mutation
          (Nat.le_trans fewer (Nat.le_of_succ_le_succ few))
        intro further text fewest
        obtain ⟨told, asked, before, after⟩ := ih further text fewest
        exact steady.trans _ _ _ before (steady.trans _ _ _ (steady.stored told asked text) after)
      obtain ⟨told, asked, before, after⟩ :=
        steady.publishWith { surface with reactions := rest } inner reaction text
      refine ⟨told, asked, steady.trans _ _ _ (steady.used surface rest) before, ?_⟩
      rw [publish_of_cons queue]
      exact after

theorem around_store (surface : Surface) (text : String) :
    ∃ told asked : Surface, related surface told ∧
      related (told.stored asked text) (surface.publish text) :=
  steady.publish_of_few surface.reactions.length surface text (Nat.le_refl _)

theorem publish (surface : Surface) (text : String) : related surface (surface.publish text) := by
  obtain ⟨told, asked, before, after⟩ := steady.around_store surface text
  exact steady.trans _ _ _ before (steady.trans _ _ _ (steady.stored told asked text) after)

theorem mutate (surface : Surface) (mutation : Mutation) :
    related surface (surface.mutate mutation) :=
  steady.mutate_of_publish surface.reactions.length
    (fun later text _ => steady.publish later text) surface mutation (Nat.le_refl _)

end Steady

theorem steady_writes : Steady fun before after => before.writes ≤ after.writes :=
  ⟨fun _ => Nat.le_refl _, fun _ _ _ => Nat.le_trans, fun _ => Nat.le_refl _,
    fun _ _ => Nat.le_refl _, fun _ _ => Nat.le_refl _, fun told _ _ => Nat.le_succ told.writes,
    fun _ _ => Nat.le_refl _⟩

theorem steady_stateKey : Steady fun before after => after.stateKey = before.stateKey :=
  ⟨fun _ => rfl, fun _ _ _ early late => late.trans early, fun _ => rfl, fun _ _ => rfl,
    fun _ _ => rfl, fun _ _ _ => rfl, fun _ _ => rfl⟩

theorem writes_lt_publish (surface : Surface) (text : String) :
    surface.writes < (surface.publish text).writes := by
  obtain ⟨told, asked, before, after⟩ := steady_writes.around_store surface text
  exact Nat.lt_of_le_of_lt before (Nat.lt_of_lt_of_le (Nat.lt_succ_self _) after)

theorem writes_lt_register (surface : Surface) (entry : Entry) :
    surface.writes < (surface.register entry).writes :=
  writes_lt_publish (surface.placed entry) _

end Surface

end Caption
