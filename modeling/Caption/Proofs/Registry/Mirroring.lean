import Caption.Proofs.Registry.Holding

/-!
What a registry lists after a run: the entries that stand by hand, and one for each attachment that
is still alive.
-/
namespace Caption

namespace Session

variable {session : Session} {handle : String}

/-- Over steps that make no new attachment under a handle, the parent stays. -/
theorem parentId_run {steps : List Step} (old : ∀ step ∈ steps, ¬step.Attaches handle)
    {first last : Attachment} (before : session.attachment? handle = some first)
    (after : (session.run steps).attachment? handle = some last) :
    last.entry.parentId = first.entry.parentId := by
  have kept : ∃ earlier, session.attachment? handle = some earlier ∧
      last.entry.parentId = earlier.entry.parentId := by
    clear before
    induction steps generalizing session with
    | nil => exact ⟨last, after, rfl⟩
    | cons step later ih =>
      obtain ⟨settled, others⟩ := List.forall_mem_cons.mp old
      obtain ⟨middle, present, same⟩ := ih others after
      obtain ⟨earlier, stood, again⟩ := attachment?_step settled present
      exact ⟨earlier, stood, same.trans again⟩
  obtain ⟨earlier, stood, same⟩ := kept
  rw [before] at stood
  rw [same, Option.some.inj stood]

/-- The end of a session detaches what is left, one attachment after the other. -/
theorem finish_eq_run (handles : Keyed.Sorted Prod.fst session.live) :
    session.finish = session.run (session.live.map fun held => .detach held.1) := by
  obtain ⟨surface, live⟩ := session
  induction live generalizing surface with
  | nil => rfl
  | cons held rest ih =>
    obtain ⟨above, tail⟩ := List.pairwise_cons.mp handles
    have absent : Keyed.get? Prod.fst held.1 rest = none :=
      Keyed.get?_eq_none.mpr fun other member => Ne.symm (Text.ne_of_before (above other member))
    have lookup : attachment? ⟨surface, held :: rest⟩ held.1 = some held.2 := by
      simp [attachment?, Keyed.get?]
    have detached : (step ⟨surface, held :: rest⟩ (.detach held.1)).2 =
        ⟨surface.detach held.2, rest⟩ := by
      have kept : Keyed.remove Prod.fst held.1 (held :: rest) = rest := by
        rw [Keyed.remove, List.filter_cons_of_neg (by simp), ← Keyed.remove,
          Keyed.remove_eq_self absent]
      simp only [step, lookup, kept]
    rw [List.map_cons, run_cons, detached, ← ih (surface.detach held.2) tail]
    rfl

/-- After every run the tree holds what stands by hand, one entry for each live attachment, equal to
that attachment's own, and nothing else. No two attachments share an id, an attachment keeps its
parent, and its content is registered and published again when it changes and only then. -/
theorem run_mirrors_attachments (stateKey : String) (state : Json) (reactions : List Reaction)
    (steps : List Step)
    (room : Event.taken ((opened stateKey state reactions).history steps) < 2 ^ 64)
    (clear : Event.Clear (Event.taken ((opened stateKey state reactions).history steps))
      ((opened stateKey state reactions).history steps)) :
    let past := (opened stateKey state reactions).history steps
    let session := (opened stateKey state reactions).run steps
    session.surface.tree.entries.Perm
        ((EntryTree.byHand past).entries ++ session.live.map fun held => held.2.entry) ∧
      (∀ entry, entry ∈ (EntryTree.byHand past).entries ↔
        ∃ before after, past = before ++ .register entry :: after ∧
          ∀ event ∈ after, ¬event.Touches entry.id) ∧
      (session.live.map fun held => held.2.entry.id).Nodup ∧
      (session.live = [] → session.surface.tree = EntryTree.byHand past) ∧
      (∀ handle first, session.attachment? handle = some first →
        ∀ more, (∀ step ∈ more, ¬step.Attaches handle) →
          ∀ last, (session.run more).attachment? handle = some last →
            last.entry.parentId = first.entry.parentId) ∧
      ∀ handle attachment content, session.attachment? handle = some attachment →
        if attachment.entry.content = content then
          session.step (.setContent handle content) = (.flag false, session)
        else
          ∃ next, session.step (.setContent handle content) = (.flag true, next) ∧
            session.surface.writes < next.surface.writes ∧
            next.attachment? handle = some ⟨{ attachment.entry with content := content }⟩ := by
  intro past session
  have allowed : Event.Allowed (Event.taken past) ([] ++ past) := ⟨room, Nat.le_refl _, clear⟩
  obtain ⟨handles, tracks⟩ := (follows_opened stateKey state reactions).run steps allowed
  refine ⟨tracks.entries_perm allowed, fun entry => EntryTree.mem_byHand, ?_, ?_, ?_, ?_⟩
  · simpa [owned, Function.comp_def] using tracks.distinct
  · intro dropped
    refine EntryTree.ext_get? fun id => tracks.others id ?_
    have ownedNone : session.owned = [] := by rw [owned, dropped, List.map_nil]
    rw [ownedNone]
    exact fun entry member => absurd member List.not_mem_nil
  · intro handle first before more old last after
    exact parentId_run old before after
  · intro handle attachment content lookup
    by_cases same : attachment.entry.content = content
    · rw [if_pos same]
      exact step_setContent_same handles lookup same
    · rw [if_neg same]
      refine ⟨_, step_setContent_changed lookup same, Surface.writes_lt_register _ _, ?_⟩
      rw [attachment?_hold, if_pos rfl]

/-- A host that registers an entry by hand during one publication and shows a toast in the next. -/
def answering : List Reaction :=
  [{ afterStore := [.register ⟨"m", none, some "by hand"⟩] },
    { afterStore := [.toast (some "hello")] }]

/-- A panel with a card in it, of which the card changes and the panel is attached again. -/
def mounting : List Step :=
  [.attach "a" (some "panel"), .attachChild "b" "a" none, .setContent "b" (some "card"),
    .reattach "a"]

theorem clear_mounting :
    Event.Clear (Event.taken ((opened "key" .null answering).history mounting))
      ((opened "key" .null answering).history mounting) :=
  Event.clear_of_foreign _ (by decide)

theorem run_mounting_mirrors_attachments :
    Event.taken ((opened "key" .null answering).history mounting) < 2 ^ 64 ∧
      Event.Clear (Event.taken ((opened "key" .null answering).history mounting))
        ((opened "key" .null answering).history mounting) ∧
      ((opened "key" .null answering).run mounting).surface.tree.entries.Perm
        [⟨"m", none, some "by hand"⟩, ⟨idOfCounter 3, none, some "panel"⟩,
          ⟨idOfCounter 2, some (idOfCounter 0), some "card"⟩] := by
  have room : Event.taken ((opened "key" .null answering).history mounting) < 2 ^ 64 := by decide
  obtain ⟨mirrored, _⟩ := run_mirrors_attachments "key" .null answering mounting room clear_mounting
  have standing : (EntryTree.byHand ((opened "key" .null answering).history mounting)).entries =
      [⟨"m", none, some "by hand"⟩] := by decide
  have live : (((opened "key" .null answering).run mounting).live.map fun held => held.2.entry) =
      [⟨idOfCounter 3, none, some "panel"⟩, ⟨idOfCounter 2, some (idOfCounter 0), some "card"⟩] := by
    decide
  rw [standing, live] at mirrored
  exact ⟨room, clear_mounting, mirrored⟩

end Session

end Caption
