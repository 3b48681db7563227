import Caption.Proofs.Json.Members
import Caption.Proofs.Registry.Publishing

/-!
A host that answers a publication before it has stored. What its answers publish is written over by
the listing that was rendered before them.
-/
namespace Caption

namespace Surface

variable {surface : Surface} {reaction : Reaction} {rest : List Reaction}

/-- If a host does nothing after its store, the state holds the listing that was there when the
publication began, whatever the host did in the meantime. -/
theorem stateText?_publish_of_silent (queue : surface.reactions = reaction :: rest)
    (silent : reaction.afterStore = []) (text : String) :
    (surface.publish text).stateText? surface.stateKey = some text := by
  rw [publish_of_cons queue, publishWith_eq, silent, List.foldl_nil]
  generalize entered : ({ surface with reactions := rest } : Surface) = inner
  have asked : (reaction.beforeRead.foldl Surface.mutate inner).stateKey = surface.stateKey := by
    rw [steady_stateKey.foldl (fun later mutation _ => steady_stateKey.mutate later mutation)]
    exact entered ▸ rfl
  rw [stored, stateText?, Members.ofState, asked, Members.get?_set, if_pos rfl]
  rfl

/-- The listing with which an entry was registered outlives all answers that come before it is
stored, even one that takes the entry out again. -/
theorem stateText?_register_of_silent (queue : surface.reactions = reaction :: rest)
    (silent : reaction.afterStore = []) (entry : Entry) :
    (surface.register entry).stateText? surface.stateKey =
      some (surface.placed entry).description := by
  have waiting : (surface.placed entry).reactions = reaction :: rest := queue
  exact stateText?_publish_of_silent waiting silent (surface.placed entry).description

/-- A host that takes an entry out again before it stores. -/
def hasty : Surface := { reactions := [{ beforeStore := [.unregister "home"] }] }

/-- An entry that such a host has taken out again stays in its state. -/
theorem register_hasty_leaves_stale_listing :
    (hasty.register ⟨"home", none, some "Home"⟩).stateText? hasty.stateKey = some "- Home" ∧
      (hasty.register ⟨"home", none, some "Home"⟩).description = "" := by
  have before : (hasty.placed ⟨"home", none, some "Home"⟩).tree.entries =
      [⟨"home", none, some "Home"⟩] := rfl
  have after : (hasty.register ⟨"home", none, some "Home"⟩).tree.entries = [] := rfl
  constructor
  · rw [stateText?_register_of_silent rfl rfl, description, EntryTree.render, before]
    simp [Listing.render, Listing.lines, Listing.visits, Listing.groups, Listing.walk,
      Listing.atDepth]
    decide
  · rw [description, EntryTree.render, after]
    simp [Listing.render, Listing.lines, Listing.visits, Listing.groups, Listing.walk,
      Listing.atDepth]

end Surface

end Caption
