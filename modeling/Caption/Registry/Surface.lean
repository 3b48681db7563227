import Caption.Json.Basic
import Caption.Registry.Listing

/-!
A surface: a registry of entries and the host state into which it publishes their listing. Every
change of the registry is published at once, by reading the state, setting one key and storing the
state. The host may answer an access with further changes, which are published in turn.
-/
namespace Caption

inductive Mutation where
  | register (entry : Entry)
  | unregister (id : String)
  /-- A root entry under a fresh id that goes again at once. -/
  | toast (content : Option String)
deriving DecidableEq

/-- What a host does during one publication, around its read and its store. -/
structure Reaction where
  beforeRead : List Mutation := []
  afterRead : List Mutation := []
  beforeStore : List Mutation := []
  afterStore : List Mutation := []
deriving DecidableEq

/-- A registry and its host. -/
structure Surface where
  tree : EntryTree := EntryTree.empty
  /-- The number of the next fresh id. -/
  counter : UInt64 := 0
  /-- The key of the host state under which the listing is published. -/
  stateKey : String := "__widget_context"
  state : Json := .null
  /-- How often the state was stored. -/
  writes : Nat := 0
  /-- The host's reactions to the publications to come. -/
  reactions : List Reaction := []
  /-- The trees that stood when the state was stored. -/
  seen : List EntryTree := []

/-- A counter as twenty digits behind a letter, so that ids sort as their counters do. -/
def idOfCounter (counter : UInt64) : String :=
  let digits := Nat.toDigits 10 counter.toNat
  String.ofList ('d' :: (List.replicate (20 - digits.length) '0' ++ digits))

/-- The members of a host state; one that is no object has none. -/
def Members.ofState : Json → Members
  | .object members => members
  | _ => []

namespace Surface

def freshId (surface : Surface) : String × Surface :=
  (idOfCounter surface.counter, { surface with counter := surface.counter + 1 })

/-- The listing of the entries. -/
def description (surface : Surface) : String := surface.tree.render

/-- Change the registry, given how a listing is published. -/
def mutateWith (publish : String → Surface → Surface) (surface : Surface) :
    Mutation → Surface
  | .register entry =>
    let changed := { surface with tree := surface.tree.insert entry }
    publish changed.description changed
  | .unregister id =>
    let changed := { surface with tree := surface.tree.erase id }
    publish changed.description changed
  | .toast content =>
    let (id, named) := surface.freshId
    let shown := { named with tree := named.tree.insert ⟨id, none, content⟩ }
    let published := publish shown.description shown
    let hidden := { published with tree := published.tree.erase id }
    publish hidden.description hidden

/-- One publication of a listing, with the changes that the host makes on the way. -/
def publishWith (mutate : Surface → Mutation → Surface) (reaction : Reaction) (text : String)
    (surface : Surface) : Surface :=
  let asked := reaction.beforeRead.foldl mutate surface
  let merged := (Members.ofState asked.state).set asked.stateKey (.string text)
  let told := (reaction.afterRead ++ reaction.beforeStore).foldl mutate asked
  let stored := { told with
    state := .object merged, writes := told.writes + 1, seen := told.seen ++ [told.tree] }
  reaction.afterStore.foldl mutate stored

/-- Publish a listing. Each publication uses up one reaction of the host, so that `depth`
publications can stand inside one another when so many reactions are left. -/
def publishWithin (depth : Nat) (text : String) (surface : Surface) : Surface :=
  match depth, surface.reactions with
  | depth + 1, reaction :: rest =>
    publishWith (mutateWith (publishWithin depth)) reaction text
      { surface with reactions := rest }
  | _, _ => publishWith (fun surface _ => surface) {} text surface

def publish (text : String) (surface : Surface) : Surface :=
  publishWithin surface.reactions.length text surface

/-- Change the registry and publish the listing. -/
def mutate (surface : Surface) (mutation : Mutation) : Surface :=
  mutateWith publish surface mutation

def register (surface : Surface) (entry : Entry) : Surface := surface.mutate (.register entry)

/-- Take an entry out. An unknown id is published like any other. -/
def unregister (surface : Surface) (id : String) : Surface := surface.mutate (.unregister id)

/-- The text under a key of the host state. -/
def stateText? (surface : Surface) (key : String) : Option String :=
  ((Members.ofState surface.state).get? key).bind Json.text?

end Surface

end Caption
