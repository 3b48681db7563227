import Caption.Registry.Debug

/-!
Sessions: a surface together with the attachments that are alive, each under a handle. A session
takes one step after the other; its end detaches what is left in the order of the handles.
-/
namespace Caption

/-- A surface and its live attachments by their handles. -/
structure Session where
  surface : Surface
  live : List (String × Attachment) := []

inductive Step where
  | register (entry : Entry)
  | unregister (id : String)
  | entries
  | description
  | freshId
  | stateKey
  | state
  | setState (state : Json)
  | stateText (key : String)
  | debug
  | attach (handle : String) (content : Option String)
  | attachChild (handle parent : String) (content : Option String)
  | setContent (handle : String) (content : Option String)
  | reattach (handle : String)
  | inspect (handle : String)
  | detach (handle : String)
  | debugHandle (handle : String)

inductive Answer where
  | done
  | noHandle
  | flag (value : Bool)
  | text (value : String)
  | textOrNone (value : Option String)
  | json (value : Json)
  | entries (entries : List Entry)
  | attachment (attachment : Attachment)

namespace Session

def attachment? (session : Session) (handle : String) : Option Attachment :=
  (Keyed.get? Prod.fst handle session.live).map Prod.snd

/-- Keep an attachment under a handle. -/
def hold (session : Session) (handle : String) (attachment : Attachment) : Session :=
  { session with live := Keyed.put Prod.fst (handle, attachment) session.live }

/-- Hold a new attachment under a handle, and then detach the one that the handle held. -/
def adopt (session : Session) (handle : String) (made : Attachment × Surface) :
    Answer × Session :=
  let surface :=
    match session.attachment? handle with
    | none => made.2
    | some previous => made.2.detach previous
  (.attachment made.1, { session with surface := surface }.hold handle made.1)

def step (session : Session) : Step → Answer × Session
  | .register entry => (.done, { session with surface := session.surface.register entry })
  | .unregister id => (.done, { session with surface := session.surface.unregister id })
  | .entries => (.entries session.surface.tree.entries, session)
  | .description => (.text session.surface.description, session)
  | .freshId =>
    let (id, surface) := session.surface.freshId
    (.text id, { session with surface := surface })
  | .stateKey => (.text session.surface.stateKey, session)
  | .state => (.json session.surface.state, session)
  | .setState state =>
    (.done, { session with surface := { session.surface with state := state } })
  | .stateText key => (.textOrNone (session.surface.stateText? key), session)
  | .debug => (.text (Debug.registry session.surface), session)
  | .attach handle content => session.adopt handle (session.surface.attach content)
  | .attachChild handle parent content =>
    match session.attachment? parent with
    | none => (.noHandle, session)
    | some above => session.adopt handle (session.surface.attachChild above content)
  | .setContent handle content =>
    match session.attachment? handle with
    | none => (.noHandle, session)
    | some attachment =>
      let (changed, updated, surface) := session.surface.setContent attachment content
      (.flag changed, { session with surface := surface }.hold handle updated)
  | .reattach handle =>
    match session.attachment? handle with
    | none => (.noHandle, session)
    | some attachment =>
      let (renamed, surface) := session.surface.reattach attachment
      (.attachment renamed, { session with surface := surface }.hold handle renamed)
  | .inspect handle =>
    match session.attachment? handle with
    | none => (.noHandle, session)
    | some attachment => (.attachment attachment, session)
  | .detach handle =>
    match session.attachment? handle with
    | none => (.noHandle, session)
    | some attachment =>
      (.done, ⟨session.surface.detach attachment, Keyed.remove Prod.fst handle session.live⟩)
  | .debugHandle handle =>
    match session.attachment? handle with
    | none => (.noHandle, session)
    | some attachment => (.text (Debug.attachment attachment), session)

/-- Detach what is left, in the order of the handles. -/
def finish (session : Session) : Session :=
  ⟨session.live.foldl (fun surface held => surface.detach held.2) session.surface, []⟩

end Session

end Caption
