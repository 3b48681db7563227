import Caption.Registry.Surface

/-!
Attachments: an entry that is registered when it is attached, follows its attachment's changes, and
is unregistered when it is detached.
-/
namespace Caption

/-- What a mounted part of an interface holds: its own copy of its entry. -/
structure Attachment where
  entry : Entry
deriving DecidableEq

namespace Surface

/-- Attach an entry below a parent, under a fresh id. -/
def attachBelow (surface : Surface) (parentId content : Option String) : Attachment × Surface :=
  let (id, named) := surface.freshId
  let entry : Entry := ⟨id, parentId, content⟩
  (⟨entry⟩, named.register entry)

def attach (surface : Surface) (content : Option String) : Attachment × Surface :=
  surface.attachBelow none content

def attachChild (surface : Surface) (parent : Attachment) (content : Option String) :
    Attachment × Surface :=
  surface.attachBelow (some parent.entry.id) content

/-- Change the content of an attachment. Unchanged content is not published again, and the answer
says whether it was. -/
def setContent (surface : Surface) (attachment : Attachment) (content : Option String) :
    Bool × Attachment × Surface :=
  if attachment.entry.content = content then (false, attachment, surface)
  else
    let entry := { attachment.entry with content := content }
    (true, ⟨entry⟩, surface.register entry)

/-- Register an attachment again under a fresh id. -/
def reattach (surface : Surface) (attachment : Attachment) : Attachment × Surface :=
  let (id, named) := surface.freshId
  let gone := named.unregister attachment.entry.id
  let entry := { attachment.entry with id := id }
  (⟨entry⟩, gone.register entry)

def detach (surface : Surface) (attachment : Attachment) : Surface :=
  surface.unregister attachment.entry.id

end Surface

end Caption
