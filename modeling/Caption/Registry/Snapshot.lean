import Caption.Json.Reader
import Caption.Registry.Entry

/-!
Reading snapshots: a JSON array of entries, each an object or the list of its values. The value of
an unknown member may be any well-formed one, whatever its numbers, surrogates and depth.
-/
namespace Caption

/-- The members of an entry that were read so far. -/
structure Draft where
  id : Option String := none
  parentId : Option (Option String) := none
  content : Option (Option String) := none

namespace Draft

def entry? (draft : Draft) : Option Entry :=
  draft.id.map fun id => ⟨id, draft.parentId.join, draft.content.join⟩

end Draft

namespace Snapshot

def text? : Written → Option String
  | .string pieces => Piece.string? pieces
  | _ => none

/-- A string or null. -/
def optionalText? : Written → Option (Option String)
  | .null => some none
  | .string pieces => (Piece.string? pieces).map some
  | _ => none

/-- Take one member, which may not come twice if it is a known one. -/
def takeMember (draft : Draft) (member : List Piece × Written) : Option Draft := do
  let key ← Piece.string? member.1
  if key = "id" then
    if draft.id.isSome then none
    else
      let id ← text? member.2
      pure { draft with id := some id }
  else if key = "parentId" then
    if draft.parentId.isSome then none
    else
      let parentId ← optionalText? member.2
      pure { draft with parentId := some parentId }
  else if key = "content" then
    if draft.content.isSome then none
    else
      let content ← optionalText? member.2
      pure { draft with content := some content }
  else pure draft

def entry? : Written → Option Entry
  | .object members => do
    let draft ← members.foldlM takeMember {}
    draft.entry?
  | .array [id] => (text? id).map fun id => ⟨id, none, none⟩
  | .array [id, parentId] => do
    let id ← text? id
    let parentId ← optionalText? parentId
    pure ⟨id, parentId, none⟩
  | .array [id, parentId, content] => do
    let id ← text? id
    let parentId ← optionalText? parentId
    let content ← optionalText? content
    pure ⟨id, parentId, content⟩
  | _ => none

/-- Read the entries of a snapshot, in their order. -/
def read? (source : String) : Option (List Entry) := do
  let tree ← Written.read? source
  match tree with
  | .array items => items.mapM entry?
  | _ => none

/-- The wording of the error for a text that is no snapshot. -/
def invalid : String := "invalid node snapshot: the text is not an array of nodes"

end Snapshot

end Caption
