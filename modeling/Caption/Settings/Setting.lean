import Caption.Order
import Caption.Settings.Path

/-!
Settings from several layers: later layers go over earlier ones key by key. A scalar is text,
whatever type it was written in, and keys do not depend on case.
-/
namespace Caption

inductive Setting where
  | null
  | text (value : String)
  | list (items : List Setting)
  | table (entries : List (String × Setting))
deriving Inhabited

namespace Setting

/-- A character of a key as it is stored. Beyond the capital letters only the Kelvin sign has a
small letter that a plain key may hold. -/
def foldCharacter (character : Char) : Char :=
  if character = '\u212a' then 'k' else character.toLower

/-- A key as it is stored. -/
def fold (key : String) : String := String.ofList (key.toList.map foldCharacter)

/-- The entries of a table; other settings have none. -/
def entries : Setting → List (String × Setting)
  | .table entries => entries
  | _ => []

def get? (setting : Setting) (key : String) : Option Setting :=
  (Keyed.get? Prod.fst (fold key) setting.entries).map Prod.snd

mutual

/-- Lay a setting over what stands in its place, if anything does. A table goes into it key by key,
so that an empty one leaves it as it is; anything else takes its place. -/
def layOver (current : Option Setting) : Setting → Setting
  | .table incoming =>
    if incoming.isEmpty then current.getD (.table [])
    else .table (layOverEntries (current.elim [] entries) incoming)
  | .null => .null
  | .text value => .text value
  | .list items => .list items

/-- Lay entries over the entries of a table. -/
def layOverEntries (below : List (String × Setting)) :
    List (String × Setting) → List (String × Setting)
  | [] => below
  | (key, value) :: rest =>
    let current := (Keyed.get? Prod.fst (fold key) below).map Prod.snd
    layOverEntries (Keyed.put Prod.fst (fold key, layOver current value) below) rest

end

/-- The items of a list; other settings have none. -/
def items : Setting → List Setting
  | .list items => items
  | _ => []

/-- A list made long enough for a position, and the index of the position in it. A position past
the end lengthens the list at its end, and one before its start at its start. -/
def makeRoom (items : List Setting) (position : Int) : List Setting × Nat :=
  if 0 ≤ position then
    (items ++ List.replicate (position.toNat + 1 - items.length) .null, position.toNat)
  else
    (List.replicate (position.natAbs - items.length) .null ++ items, items.length - position.natAbs)

/-- Lay a setting over what stands at a path, making tables and lists on the way. An item of a list
is replaced as a whole. -/
def setAt (current : Option Setting) : List PathStep → Setting → Setting
  | [], value => layOver current value
  | .name key :: rest, value =>
    let entries := current.elim [] entries
    let inner := (Keyed.get? Prod.fst (fold key) entries).map Prod.snd
    .table (Keyed.put Prod.fst (fold key, setAt inner rest value) entries)
  | .position position :: rest, value =>
    let (items, index) := makeRoom (current.elim [] items) position
    .list (items.set index (if rest = [] then value else setAt items[index]? rest value))

/-- Lay a whole layer over settings. Its outermost keys may be paths. -/
def addLayer (below : Setting) (layer : List (String × Setting)) : Setting :=
  layer.foldl
    (fun current entry =>
      setAt (some current) ((PathStep.read? entry.1).getD [.name entry.1]) entry.2)
    below

end Setting

end Caption
