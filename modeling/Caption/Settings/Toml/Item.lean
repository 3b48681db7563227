import Caption.Settings.Toml.Value

/-!
TOML tables under construction. Each table is made once: by a header of its own, by keys with dots,
or as a step on the way to a table below it.
-/
namespace Caption

namespace Toml

/-- A table under construction says which keys may still be added to it. -/
inductive Item where
  /-- A finished value. -/
  | value (value : Value)
  /-- A table that headers of tables below it made. -/
  | implied (entries : List (String × Item))
  /-- A table that keys with dots made. -/
  | dotted (entries : List (String × Item))
  /-- A table with a header of its own. -/
  | header (entries : List (String × Item))
  /-- An array of tables, of which the last one is open; listed backwards. -/
  | headers (tables : List (List (String × Item)))
deriving Inhabited

namespace Item

mutual

def toValue : Item → Value
  | .value finished => finished
  | .implied entries => .table (valuesOf entries)
  | .dotted entries => .table (valuesOf entries)
  | .header entries => .table (valuesOf entries)
  | .headers tables => .list (valuesOfAll tables).reverse

def valuesOf : List (String × Item) → List (String × Value)
  | [] => []
  | (key, item) :: rest => (key, item.toValue) :: valuesOf rest

def valuesOfAll : List (List (String × Item)) → List Value
  | [] => []
  | entries :: rest => .table (valuesOf entries) :: valuesOfAll rest

end

end Item

def lookup (key : String) (entries : List (String × Item)) : Option Item :=
  (entries.find? fun entry => entry.1 == key).map Prod.snd

/-- Replace or add the item of a key, keeping the order in which keys came. -/
def store (key : String) (item : Item) : List (String × Item) → List (String × Item)
  | [] => [(key, item)]
  | (name, other) :: rest =>
    if name = key then (name, item) :: rest else (name, other) :: store key item rest

/-- Add a value under a key with dots. Tables on the way are made by such keys or implied, or are the
open one of an array of tables, and the innermost one is made by such keys. -/
def addValue (entries : List (String × Item)) (value : Value) :
    List String → Option (List (String × Item))
  | [] => none
  | [key] =>
    match lookup key entries with
    | none => some (store key (.value value) entries)
    | some _ => none
  | key :: next :: rest =>
    match lookup key entries with
    | none => (addValue [] value (next :: rest)).map fun inner => store key (.dotted inner) entries
    | some (.dotted inner) =>
      (addValue inner value (next :: rest)).map fun inner => store key (.dotted inner) entries
    | some (.implied inner) =>
      if rest = [] then none
      else (addValue inner value (next :: rest)).map fun inner => store key (.implied inner) entries
    | some (.headers (last :: earlier)) =>
      if rest = [] then none
      else
        (addValue last value (next :: rest)).map fun last =>
          store key (.headers (last :: earlier)) entries
    | _ => none

/-- Change the table that a header opened, which stands at a path. -/
def inTable (change : List (String × Item) → Option (List (String × Item)))
    (entries : List (String × Item)) : List String → Option (List (String × Item))
  | [] => change entries
  | key :: rest =>
    match lookup key entries with
    | none => (inTable change [] rest).map fun inner => store key (.implied inner) entries
    | some (.implied inner) =>
      (inTable change inner rest).map fun inner => store key (.implied inner) entries
    | some (.dotted inner) =>
      (inTable change inner rest).map fun inner => store key (.dotted inner) entries
    | some (.header inner) =>
      (inTable change inner rest).map fun inner => store key (.header inner) entries
    | some (.headers (last :: earlier)) =>
      (inTable change last rest).map fun last => store key (.headers (last :: earlier)) entries
    | _ => none

/-- Open a table under a key; each table has one header. A table that was implied before moves to
the place of its header. -/
def openTable (key : String) (entries : List (String × Item)) : Option (List (String × Item)) :=
  match lookup key entries with
  | none => some (store key (.header []) entries)
  | some (.implied inner) =>
    some (entries.filter (fun entry => entry.1 != key) ++ [(key, .header inner)])
  | _ => none

/-- Open one more table of an array of tables. -/
def openElement (key : String) (entries : List (String × Item)) : Option (List (String × Item)) :=
  match lookup key entries with
  | none => some (store key (.headers [[]]) entries)
  | some (.headers tables) => some (store key (.headers ([] :: tables)) entries)
  | _ => none

end Toml

end Caption
