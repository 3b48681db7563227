import Caption.Registry.Entry

/-! Changes of a tree of entries, which answer with the entry whose place they take. -/
namespace Caption

namespace EntryTree

inductive Change where
  /-- Start again from entries. -/
  | collect (entries : List Entry)
  | insert (entry : Entry)
  | remove (id : String)
deriving DecidableEq, Repr

/-- Make a change; the answer is the entry that an insertion replaces or a removal takes out. -/
def change (tree : EntryTree) : Change → Option Entry × EntryTree
  | .collect entries => (none, ofList entries)
  | .insert entry => (tree.get? entry.id, tree.insert entry)
  | .remove id => (tree.get? id, tree.erase id)

def changeAll (tree : EntryTree) (changes : List Change) : EntryTree :=
  changes.foldl (fun current next => (current.change next).2) tree

end EntryTree

end Caption
