import Caption.Registry.Entry

/-!
Paths of entries. A path lists the ids from a root down to an entry; paths are compared id by id, and
two paths of which none begins the other part at some id.
-/
namespace Caption

/-- Entries that their ids tell apart. -/
def Entry.Distinct (entries : List Entry) : Prop :=
  ∀ left ∈ entries, ∀ right ∈ entries, left.id = right.id → left = right

theorem Entry.distinct_of_nodup {entries : List Entry} (nodup : (entries.map Entry.id).Nodup) :
    Entry.Distinct entries := by
  induction entries with
  | nil => exact fun left member => absurd member (by simp)
  | cons head rest ih =>
    rw [List.map_cons, List.nodup_cons] at nodup
    have fresh : ∀ entry ∈ rest, entry.id ≠ head.id := by
      intro entry member same
      exact nodup.1 (List.mem_map.mpr ⟨entry, member, same⟩)
    intro left leftMember right rightMember same
    rcases List.mem_cons.mp leftMember with rfl | leftLater
    · rcases List.mem_cons.mp rightMember with rfl | rightLater
      · rfl
      · exact absurd same.symm (fresh right rightLater)
    · rcases List.mem_cons.mp rightMember with rfl | rightLater
      · exact absurd same (fresh left leftLater)
      · exact ih nodup.2 left leftLater right rightLater same

namespace Listing

/-- The ids from a root down to an entry, each entry on the way being the parent of the next. -/
inductive RootPath (entries : List Entry) : List String → Entry → Prop where
  | root {entry : Entry} (member : entry ∈ entries) (top : entry.parentId = none) :
      RootPath entries [entry.id] entry
  | beneath {path : List String} {parent entry : Entry} (earlier : RootPath entries path parent)
      (member : entry ∈ entries) (under : entry.parentId = some parent.id) :
      RootPath entries (path ++ [entry.id]) entry

namespace RootPath

variable {entries : List Entry} {path other : List String} {entry next : Entry}

theorem mem (reached : RootPath entries path entry) : entry ∈ entries := by
  cases reached <;> assumption

theorem getLast? (reached : RootPath entries path entry) : path.getLast? = some entry.id := by
  cases reached <;> simp

theorem ne_nil (reached : RootPath entries path entry) : path ≠ [] := by
  cases reached <;> simp

theorem mono {more : List Entry} (kept : ∀ item ∈ entries, item ∈ more)
    (reached : RootPath entries path entry) : RootPath more path entry := by
  induction reached with
  | root member top => exact .root (kept _ member) top
  | beneath earlier member under ih => exact .beneath ih (kept _ member) under

theorem entry_unique (distinct : Entry.Distinct entries) (reached : RootPath entries path entry)
    (again : RootPath entries path next) : entry = next := by
  apply distinct entry reached.mem next again.mem
  exact Option.some.inj (reached.getLast?.symm.trans again.getLast?)

theorem path_unique (distinct : Entry.Distinct entries) (reached : RootPath entries path entry)
    (again : RootPath entries other entry) : path = other := by
  induction reached generalizing other with
  | root member top =>
    cases again with
    | root _ _ => rfl
    | beneath _ _ under => rw [top] at under; cases under
  | @beneath path parent entry earlier member under ih =>
    cases again with
    | root _ top => rw [top] at under; cases under
    | @beneath path second _ before _ beneath =>
      have sameId : parent.id = second.id := Option.some.inj (under.symm.trans beneath)
      obtain rfl := distinct parent earlier.mem second before.mem sameId
      rw [ih before]

/-- Entries of which none stands at the root, and which have only each other as parents, have no
path. -/
theorem not_of_closed {lost : Entry → Prop}
    (closed : ∀ entry ∈ entries, lost entry →
      ∃ id, entry.parentId = some id ∧ ∀ parent ∈ entries, parent.id = id → lost parent)
    (reached : RootPath entries path entry) : ¬lost entry := by
  induction reached with
  | root member top =>
    intro astray
    obtain ⟨id, under, _⟩ := closed _ member astray
    rw [top] at under
    cases under
  | beneath earlier member under ih =>
    intro astray
    obtain ⟨id, named, above⟩ := closed _ member astray
    exact ih (above _ earlier.mem (Option.some.inj (under.symm.trans named)))

/-- A path begins with the id of an entry at the root. -/
theorem starts (reached : RootPath entries path entry) :
    ∃ top ∈ entries, top.parentId = none ∧ [top.id] <+: path := by
  induction reached with
  | root member top => exact ⟨_, member, top, List.prefix_refl _⟩
  | beneath earlier member under ih =>
    obtain ⟨top, stored, parentless, begins⟩ := ih
    exact ⟨top, stored, parentless, begins.trans (List.prefix_append _ _)⟩

/-- A path that goes on behind an entry goes on with one of the entries below it. -/
theorem child {id : String} {rest : List String} (distinct : Entry.Distinct entries)
    (reached : RootPath entries path entry)
    (longer : RootPath entries (path ++ id :: rest) next) :
    ∃ under ∈ entries, under.parentId = some entry.id ∧ under.id = id := by
  generalize whole : path ++ id :: rest = full at longer
  induction longer generalizing rest with
  | @root top member parentless =>
    have short : (path ++ id :: rest).length = 1 := by rw [whole]; rfl
    have nonempty := List.length_pos_iff.mpr reached.ne_nil
    simp only [List.length_append, List.length_cons] at short
    omega
  | @beneath before parent last earlier member under ih =>
    rcases List.eq_nil_or_concat rest with rfl | ⟨shorter, final, rfl⟩
    · obtain ⟨rfl, same⟩ := List.append_inj' whole rfl
      obtain rfl := reached.entry_unique distinct earlier
      exact ⟨last, member, under, (List.cons.inj same).1.symm⟩
    · have split : path ++ id :: shorter = before := by
        have parted : (path ++ id :: shorter) ++ [final] = before ++ [last.id] := by
          simpa using whole
        exact (List.append_inj' parted rfl).1
      exact ih split

end RootPath

/-- The path of the entry that a parent id names, and no ids where there is no parent. -/
inductive ParentPath (entries : List Entry) : Option String → List String → Prop where
  | none : ParentPath entries none []
  | some {path : List String} {parent : Entry} (reached : RootPath entries path parent) :
      ParentPath entries (some parent.id) path

/-- A path goes on behind that of the parent. -/
theorem ParentPath.rootPath {entries : List Entry} {shared : List String} {entry : Entry}
    (above : ParentPath entries entry.parentId shared) (stored : entry ∈ entries) :
    RootPath entries (shared ++ [entry.id]) entry := by
  generalize named : entry.parentId = parentId at above
  cases above with
  | none => exact .root stored named
  | some reached => exact .beneath reached stored named

theorem RootPath.parentPath {entries : List Entry} {path : List String} {entry : Entry}
    (reached : RootPath entries path entry) :
    ∃ shared, ParentPath entries entry.parentId shared := by
  cases reached with
  | root _ top => exact ⟨[], top ▸ .none⟩
  | @beneath shared parent _ earlier _ under =>
    rw [under]
    exact ⟨shared, .some earlier⟩

/-- The order of paths: at the first difference the ids decide, and a path comes before those that go
on behind it. -/
def PathBefore (left right : List String) : Prop :=
  List.Lex (fun first second => Text.before first second = true) left right

/-- Two paths that part at some place, the first one with the smaller id. -/
def PartsBefore (left right : List String) : Prop :=
  ∃ shared first second leftRest rightRest,
    left = shared ++ first :: leftRest ∧ right = shared ++ second :: rightRest ∧
      Text.before first second = true

theorem pathBefore_irrefl (path : List String) : ¬PathBefore path path :=
  List.lex_irrefl (fun id => by simp [Text.before_irrefl]) path

theorem pathBefore_asymm {left right : List String} (before : PathBefore left right) :
    ¬PathBefore right left :=
  List.lex_asymm (fun first => by simp [Text.not_before_of_before first]) before

theorem pathBefore_append (path : List String) (id : String) (rest : List String) :
    PathBefore path (path ++ id :: rest) := by
  induction path with
  | nil => exact List.Lex.nil
  | cons head tail ih => exact List.Lex.cons ih

/-- Their order leaves no choice of a list of items with different paths. -/
theorem eq_of_pathBefore {α : Type} {path : α → List String} {items others : List α}
    (ordered : items.Pairwise fun left right => PathBefore (path left) (path right))
    (again : others.Pairwise fun left right => PathBefore (path left) (path right))
    (same : ∀ item, item ∈ items ↔ item ∈ others) : items = others := by
  have apart : ∀ left right, PathBefore (path left) (path right) → left ≠ right := by
    rintro left right before rfl
    exact pathBefore_irrefl _ before
  have permuted : items.Perm others :=
    (List.perm_ext_iff_of_nodup (ordered.imp (apart _ _)) (again.imp (apart _ _))).mpr same
  refine permuted.eq_of_pairwise ?_ ordered again
  intro left right _ _ before after
  exact absurd after (pathBefore_asymm before)

namespace PartsBefore

variable {left right : List String}

theorem pathBefore (parts : PartsBefore left right) : PathBefore left right := by
  obtain ⟨shared, first, second, leftRest, rightRest, rfl, rfl, before⟩ := parts
  induction shared with
  | nil => exact List.Lex.rel before
  | cons head tail ih => exact List.Lex.cons ih

theorem append (parts : PartsBefore left right) (leftMore rightMore : List String) :
    PartsBefore (left ++ leftMore) (right ++ rightMore) := by
  obtain ⟨shared, first, second, leftRest, rightRest, rfl, rfl, before⟩ := parts
  exact ⟨shared, first, second, leftRest ++ leftMore, rightRest ++ rightMore, by simp, by simp,
    before⟩

theorem extend {longer further : List String} (parts : PartsBefore left right)
    (leftPrefix : left <+: longer) (rightPrefix : right <+: further) :
    PartsBefore longer further := by
  obtain ⟨leftMore, rfl⟩ := leftPrefix
  obtain ⟨rightMore, rfl⟩ := rightPrefix
  exact parts.append leftMore rightMore

end PartsBefore

theorem pathBefore_concat (shared : List String) {left right : String}
    (before : Text.before left right = true) :
    PathBefore (shared ++ [left]) (shared ++ [right]) :=
  PartsBefore.pathBefore ⟨shared, left, right, [], [], rfl, rfl, before⟩

end Listing

end Caption
