import Mathlib.Data.List.Basic
import Caption.Proofs.Registry.Walks

/-!
What a listing visits when ids may repeat. The walk is a loop over a stack: an id that is popped for
the first time puts the entries below it in front of the others, and later ones put nothing there. Each
entry at the root or below a popped id is popped once.
-/
namespace Caption

namespace Listing

/-- What a loop over a stack pops. The ids whose entries were put on the stack are noted, and an id
that is noted puts nothing there again. -/
inductive Pops (entries : List Entry) : List String → List (Entry × Nat) → List (Entry × Nat) → Prop
  | done (noted : List String) : Pops entries noted [] []
  | first {noted : List String} {entry : Entry} {depth : Nat} {rest later : List (Entry × Nat)}
    (fresh : entry.id ∉ noted)
    (next : Pops entries (entry.id :: noted)
      (atDepth (depth + 1) (siblings entries (some entry.id)) ++ rest) later) :
    Pops entries noted ((entry, depth) :: rest) ((entry, depth) :: later)
  | again {noted : List String} {entry : Entry} {depth : Nat} {rest later : List (Entry × Nat)}
    (known : entry.id ∈ noted) (next : Pops entries noted rest later) :
    Pops entries noted ((entry, depth) :: rest) ((entry, depth) :: later)

/-- The groups that remain are those of the ids that are not noted. -/
def Remains (entries : List Entry) (noted : List String) (remaining : Groups) : Prop :=
  ∀ id, remaining[some id]? = if id ∈ noted then none else (groups entries)[some id]?

section Walk

variable {entries : List Entry} {noted : List String} {remaining : Groups} {id : String}

theorem Remains.mem_iff (remains : Remains entries noted remaining) :
    some id ∈ remaining ↔ id ∉ noted ∧ siblings entries (some id) ≠ [] := by
  rw [← mem_groups, Std.HashMap.mem_iff_isSome_getElem?, remains id,
    Std.HashMap.mem_iff_isSome_getElem?]
  by_cases known : id ∈ noted <;> simp [known]

theorem Remains.getD (remains : Remains entries noted remaining) (fresh : id ∉ noted) :
    remaining.getD (some id) [] = siblings entries (some id) := by
  rw [← getD_groups, Std.HashMap.getD_eq_getD_getElem?, remains id, if_neg fresh,
    Std.HashMap.getD_eq_getD_getElem?]

theorem Remains.erase (remains : Remains entries noted remaining) (id : String) :
    Remains entries (id :: noted) (remaining.erase (some id)) := by
  intro other
  rw [Std.HashMap.getElem?_erase, remains other]
  by_cases same : id = other
  · simp [same]
  · simp [same, Ne.symm same]

/-- An id with nothing below it has no group to take out. -/
theorem Remains.note (remains : Remains entries noted remaining)
    (childless : siblings entries (some id) = []) : Remains entries (id :: noted) remaining := by
  intro other
  rw [remains other]
  by_cases same : id = other
  · subst other
    have absent : some id ∉ groups entries := fun present => (mem_groups _ _).mp present childless
    simp [Std.HashMap.getElem?_eq_none absent]
  · simp [Ne.symm same]

/-- A walk ends, and what it visits is what the loop pops. -/
theorem walk_pops (remains : Remains entries noted remaining) (pending done : List (Entry × Nat)) :
    ∃ popped, walk remaining pending done = done.reverse ++ popped ∧
      Pops entries noted pending popped := by
  induction remaining, pending, done using walk.induct generalizing noted with
  | case1 remaining done => exact ⟨[], by simp [walk], .done noted⟩
  | case2 remaining done entry depth rest present ih =>
    have fresh := (remains.mem_iff.mp present).1
    obtain ⟨popped, walked, pops⟩ := ih (remains.erase entry.id)
    rw [remains.getD fresh] at walked pops
    refine ⟨(entry, depth) :: popped, ?_, .first fresh pops⟩
    rw [walk, if_pos present, remains.getD fresh, walked]
    simp
  | case3 remaining done entry depth rest absent ih =>
    by_cases known : entry.id ∈ noted
    · obtain ⟨popped, walked, pops⟩ := ih remains
      refine ⟨(entry, depth) :: popped, ?_, .again known pops⟩
      rw [walk, if_neg absent, walked]
      simp
    · have childless : siblings entries (some entry.id) = [] := by
        simpa [remains.mem_iff, known] using absent
      obtain ⟨popped, walked, pops⟩ := ih (remains.note childless)
      refine ⟨(entry, depth) :: popped, ?_, .first known ?_⟩
      · rw [walk, if_neg absent, walked]
        simp
      · rw [childless]
        exact pops

end Walk

/-- Whether an entry stands at the root or below an id that was popped. -/
def Entered (popped : List (Entry × Nat)) (entry : Entry) : Prop :=
  entry.parentId = none ∨ ∃ visit ∈ popped, entry.parentId = some visit.1.id

instance (popped : List (Entry × Nat)) : DecidablePred (Entered popped) := fun entry =>
  inferInstanceAs (Decidable (entry.parentId = none ∨ ∃ visit ∈ popped,
    entry.parentId = some visit.1.id))

/-- Whether an entry stands below an id that was popped after some were noted. -/
def Uncovered (noted : List String) (popped : List (Entry × Nat)) (entry : Entry) : Prop :=
  ∃ visit ∈ popped, visit.1.id ∉ noted ∧ entry.parentId = some visit.1.id

instance (noted : List String) (popped : List (Entry × Nat)) :
    DecidablePred (Uncovered noted popped) := fun entry =>
  inferInstanceAs (Decidable (∃ visit ∈ popped, visit.1.id ∉ noted ∧
    entry.parentId = some visit.1.id))

/-- Whether a visit has the depth that belongs to it: none at the root, and otherwise one more than
the first visit under the id of its parent. -/
def Placed (popped : List (Entry × Nat)) (visit : Entry × Nat) : Prop :=
  match visit.1.parentId with
  | none => visit.2 = 0
  | some id => ∃ above, popped.find? (fun earlier => earlier.1.id = id) = some above ∧
      visit.2 = above.2 + 1

/-- Entries of one of two kinds that exclude each other. -/
theorem filter_perm_of_parts {whole first second : Entry → Prop} [DecidablePred whole]
    [DecidablePred first] [DecidablePred second]
    (parts : ∀ entry, whole entry ↔ first entry ∨ second entry)
    (apart : ∀ entry, second entry → ¬first entry) (entries : List Entry) :
    (entries.filter whole).Perm (entries.filter first ++ entries.filter second) := by
  have split := List.filter_append_perm (fun entry => decide (first entry)) (entries.filter whole)
  rw [List.filter_filter, List.filter_filter] at split
  refine split.symm.trans (List.Perm.of_eq (congrArg₂ _ ?_ ?_))
  · refine List.filter_congr fun entry _ => ?_
    by_cases own : first entry <;> simp [own, parts]
  · refine List.filter_congr fun entry _ => ?_
    by_cases other : second entry
    · simp [other, apart entry other, parts]
    · by_cases own : first entry <;> simp [own, other, parts]

section Uncovered

variable {noted : List String} {later : List (Entry × Nat)} {visit : Entry × Nat} {other : Entry}

theorem uncovered_of_known (known : visit.1.id ∈ noted) :
    Uncovered noted (visit :: later) other ↔ Uncovered noted later other := by
  constructor
  · rintro ⟨next, member, fresh, under⟩
    rcases List.mem_cons.mp member with rfl | further
    · exact absurd known fresh
    · exact ⟨next, further, fresh, under⟩
  · rintro ⟨next, member, fresh, under⟩
    exact ⟨next, List.mem_cons_of_mem _ member, fresh, under⟩

theorem uncovered_of_fresh (fresh : visit.1.id ∉ noted) :
    Uncovered noted (visit :: later) other ↔
      other.parentId = some visit.1.id ∨ Uncovered (visit.1.id :: noted) later other := by
  constructor
  · rintro ⟨next, member, apart, under⟩
    by_cases same : next.1.id = visit.1.id
    · exact Or.inl (same ▸ under)
    · rcases List.mem_cons.mp member with rfl | further
      · exact absurd rfl same
      · exact Or.inr ⟨next, further, by simp [same, apart], under⟩
  · rintro (under | ⟨next, member, apart, under⟩)
    · exact ⟨visit, List.mem_cons_self, fresh, under⟩
    · exact ⟨next, List.mem_cons_of_mem _ member,
        fun known => apart (List.mem_cons_of_mem _ known), under⟩

theorem Uncovered.parentId_ne {id : String} (uncovered : Uncovered (id :: noted) later other) :
    other.parentId ≠ some id := by
  obtain ⟨next, _, apart, under⟩ := uncovered
  intro same
  rw [under] at same
  exact apart (Option.some.inj same ▸ List.mem_cons_self)

/-- The entries below an id that comes up are those of the id itself and those of the ids that come
up later. -/
theorem filter_uncovered_perm (visit : Entry × Nat) (entries : List Entry)
    (fresh : visit.1.id ∉ noted) :
    (entries.filter (Uncovered noted (visit :: later))).Perm
      (siblings entries (some visit.1.id) ++
        entries.filter (Uncovered (visit.1.id :: noted) later)) :=
  filter_perm_of_parts (fun _ => uncovered_of_fresh fresh) (fun _ => Uncovered.parentId_ne) entries

end Uncovered

variable {past : List (Entry × Nat)} {visit : Entry × Nat}

theorem Placed.append (placed : Placed past visit) (more : List (Entry × Nat)) :
    Placed (past ++ more) visit := by
  unfold Placed at placed ⊢
  split
  · simp_all
  · rename_i id under
    rw [under] at placed
    obtain ⟨above, found, depth⟩ := placed
    exact ⟨above, by rw [List.find?_append, found, Option.some_or], depth⟩

theorem placed_concat (stood : ∀ earlier ∈ past, Placed past earlier) (own : Placed past visit) :
    ∀ earlier ∈ past ++ [visit], Placed (past ++ [visit]) earlier := by
  intro earlier member
  rcases List.mem_append.mp member with old | last
  · exact (stood earlier old).append _
  · obtain rfl := List.mem_singleton.mp last
    exact own.append _

namespace Pops

variable {entries : List Entry} {noted : List String} {pending popped : List (Entry × Nat)}

/-- What was waiting is popped, and once each whatever stands below an id that comes up. -/
theorem perm (pops : Pops entries noted pending popped) :
    (popped.map Prod.fst).Perm
      (pending.map Prod.fst ++ entries.filter (Uncovered noted popped)) := by
  induction pops with
  | done noted => simp [Uncovered]
  | @again noted entry depth rest later known next ih =>
    have same : entries.filter (Uncovered noted ((entry, depth) :: later)) =
        entries.filter (Uncovered noted later) := by
      refine List.filter_congr fun other _ => decide_eq_decide.mpr ?_
      exact uncovered_of_known known
    rw [same]
    exact ih.cons entry
  | @first noted entry depth rest later fresh next ih =>
    have below : (atDepth (depth + 1) (siblings entries (some entry.id))).map Prod.fst =
        siblings entries (some entry.id) := by simp [atDepth, Function.comp_def]
    rw [List.map_append, below, List.append_assoc] at ih
    refine (ih.trans ?_).cons entry
    refine List.perm_append_comm_assoc _ _ _ |>.trans ?_
    exact (filter_uncovered_perm (entry, depth) entries fresh).symm.append_left _

/-- The first visit under an id puts the entries below the id one level under itself, and no later
one puts any there. -/
theorem placed (pops : Pops entries noted pending popped) {past : List (Entry × Nat)}
    (noting : ∀ id, id ∈ noted ↔ ∃ visit ∈ past, visit.1.id = id)
    (stood : ∀ visit ∈ past, Placed past visit) (waiting : ∀ visit ∈ pending, Placed past visit) :
    ∀ visit ∈ past ++ popped, Placed (past ++ popped) visit := by
  induction pops generalizing past with
  | done noted => simpa using stood
  | @again noted entry depth rest later known next ih =>
    obtain ⟨own, others⟩ := List.forall_mem_cons.mp waiting
    rw [List.append_cons]
    refine ih (fun id => ?_) (placed_concat stood own) fun visit member =>
      (others visit member).append _
    rw [noting]
    constructor
    · rintro ⟨visit, member, same⟩
      exact ⟨visit, List.mem_append_left _ member, same⟩
    · rintro ⟨visit, member, rfl⟩
      rcases List.mem_append.mp member with earlier | last
      · exact ⟨visit, earlier, rfl⟩
      · obtain rfl := List.mem_singleton.mp last
        exact (noting entry.id).mp known
  | @first noted entry depth rest later fresh next ih =>
    obtain ⟨own, others⟩ := List.forall_mem_cons.mp waiting
    have unseen : past.find? (fun earlier => earlier.1.id = entry.id) = none := by
      refine List.find?_eq_none.mpr fun visit member same => ?_
      exact fresh ((noting entry.id).mpr ⟨visit, member, by simpa using same⟩)
    rw [List.append_cons]
    refine ih (fun id => ?_) (placed_concat stood own) fun visit member => ?_
    · rw [List.mem_cons, noting]
      simp [or_and_right, exists_or, eq_comm, or_comm]
    · rcases List.mem_append.mp member with new | old
      · obtain ⟨child, sibling, rfl⟩ := List.mem_map.mp new
        have under := (mem_siblings.mp sibling).2
        rw [Placed, under]
        exact ⟨(entry, depth), by simp [List.find?_append, unseen], rfl⟩
      · exact (others visit old).append _

/-- Whatever is popped is reached from the root, if what was waiting is. -/
theorem reached (pops : Pops entries noted pending popped)
    (waiting : ∀ visit ∈ pending, ∃ path, RootPath entries path visit.1) :
    ∀ visit ∈ popped, ∃ path, RootPath entries path visit.1 := by
  induction pops with
  | done noted => simp
  | @again noted entry depth rest later known next ih =>
    obtain ⟨own, others⟩ := List.forall_mem_cons.mp waiting
    exact List.forall_mem_cons.mpr ⟨own, ih others⟩
  | @first noted entry depth rest later fresh next ih =>
    obtain ⟨⟨path, reached⟩, others⟩ := List.forall_mem_cons.mp waiting
    refine List.forall_mem_cons.mpr ⟨⟨path, reached⟩, ih fun visit member => ?_⟩
    rcases List.mem_append.mp member with new | old
    · obtain ⟨child, sibling, rfl⟩ := List.mem_map.mp new
      obtain ⟨stored, under⟩ := mem_siblings.mp sibling
      exact ⟨_, .beneath reached stored under⟩
    · exact others visit old

end Pops

theorem entered_iff {popped : List (Entry × Nat)} {entry : Entry} :
    Entered popped entry ↔ entry.parentId = none ∨ Uncovered [] popped entry := by
  simp [Entered, Uncovered]

/-- The walk of a listing of any entries is a loop that ends. It pops an entry exactly if the entry
stands at the root or below an id that is popped, which are the entries that have a path from the root,
and pops it as often as it is listed; its depth is one more than that of the first entry popped under
the id of its parent. So there is at most one line for each entry that is listed. -/
theorem visits_once_each (entries : List Entry) :
    let arranged := entries.mergeSort EntryTree.atMost
    let popped := visits entries
    Pops arranged [] (atDepth 0 (siblings arranged none)) popped ∧
      (popped.map Prod.fst).Perm (entries.filter (Entered popped)) ∧
      (∀ visit ∈ popped, Placed popped visit) ∧
      (∀ entry, entry ∈ popped.map Prod.fst ↔ ∃ path, RootPath entries path entry) ∧
      (lines entries).length ≤ entries.length := by
  intro arranged popped
  have permuted : arranged.Perm entries := List.mergeSort_perm entries EntryTree.atMost
  have whole : Remains arranged [] (groups arranged) := fun id => by simp
  obtain ⟨visited, walked, pops⟩ := walk_pops whole (atDepth 0 (siblings arranged none)) []
  obtain rfl : popped = visited := by
    simpa [popped, visits, getD_groups] using walked
  have top : (atDepth 0 (siblings arranged none)).map Prod.fst = siblings arranged none := by
    simp [atDepth, Function.comp_def]
  have once : (popped.map Prod.fst).Perm (entries.filter (Entered popped)) := by
    have parts := pops.perm
    rw [top] at parts
    refine parts.trans (List.Perm.trans ?_ (permuted.filter _))
    refine (filter_perm_of_parts (fun entry => entered_iff) ?_ arranged).symm
    rintro entry ⟨visit, _, _, under⟩ parentless
    rw [parentless] at under
    cases under
  have entered : ∀ entry, entry ∈ popped.map Prod.fst ↔ entry ∈ entries ∧ Entered popped entry := by
    intro entry
    rw [once.mem_iff, List.mem_filter, decide_eq_true_eq]
  refine ⟨pops, once, ?_, ?_, ?_⟩
  · change ∀ visit ∈ [] ++ popped, Placed ([] ++ popped) visit
    refine pops.placed (by simp) (by simp) fun visit member => ?_
    obtain ⟨entry, sibling, rfl⟩ := List.mem_map.mp member
    rw [Placed, (mem_siblings.mp sibling).2]
  · intro entry
    constructor
    · intro member
      obtain ⟨visit, visited, rfl⟩ := List.mem_map.mp member
      refine (pops.reached ?_ visit visited).imp fun path reached =>
        reached.mono fun other => permuted.mem_iff.mp
      intro waiting member
      obtain ⟨root, sibling, rfl⟩ := List.mem_map.mp member
      obtain ⟨stored, parentless⟩ := mem_siblings.mp sibling
      exact ⟨_, .root stored parentless⟩
    · rintro ⟨path, reached⟩
      induction reached with
      | root member parentless => exact (entered _).mpr ⟨member, Or.inl parentless⟩
      | beneath earlier member under ih =>
        obtain ⟨visit, present, rfl⟩ := List.mem_map.mp ih
        exact (entered _).mpr ⟨member, Or.inr ⟨visit, present, under⟩⟩
  · calc (lines entries).length ≤ popped.length := List.length_filterMap_le _ _
      _ = (entries.filter (Entered popped)).length := by rw [← once.length_eq, List.length_map]
      _ ≤ entries.length := List.length_filter_le _ _

end Listing

end Caption
