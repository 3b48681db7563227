import Caption.Order

/-!
What is found under a key after a change of a finite map, and what the last of several steps leaves.
-/
namespace Caption

section Latest

variable {State Step Seen : Type} {next : State → Step → State} {found : Seen}

/-- Where each step either sets what is seen of a state or leaves it, something is seen after steps
if it was seen before and nothing set it, or if a step set it and no later one did. -/
theorem look_foldl_eq_some (look : State → Option Seen) (Sets : Step → Prop)
    (sets : Step → Option Seen) (set : ∀ state step, Sets step → look (next state step) = sets step)
    (left : ∀ state step, ¬Sets step → look (next state step) = look state) (steps : List Step)
    (state : State) :
    look (steps.foldl next state) = some found ↔
      (look state = some found ∧ ∀ step ∈ steps, ¬Sets step) ∨
        ∃ before step after, steps = before ++ step :: after ∧ Sets step ∧ sets step = some found ∧
          ∀ later ∈ after, ¬Sets later := by
  induction steps generalizing state with
  | nil => simp
  | cons step later ih =>
    rw [List.foldl_cons, ih]
    constructor
    · rintro (⟨seen, unset⟩ | ⟨before, last, after, rfl, rest⟩)
      · by_cases setting : Sets step
        · rw [set state step setting] at seen
          exact Or.inr ⟨[], step, later, rfl, setting, seen, unset⟩
        · rw [left state step setting] at seen
          exact Or.inl ⟨seen, List.forall_mem_cons.mpr ⟨setting, unset⟩⟩
      · exact Or.inr ⟨step :: before, last, after, rfl, rest⟩
    · rintro (⟨seen, unset⟩ | ⟨before, last, after, whole, setting, seen, unset⟩)
      · obtain ⟨first, others⟩ := List.forall_mem_cons.mp unset
        rw [left state step first]
        exact Or.inl ⟨seen, others⟩
      · cases before with
        | nil =>
          obtain ⟨rfl, rfl⟩ := List.cons.inj whole
          rw [set state step setting]
          exact Or.inl ⟨seen, unset⟩
        | cons head before =>
          obtain ⟨rfl, rfl⟩ := List.cons.inj whole
          exact Or.inr ⟨before, last, after, rfl, setting, seen, unset⟩

end Latest

namespace Keyed

variable {α : Type} {key : α → String} {name other : String} {item found : α} {items : List α}

theorem get?_put (item : α) (items : List α) (name : String) :
    get? key name (put key item items) = if key item = name then some item else get? key name items := by
  induction items with
  | nil => by_cases same : key item = name <;> simp [get?, put, same]
  | cons head rest ih =>
    rw [put]
    split
    · rename_i equal
      by_cases same : key item = name
      · simp [get?, same]
      · have unequal : key head ≠ name := fun reached => same (equal.trans reached)
        simp [get?, same, unequal]
    · rename_i different
      split
      · by_cases same : key item = name <;> simp [get?, same]
      · by_cases reached : key head = name
        · have apart : key item ≠ name := fun same => different (same.trans reached.symm)
          simp [get?, reached, apart]
        · simpa [get?, reached] using ih

theorem get?_remove (gone name : String) (items : List α) :
    get? key name (remove key gone items) = if gone = name then none else get? key name items := by
  rw [get?, remove, List.find?_filter]
  by_cases same : gone = name
  · subst name
    rw [if_pos rfl, List.find?_eq_none]
    simp
  · rw [if_neg same, get?]
    congr 1
    funext item
    by_cases reached : key item = name
    · simp [reached, Ne.symm same]
    · simp [reached]

theorem eq_of_key_eq (sorted : Sorted key items) (member : item ∈ items) (again : found ∈ items)
    (same : key item = key found) : item = found := by
  induction items with
  | nil => cases member
  | cons head rest ih =>
    obtain ⟨above, tail⟩ := List.pairwise_cons.mp sorted
    rcases List.mem_cons.mp member with rfl | later
    · rcases List.mem_cons.mp again with rfl | further
      · rfl
      · exact absurd same (Text.ne_of_before (above found further))
    · rcases List.mem_cons.mp again with rfl | further
      · exact absurd same.symm (Text.ne_of_before (above item later))
      · exact ih tail later further

theorem get?_eq_some (sorted : Sorted key items) :
    get? key name items = some found ↔ found ∈ items ∧ key found = name := by
  constructor
  · intro lookup
    exact ⟨List.mem_of_find?_eq_some lookup, by simpa using List.find?_some lookup⟩
  · rintro ⟨member, named⟩
    cases lookup : get? key name items with
    | none => exact absurd named (by simpa using List.find?_eq_none.mp lookup found member)
    | some first =>
      have present := List.mem_of_find?_eq_some lookup
      have sameName : key first = name := by simpa using List.find?_some lookup
      rw [eq_of_key_eq sorted present member (sameName.trans named.symm)]

theorem get?_eq_none : get? key name items = none ↔ ∀ item ∈ items, key item ≠ name := by
  simp [get?]

theorem nodup_of_sorted (sorted : Sorted key items) : items.Nodup := by
  refine List.Pairwise.imp ?_ sorted
  rintro left right before rfl
  simp [Text.before_irrefl] at before

theorem eq_of_perm {left right : List α} (leftSorted : Sorted key left)
    (rightSorted : Sorted key right) (permuted : left.Perm right) : left = right := by
  refine permuted.eq_of_pairwise ?_ leftSorted rightSorted
  intro first second _ _ before after
  exact absurd after (by simp [Text.not_before_of_before before])

theorem ext_get? {left right : List α} (leftSorted : Sorted key left) (rightSorted : Sorted key right)
    (same : ∀ name, get? key name left = get? key name right) : left = right := by
  have permuted : left.Perm right := by
    refine (List.perm_ext_iff_of_nodup (nodup_of_sorted leftSorted)
      (nodup_of_sorted rightSorted)).mpr ?_
    intro item
    have found : get? key (key item) left = some item ↔ item ∈ left ∧ key item = key item :=
      get?_eq_some leftSorted
    rw [same, get?_eq_some rightSorted] at found
    simpa using found.symm
  exact eq_of_perm leftSorted rightSorted permuted

theorem remove_eq_self (absent : get? key name items = none) : remove key name items = items := by
  refine List.filter_eq_self.mpr fun item member => ?_
  simpa using get?_eq_none.mp absent item member

/-- The item under a key stands beside the items that a removal of the key leaves. -/
theorem perm_of_get? (sorted : Sorted key items) (lookup : get? key name items = some found) :
    items.Perm (found :: remove key name items) := by
  obtain ⟨member, named⟩ := (get?_eq_some sorted).mp lookup
  have gone : found ∉ remove key name items := by simp [remove, named]
  refine (List.perm_ext_iff_of_nodup (nodup_of_sorted sorted) (List.nodup_cons.mpr
    ⟨gone, nodup_of_sorted (sorted_remove name sorted)⟩)).mpr fun item => ?_
  rw [List.mem_cons, remove, List.mem_filter]
  constructor
  · intro present
    by_cases same : key item = name
    · exact Or.inl (eq_of_key_eq sorted present member (same.trans named.symm))
    · exact Or.inr ⟨present, by simpa using same⟩
  · rintro (rfl | ⟨present, _⟩)
    · exact member
    · exact present

/-- An item under a key in use takes the place of what was there. -/
theorem perm_put (sorted : Sorted key items) (item : α) :
    (put key item items).Perm (item :: remove key (key item) items) := by
  have lookup : get? key (key item) (put key item items) = some item := by simp [get?_put]
  have stored := sorted_put item sorted
  have kept : remove key (key item) (put key item items) = remove key (key item) items := by
    refine ext_get? (sorted_remove _ stored) (sorted_remove _ sorted) fun name => ?_
    simp only [get?_remove, get?_put]
    split <;> rfl
  rw [← kept]
  exact perm_of_get? stored lookup

theorem sublist_put (absent : get? key (key item) items = none) :
    items.Sublist (put key item items) := by
  induction items with
  | nil => exact List.nil_sublist _
  | cons head rest ih =>
    obtain ⟨different, later⟩ := List.forall_mem_cons.mp (get?_eq_none.mp absent)
    rw [put, if_neg (Ne.symm different)]
    split
    · exact List.sublist_cons_self _ _
    · exact (ih (get?_eq_none.mpr later)).cons_cons head

/-- An item under a new key comes to those that are there. -/
theorem mem_put_iff (absent : get? key (key item) items = none) {other : α} :
    other ∈ put key item items ↔ other = item ∨ other ∈ items := by
  constructor
  · exact mem_put
  · rintro (rfl | stored)
    · have lookup : get? key (key other) (put key other items) = some other := by simp [get?_put]
      exact List.mem_of_find?_eq_some lookup
    · exact (sublist_put absent).subset stored

theorem sorted_put_iff (absent : get? key (key item) items = none) :
    Sorted key (put key item items) ↔ Sorted key items :=
  ⟨fun sorted => sorted.sublist (sublist_put absent), sorted_put item⟩

theorem put_eq_self (sorted : Sorted key items) (lookup : get? key (key item) items = some item) :
    put key item items = items := by
  refine ext_get? (sorted_put item sorted) sorted fun name => ?_
  rw [get?_put]
  split
  · rename_i same
    rw [← same, lookup]
  · rfl

theorem put_put (first last : α) (items : List α) (same : key last = key first) :
    put key last (put key first items) = put key last items := by
  induction items with
  | nil => simp [put, same]
  | cons head rest ih =>
    simp only [put, same]
    split
    · simp [put, same]
    · split
      · simp [put, same]
      · rename_i different notFirst
        simp [put, same, different, notFirst, ih]

theorem sorted_iff_pairwise_map :
    Sorted key items ↔ (items.map key).Pairwise fun left right => Text.before left right = true := by
  rw [List.pairwise_map]
  rfl

/-- Whether keys increase is seen from the keys alone. -/
theorem sorted_congr {β : Type} {label : β → String} {others : List β}
    (same : items.map key = others.map label) : Sorted key items ↔ Sorted label others := by
  rw [sorted_iff_pairwise_map, same, sorted_iff_pairwise_map]

theorem sorted_putAll (items : List α) {start : List α} (sorted : Sorted key start) :
    Sorted key (putAll key items start) := by
  induction items generalizing start with
  | nil => exact sorted
  | cons item rest ih => exact ih (sorted_put item sorted)

theorem mem_putAll {start : List α} (stored : item ∈ putAll key items start) :
    item ∈ items ∨ item ∈ start := by
  induction items generalizing start with
  | nil => exact Or.inr stored
  | cons head rest ih =>
    rcases ih stored with later | put
    · exact Or.inl (List.mem_cons_of_mem _ later)
    · rcases mem_put put with rfl | earlier
      · exact Or.inl List.mem_cons_self
      · exact Or.inr earlier

/-- Items under different keys are found before those that were there. -/
theorem get?_putAll (sorted : Sorted key items) (start : List α) (name : String) :
    get? key name (putAll key items start) = (get? key name items).or (get? key name start) := by
  induction items generalizing start with
  | nil => rfl
  | cons item rest ih =>
    obtain ⟨above, tail⟩ := List.pairwise_cons.mp sorted
    have step : putAll key (item :: rest) start = putAll key rest (put key item start) := rfl
    rw [step, ih tail, get?_put]
    by_cases same : key item = name
    · have absent : get? key name rest = none := by
        refine get?_eq_none.mpr fun other later reached => ?_
        exact Text.ne_of_before (above other later) (same.trans reached.symm)
      rw [absent]
      simp [get?, same]
    · simp [get?, same]

theorem putAll_nil (sorted : Sorted key items) : putAll key items [] = items := by
  refine ext_get? (sorted_putAll items List.Pairwise.nil) sorted fun name => ?_
  rw [get?_putAll sorted, get?.eq_1 key name [], List.find?_nil, Option.or_none]

end Keyed

end Caption
