import Caption.Proofs.Registry.Toasting

/-!
Entries that are collected. They are sorted, and of those with one id only the last one is kept, so
that the tree is the one into which they are stored one after the other.
-/
namespace Caption

namespace EntryTree

variable {entry : Entry} {entries kept : List Entry}

theorem get?_keepLast (sorted : Keyed.Sorted Entry.id kept)
    (above : ∀ other ∈ kept, atMost entry other = true) (id : String) :
    Keyed.get? Entry.id id (keepLast entry kept) =
      (Keyed.get? Entry.id id kept).or (Keyed.get? Entry.id id [entry]) := by
  cases kept with
  | nil => rfl
  | cons next rest =>
    rw [keepLast]
    by_cases named : entry.id = id
    · subst id
      by_cases again : entry.id = next.id
      · simp [again, Keyed.get?]
      · have first : Keyed.Sorted Entry.id (entry :: next :: rest) := by
          refine List.pairwise_cons.mpr ⟨fun other member => ?_, sorted⟩
          rcases List.mem_cons.mp member with rfl | later
          · exact before_of_atMost (above _ List.mem_cons_self) again
          · exact Text.before_trans (before_of_atMost (above next List.mem_cons_self) again)
              ((List.pairwise_cons.mp sorted).1 other later)
        have absent : Keyed.get? Entry.id entry.id (next :: rest) = none :=
          Keyed.get?_eq_none.mpr fun other member same =>
            Text.ne_of_before ((List.pairwise_cons.mp first).1 other member) same.symm
        rw [if_neg again, absent]
        simp [Keyed.get?]
    · split <;> simp [Keyed.get?, named]

/-- Of entries in the order of their ids the last one of each id is kept. -/
theorem get?_foldr_keepLast (ordered : entries.Pairwise fun left right => atMost left right = true)
    (id : String) :
    Keyed.get? Entry.id id (entries.foldr keepLast []) = Keyed.get? Entry.id id entries.reverse := by
  induction entries with
  | nil => rfl
  | cons entry rest ih =>
    obtain ⟨above, tail⟩ := List.pairwise_cons.mp ordered
    obtain ⟨sorted, members⟩ := sorted_foldr_keepLast rest tail
    have beneath : ∀ other ∈ rest.foldr keepLast [], atMost entry other = true :=
      fun other member => above other (members other member)
    rw [List.foldr_cons, get?_keepLast sorted beneath, ih tail, List.reverse_cons, Keyed.get?,
      Keyed.get?, Keyed.get?, List.find?_append]

/-- Entries of one id stay in their order when entries are sorted. -/
theorem filter_mergeSort (entries : List Entry) (id : String) :
    (entries.mergeSort atMost).filter (fun entry => entry.id == id) =
      entries.filter fun entry => entry.id == id := by
  have equal : (entries.filter fun entry => entry.id == id).Pairwise
      fun left right => atMost left right = true := by
    refine List.pairwise_iff_forall_sublist.mpr fun {left right} both => ?_
    have named (entry : Entry) (member : entry ∈ [left, right]) : entry.id = id := by
      simpa using (List.mem_filter.mp (both.subset member)).2
    simp [atMost, named left (by simp), named right (by simp), Text.before_irrefl]
  have kept := (List.sublist_mergeSort atMost_trans atMost_total equal List.filter_sublist).filter
    fun entry => entry.id == id
  rw [List.filter_filter] at kept
  simp only [Bool.and_self] at kept
  exact (kept.eq_of_length ((List.mergeSort_perm entries atMost).filter _).length_eq.symm).symm

/-- Of collected entries the last one of each id is found. -/
theorem get?_ofList (entries : List Entry) (id : String) :
    (ofList entries).get? id = Keyed.get? Entry.id id entries.reverse := by
  have ordered := List.pairwise_mergeSort atMost_trans atMost_total entries
  rw [ofList, get?, get?_foldr_keepLast ordered, Keyed.get?, Keyed.get?, ← List.head?_filter,
    ← List.head?_filter, List.filter_reverse, List.filter_reverse, filter_mergeSort]

theorem get?_insertAll (tree : EntryTree) (entries : List Entry) (id : String) :
    (tree.insertAll entries).get? id =
      (Keyed.get? Entry.id id entries.reverse).or (tree.get? id) := by
  induction entries generalizing tree with
  | nil => rfl
  | cons entry rest ih =>
    rw [insertAll, List.foldl_cons, ← insertAll, ih, get?_insert, List.reverse_cons, Keyed.get?,
      Keyed.get?, List.find?_append]
    by_cases named : entry.id = id <;> simp [named]

/-- To collect entries is to store them one by one. -/
theorem ofList_eq_insertAll (entries : List Entry) : ofList entries = empty.insertAll entries := by
  refine ext_get? fun id => ?_
  rw [get?_ofList, get?_insertAll, get?_empty, Option.or_none]

end EntryTree

end Caption
