import Mathlib.Data.List.Induction
import Caption.Command.Execute
import Caption.Proofs.Json.Printing
import Caption.Proofs.Registry.Reordering

/-!
Entries that take the place of others. Of a snapshot only the last entry of each id is left when all
of them were registered; the listing and the state that was stored last show these and nothing else.
-/
namespace Caption

namespace Entry

/-- The entries whose ids do not come again. -/
def latest : List Entry → List Entry
  | [] => []
  | entry :: rest =>
    if rest.any fun later => later.id == entry.id then latest rest else entry :: latest rest

/-- An entry drops the earlier one of its id. -/
theorem latest_concat (entries : List Entry) (last : Entry) :
    latest (entries ++ [last]) = (latest entries).filter (fun entry => entry.id != last.id) ++ [last] := by
  induction entries with
  | nil => rfl
  | cons entry rest ih =>
    rw [List.cons_append, latest, latest, List.any_append, ih]
    by_cases again : (rest.any fun later => later.id == entry.id) = true
    · rw [again, Bool.true_or, if_pos rfl, if_pos rfl]
    · rw [Bool.not_eq_true] at again
      by_cases same : last.id = entry.id
      · simp [again, same]
      · simp [again, same, Ne.symm same]

theorem latest_eq_nil {entries : List Entry} : latest entries = [] ↔ entries = [] := by
  constructor
  · intro empty
    rcases List.eq_nil_or_concat entries with none | ⟨before, last, rfl⟩
    · exact none
    · rw [List.concat_eq_append, latest_concat] at empty
      simp at empty
  · rintro rfl
    rfl

end Entry

/-- A tree into which entries are stored one after the other has the last one of each id. -/
theorem EntryTree.insertAll_perm_latest (entries : List Entry) :
    (EntryTree.empty.insertAll entries).entries.Perm (Entry.latest entries) := by
  induction entries using List.reverseRecOn with
  | nil => exact List.Perm.refl _
  | append_singleton before last ih =>
    have inserted : (empty.insertAll (before ++ [last])).entries =
        Keyed.put Entry.id last (empty.insertAll before).entries := by
      rw [insertAll, List.foldl_append]
      rfl
    have others : (Keyed.remove Entry.id last.id (empty.insertAll before).entries).Perm
        ((Entry.latest before).filter fun entry => entry.id != last.id) := ih.filter _
    rw [inserted, Entry.latest_concat]
    exact (Keyed.perm_put (empty.insertAll before).sorted last).trans
      ((others.cons last).trans (List.perm_append_singleton _ _).symm)

theorem Entry.nodup_ids_latest (entries : List Entry) : ((latest entries).map Entry.id).Nodup :=
  ((EntryTree.insertAll_perm_latest entries).map Entry.id).nodup_iff.mp
    (EntryTree.empty.insertAll entries).nodup_ids

namespace Surface

/-- With a host that does not answer, what is stored last is the first state with the listing of all
that is there in the end. -/
theorem state_foldl_register {surface : Surface} (silent : surface.reactions = [])
    {entries : List Entry} (filled : entries ≠ []) :
    (entries.foldl Surface.register surface).state =
      .object ((Members.ofState surface.state).set surface.stateKey
        (.string (entries.foldl Surface.register surface).description)) := by
  induction entries generalizing surface with
  | nil => exact absurd rfl filled
  | cons entry rest ih =>
    rw [List.foldl_cons, register_of_silent silent]
    cases rest with
    | nil => rfl
    | cons next later =>
      generalize published : (surface.placed entry).stored (surface.placed entry)
        (surface.placed entry).description = first
      have further : first.reactions = [] := published ▸ silent
      rw [ih further (List.cons_ne_nil next later), ← published]
      -- The state that was stored in between had the same members besides the listing.
      exact congrArg Json.object (Members.set_set _ _ _ _)

end Surface

namespace Command

variable {source other stateKey : String} {entries others : List Entry}

theorem description_surfaceOf (stateKey : String) (entries : List Entry) :
    (surfaceOf stateKey entries).description = Listing.render (Entry.latest entries) := by
  have stored : (surfaceOf stateKey entries).tree = EntryTree.empty.insertAll entries :=
    Surface.foldl_register_of_silent rfl entries
  rw [Surface.description, stored]
  exact EntryTree.render_of_perm (EntryTree.insertAll_perm_latest entries)

/-- The state after the last publication: there is none if there was nothing to publish. -/
theorem state_surfaceOf (stateKey : String) (entries : List Entry) :
    (surfaceOf stateKey entries).state =
      if entries = [] then .null
      else .object [(stateKey, .string (Listing.render (Entry.latest entries)))] := by
  by_cases empty : entries = []
  · rw [if_pos empty, empty]
    rfl
  · rw [if_neg empty, ← description_surfaceOf stateKey entries]
    exact Surface.state_foldl_register rfl empty

/-- What is shown of a snapshot hangs on the listing and the state of its surface alone. -/
theorem listSnapshot_eq (read : Snapshot.read? source = some entries) (stateKey format : String) :
    listSnapshot source stateKey format =
      match SnapshotFormat.ofName? format with
      | none => .error (.unknownFormat format SnapshotFormat.names)
      | some .text => .ok (surfaceOf stateKey entries).description
      | some .state => .ok (surfaceOf stateKey entries).state.pretty := by
  rw [listSnapshot]
  cases SnapshotFormat.ofName? format with
  | none => rfl
  | some form =>
    simp only [read]
    cases form <;> rfl

/-- A snapshot is shown by the last entries of its ids: as their listing, or as an object whose only
member is that listing, which is read back from its text. Without entries there is nothing in the
state. Snapshots with the same last entries, in whatever order, are shown alike. -/
theorem listSnapshot_shows_latest (read : Snapshot.read? source = some entries)
    (stateKey : String) :
    let text := Listing.render (Entry.latest entries)
    let state := Json.object [(stateKey, .string text)]
    listSnapshot source stateKey "text" = .ok text ∧
      (entries = [] → listSnapshot source stateKey "state" = .ok "null") ∧
      (entries ≠ [] → listSnapshot source stateKey "state" = .ok state.pretty ∧
        Json.read? state.pretty = some state) ∧
      ∀ other others, Snapshot.read? other = some others →
        (Entry.latest entries).Perm (Entry.latest others) →
          ∀ format, listSnapshot source stateKey format = listSnapshot other stateKey format := by
  intro text state
  refine ⟨?_, ?_, ?_, ?_⟩
  · rw [listSnapshot_eq read, description_surfaceOf]
    rfl
  · intro empty
    rw [listSnapshot_eq read, state_surfaceOf, if_pos empty]
    rfl
  · intro filled
    have regular : state.Regular Number.ReadsBack Json.nestingLimit := by
      refine .object (List.pairwise_singleton _ _) fun member listed => ?_
      obtain rfl := List.mem_singleton.mp listed
      exact .string text
    refine ⟨?_, Json.read?_pretty regular⟩
    rw [listSnapshot_eq read, state_surfaceOf, if_neg filled]
    rfl
  · intro other others readOther permuted format
    have listed : text = Listing.render (Entry.latest others) :=
      Listing.render_of_perm (Listing.SiblingsApart.of_nodup (Entry.nodup_ids_latest entries)) permuted
    have filled : entries = [] ↔ others = [] := by
      rw [← Entry.latest_eq_nil, ← @Entry.latest_eq_nil others]
      exact ⟨fun empty => List.nil_perm.mp (empty ▸ permuted),
        fun empty => List.perm_nil.mp (empty ▸ permuted)⟩
    rw [listSnapshot_eq read, listSnapshot_eq readOther, description_surfaceOf,
      description_surfaceOf, state_surfaceOf, state_surfaceOf]
    simp only [filled, ← listed, text]

/-- A snapshot in which an entry comes again under another parent. -/
def movedText : String :=
  "[[\"b\",\"a\",\"old\"],\x7b\"content\":\"say \\\"hi\\\"\",\"id\":\"a\"\x7d,[\"b\",null,\"new\"]]"

def settledText : String := "[[\"b\",null,\"new\"],[\"a\",null,\"say \\\"hi\\\"\"]]"

theorem read?_movedText :
    Snapshot.read? movedText =
      some [⟨"b", some "a", some "old"⟩, ⟨"a", none, some "say \"hi\""⟩, ⟨"b", none, some "new"⟩] := by
  decide +kernel

theorem read?_settledText :
    Snapshot.read? settledText =
      some [⟨"b", none, some "new"⟩, ⟨"a", none, some "say \"hi\""⟩] := by
  decide +kernel

theorem listSnapshot_movedText_shows_latest :
    Snapshot.read? movedText =
        some [⟨"b", some "a", some "old"⟩, ⟨"a", none, some "say \"hi\""⟩, ⟨"b", none, some "new"⟩] ∧
      listSnapshot movedText "context" "text" =
        .ok (Listing.render [⟨"a", none, some "say \"hi\""⟩, ⟨"b", none, some "new"⟩]) ∧
      listSnapshot movedText "context" "state" = listSnapshot settledText "context" "state" := by
  obtain ⟨listed, _, _, alike⟩ := listSnapshot_shows_latest read?_movedText "context"
  refine ⟨read?_movedText, listed, ?_⟩
  exact alike settledText _ read?_settledText (List.Perm.swap _ _ _) "state"

end Command

end Caption
