import Mathlib.Data.List.Sort
import Caption.Proofs.Bytes
import Caption.Proofs.Registry.Counting
import Caption.Proofs.Registry.Holding
import Caption.Proofs.Registry.Rendering
import Caption.Proofs.Registry.Straying

/-!
Ids in the order of their issue. An attachment is listed among its siblings where its id was issued
among theirs, when it was made or last attached again: in the tree as well as in the listing, and
whatever is changed by hand in between.
-/
namespace Caption

/-- A list is part of another one that has all its items in the same strict order. -/
theorem sublist_of_subset {α : Type} {comes : α → α → Prop} {items others : List α}
    (asymm : ∀ {left right}, comes left right → ¬comes right left) (ordered : items.Pairwise comes)
    (again : others.Pairwise comes) (subset : items ⊆ others) : items.Sublist others := by
  have antisymm : Std.Antisymm comes := ⟨fun _ _ before after => absurd after (asymm before)⟩
  have nodup : items.Nodup := by
    refine ordered.imp ?_
    rintro left right before rfl
    exact asymm before before
  exact List.sublist_of_subperm_of_pairwise (List.subperm_of_subset nodup subset) ordered again

namespace Listing

variable {entries : List Entry} {mine : Entry → Bool} {parentId : Option String}
  {shared : List String}

section Family

variable (below : ∀ entry ∈ entries, mine entry = true → entry.parentId = parentId)
include below

theorem rootPath_of_mine {entry : Entry} (above : ParentPath entries parentId shared)
    (stored : entry ∈ entries) (chosen : mine entry = true) :
    RootPath entries (shared ++ [entry.id]) entry :=
  ParentPath.rootPath (below entry stored chosen ▸ above) stored

theorem filter_visits_of_lost (nodup : (entries.map Entry.id).Nodup)
    (lost : ∀ shared, ¬ParentPath entries parentId shared) :
    (visits entries).filter (fun visit => mine visit.1) = [] := by
  refine List.filter_eq_nil_iff.mpr fun visit member chosen => ?_
  obtain ⟨path, reached⟩ := rootPath_of_mem_visits nodup member
  obtain ⟨shared, above⟩ := reached.parentPath
  exact lost shared (below visit.1 reached.mem chosen ▸ above)

variable (sorted : Keyed.Sorted Entry.id entries) (above : ParentPath entries parentId shared)
include sorted above

/-- Of the stops on all paths those of entries below one parent come in the order of their ids. -/
theorem filter_visited {visited : List Stop} (distinct : Entry.Distinct entries)
    (members : ∀ stop, stop ∈ visited ↔ RootPath entries stop.path stop.entry)
    (ordered : visited.Pairwise fun left right => PathBefore left.path right.path) :
    visited.filter (fun stop => mine stop.entry) =
      (entries.filter mine).map fun entry => ⟨shared ++ [entry.id], entry⟩ := by
  refine eq_of_pathBefore (ordered.filter _) ?_ fun stop => ?_
  · have chosen : Keyed.Sorted Entry.id (entries.filter mine) := List.Pairwise.filter mine sorted
    exact List.pairwise_map.mpr (chosen.imp fun before => pathBefore_concat shared before)
  · rw [List.mem_filter, members]
    constructor
    · rintro ⟨far, chosen⟩
      have path := far.path_unique distinct (rootPath_of_mine below above far.mem chosen)
      exact List.mem_map.mpr ⟨stop.entry, List.mem_filter.mpr ⟨far.mem, chosen⟩, by rw [← path]⟩
    · intro member
      obtain ⟨entry, present, rfl⟩ := List.mem_map.mp member
      obtain ⟨stored, chosen⟩ := List.mem_filter.mp present
      exact ⟨rootPath_of_mine below above stored chosen, chosen⟩

/-- Entries below one parent are visited one after the other at one depth. -/
theorem filter_visits (nodup : (entries.map Entry.id).Nodup) :
    (visits entries).filter (fun visit => mine visit.1) =
      atDepth shared.length (entries.filter mine) := by
  obtain ⟨visited, walked, members, ordered⟩ := visits_eq nodup
  have kept : (visits entries).filter (fun visit => mine visit.1) =
      (visited.filter fun stop => mine stop.entry).map Stop.visit := by
    rw [walked, List.filter_map]
    rfl
  rw [kept, filter_visited below sorted above (Entry.distinct_of_nodup nodup) members ordered,
    List.map_map]
  simp [atDepth, Stop.visit, Function.comp_def]

/-- The bullets of entries below one parent come in the order of their ids. -/
theorem Outlines.sublist {told : List (List String × String)} (outlines : Outlines entries told) :
    (((entries.filter mine).filter fun entry => decide (entry.text ≠ "")).map fun entry =>
      (shared ++ [entry.id], entry.text)).Sublist told := by
  refine sublist_of_subset pathBefore_asymm ?_ outlines.ordered ?_
  · have chosen : Keyed.Sorted Entry.id
        ((entries.filter mine).filter fun entry => decide (entry.text ≠ "")) :=
      (List.Pairwise.filter mine sorted).filter _
    exact List.pairwise_map.mpr (chosen.imp fun before => pathBefore_concat shared before)
  · intro item member
    obtain ⟨entry, kept, rfl⟩ := List.mem_map.mp member
    obtain ⟨present, visible⟩ := List.mem_filter.mp kept
    obtain ⟨stored, chosen⟩ := List.mem_filter.mp present
    obtain ⟨content, given, shown, trimmed⟩ :=
      Entry.exists_content_of_text (of_decide_eq_true visible)
    have reached := rootPath_of_mine below above stored chosen
    exact (outlines.described _ _).mpr ⟨entry, content, reached, given, shown, trimmed⟩

end Family

end Listing

namespace Session

variable {session : Session} {handle : String} {steps : List Step} {attachment : Attachment}

/-- The ids under which attachments are put, each with the handle, in the order of their issue. -/
def renewals (session : Session) : List Step → List (String × String)
  | [] => []
  | step :: later =>
    ((session.renews step).map fun handle => (handle, session.surface.freshId.1)).toList ++
      (session.step step).2.renewals later

/-- All ids that are issued, for attachments, for toasts, or because they are asked for. Each step
issues those from the counter on that it finds. -/
def issued (session : Session) : List Step → List String
  | [] => []
  | step :: later =>
    idsFrom session.surface.counter (Event.taken (session.happens step)) ++
      (session.step step).2.issued later

theorem issued_eq (session : Session) (steps : List Step) :
    session.issued steps =
      idsFrom session.surface.counter (Event.taken (session.history steps)) := by
  induction steps generalizing session with
  | nil => rfl
  | cons step later ih =>
    rw [issued, ih, counter_step, history, Event.taken_append, idsFrom_add]

theorem issued_append (session : Session) (first second : List Step) :
    session.issued (first ++ second) = session.issued first ++ (session.run first).issued second := by
  induction first generalizing session with
  | nil => rfl
  | cons step later ih =>
    rw [List.cons_append, issued, issued, ih, List.append_assoc]
    rfl

/-- A fresh id is issued first in the step that puts an attachment under it. -/
theorem happens_of_renews {step : Step} (renewed : session.renews step = some handle) :
    ∃ later, session.happens step = .own true :: later := by
  have first (later : List Event) :
      ∃ rest, (Course.unroll (.own true :: later) session.surface.reactions).events =
        .own true :: rest := by
    cases session.surface.reactions with
    | nil => exact ⟨later, rfl⟩
    | cons reaction rest => exact ⟨_, rfl⟩
  cases step with
  | attach other content => exact first _
  | attachChild other parent content =>
    obtain ⟨above, held, rfl⟩ := Option.map_eq_some_iff.mp renewed
    simp only [happens, sets, held]
    exact first _
  | reattach other =>
    obtain ⟨kept, held, rfl⟩ := Option.map_eq_some_iff.mp renewed
    simp only [happens, sets, held]
    exact first _
  | _ => cases renewed

theorem renewals_sublist_issued (session : Session) (steps : List Step) :
    ((session.renewals steps).map Prod.snd).Sublist (session.issued steps) := by
  induction steps generalizing session with
  | nil => exact List.nil_sublist _
  | cons step later ih =>
    rw [renewals, issued, List.map_append]
    refine List.Sublist.append ?_ (ih _)
    cases renewed : session.renews step with
    | none => exact List.nil_sublist _
    | some handle =>
      obtain ⟨rest, happened⟩ := happens_of_renews renewed
      rw [happened, Event.taken_named, idsFrom]
      exact (List.nil_sublist _).cons_cons _

/-- Over a run a live attachment has the id of its last renewal, or the one that it had before. -/
theorem id_run (lookup : (session.run steps).attachment? handle = some attachment) :
    (∃ earlier later, session.renewals steps = earlier ++ (handle, attachment.entry.id) :: later ∧
        ∀ renewal ∈ later, renewal.1 ≠ handle) ∨
      (∀ renewal ∈ session.renewals steps, renewal.1 ≠ handle) ∧
        ∃ first, session.attachment? handle = some first ∧
          first.entry.id = attachment.entry.id := by
  induction steps generalizing session with
  | nil => exact Or.inr ⟨List.forall_mem_nil _, attachment, lookup, rfl⟩
  | cons step later ih =>
    rw [renewals]
    rcases ih lookup with ⟨earlier, rest, whole, last⟩ | ⟨untouched, middle, held, same⟩
    · exact Or.inl ⟨_ ++ earlier, rest, by rw [whole, List.append_assoc], last⟩
    · rcases id_step held with ⟨renewed, named⟩ | ⟨other, first, before, again⟩
      · rw [renewed, ← same, named]
        exact Or.inl ⟨[], _, rfl, untouched⟩
      · refine Or.inr ⟨List.forall_mem_append.mpr ⟨?_, untouched⟩, first, before, again.trans same⟩
        intro renewal member equal
        obtain ⟨name, renewed, rfl⟩ := Option.map_eq_some_iff.mp (Option.mem_toList.mp member)
        obtain rfl : name = handle := equal
        exact other renewed

section Opened

variable (stateKey : String) (state : Json) (reactions : List Reaction)

theorem exists_renewal
    (live : ((opened stateKey state reactions).run steps).attachment? handle = some attachment) :
    ∃ earlier later, (opened stateKey state reactions).renewals steps =
        earlier ++ (handle, attachment.entry.id) :: later ∧
      ∀ renewal ∈ later, renewal.1 ≠ handle := by
  rcases id_run live with given | ⟨_, first, held, _⟩
  · exact given
  · cases held

theorem id_mem_issued
    (live : ((opened stateKey state reactions).run steps).attachment? handle = some attachment) :
    attachment.entry.id ∈ (opened stateKey state reactions).issued steps := by
  obtain ⟨earlier, later, given, _⟩ := exists_renewal stateKey state reactions live
  refine (renewals_sublist_issued _ steps).subset ?_
  rw [given, List.map_append]
  exact List.mem_append_right _ List.mem_cons_self

variable (room : Event.taken ((opened stateKey state reactions).history steps) < 2 ^ 64)
include room

theorem pairwise_issued :
    ((opened stateKey state reactions).issued steps).Pairwise
      fun left right => Text.before left right = true := by
  rw [issued_eq]
  exact pairwise_idsFrom (by simpa [opened] using room)

/-- Entries of live attachments stand in the order in which their ids were issued. -/
theorem ids_sublist_issued {mine : Entry → Bool}
    (live : ∀ entry, mine entry = true → ∃ handle,
      ((opened stateKey state reactions).run steps).attachment? handle = some ⟨entry⟩) :
    ((((opened stateKey state reactions).run steps).surface.tree.entries.filter mine).map
      Entry.id).Sublist ((opened stateKey state reactions).issued steps) := by
  have sorted : Keyed.Sorted Entry.id
      (((opened stateKey state reactions).run steps).surface.tree.entries.filter mine) :=
    List.Pairwise.filter mine (EntryTree.sorted _)
  refine sublist_of_subset (fun before => by simp [Text.not_before_of_before before])
    (Keyed.sorted_iff_pairwise_map.mp sorted) (pairwise_issued stateKey state reactions room) ?_
  intro id member
  obtain ⟨entry, present, rfl⟩ := List.mem_map.mp member
  obtain ⟨handle, held⟩ := live entry (List.mem_filter.mp present).2
  exact id_mem_issued stateKey state reactions held

/-- The counter stands at the number of the ids that were issued. -/
theorem counter_eq_length_issued :
    ((opened stateKey state reactions).run steps).surface.counter.toNat =
      ((opened stateKey state reactions).issued steps).length := by
  have start : (opened stateKey state reactions).surface.counter = 0 := rfl
  rw [counter_run, issued_eq, length_idsFrom, start, UInt64.zero_add, UInt64.toNat_ofNat']
  exact Nat.mod_eq_of_lt room

/-- A live attachment is registered if nothing was done by hand under a fresh id. -/
theorem mem_entries_of_clear
    (clear : Event.Clear (Event.taken ((opened stateKey state reactions).history steps))
      ((opened stateKey state reactions).history steps))
    (live : ((opened stateKey state reactions).run steps).attachment? handle = some attachment) :
    attachment.entry ∈ ((opened stateKey state reactions).run steps).surface.tree.entries := by
  have allowed : Event.Allowed _ ([] ++ (opened stateKey state reactions).history steps) :=
    ⟨room, Nat.le_refl _, clear⟩
  obtain ⟨handles, tracks⟩ := (follows_opened stateKey state reactions).run steps allowed
  have held := tracks.held attachment.entry ((mem_owned handles).mpr ⟨handle, attachment, live, rfl⟩)
  exact EntryTree.mem_entries.mpr held

end Opened

/-- Fresh ids have one length and grow with their counters, so that no id is issued twice as long as
the counter does not run over. A live attachment has the id that its handle was last given. Live
siblings come in the order in which these ids were issued among the entries of the tree, and so do,
among the bullets of the description, the bullets of those with a text to show: each of them stands
behind the path of the parent. No sibling is visited whose parent has no path. All of them are
registered if nothing is done by hand under a fresh id. -/
theorem run_lists_in_order_of_issue (stateKey : String) (state : Json) (reactions : List Reaction)
    (steps : List Step)
    (room : Event.taken ((opened stateKey state reactions).history steps) < 2 ^ 64) :
    let start := opened stateKey state reactions
    let past := start.history steps
    let issued := start.issued steps
    let session := start.run steps
    let tree := session.surface.tree
    (∀ smaller larger : UInt64, smaller < larger →
        Text.bytes (idOfCounter smaller) < Text.bytes (idOfCounter larger)) ∧
      (∀ counter, (idOfCounter counter).length = 21) ∧
      (issued.length = Event.taken past ∧ session.surface.counter.toNat = issued.length ∧
        issued.Nodup) ∧
      (∀ before after, steps = before ++ .freshId :: after → ∃ id later,
        ((start.run before).step .freshId).1 = .text id ∧
          issued = start.issued before ++ id :: later) ∧
      ((start.renewals steps).map Prod.snd).Sublist issued ∧
      (∀ handle attachment, session.attachment? handle = some attachment →
        ∃ earlier later, start.renewals steps = earlier ++ (handle, attachment.entry.id) :: later ∧
          ∀ renewal ∈ later, renewal.1 ≠ handle) ∧
      ∃ told, Listing.Outlines tree.entries told ∧
        session.surface.description = String.intercalate "\n" (told.map Listing.bullet) ∧
        ∀ (siblings : List Attachment) (parentId : Option String),
          (∀ sibling ∈ siblings, (∃ handle, session.attachment? handle = some sibling) ∧
            sibling.entry.parentId = parentId) →
          let listed := tree.entries.filter fun entry => decide (⟨entry⟩ ∈ siblings)
          let shown := listed.filter fun entry => decide (entry.text ≠ "")
          let visited := (Listing.visits tree.entries).filter fun visit =>
            decide (⟨visit.1⟩ ∈ siblings)
          (listed.map Entry.id).Sublist issued ∧ (shown.map Entry.id).Sublist issued ∧
            (∀ shared, Listing.ParentPath tree.entries parentId shared →
              visited = Listing.atDepth shared.length listed ∧
                (shown.map fun entry => (shared ++ [entry.id], entry.text)).Sublist told) ∧
            ((∀ shared, ¬Listing.ParentPath tree.entries parentId shared) → visited = []) ∧
            (Event.Clear (Event.taken past) past →
              ∀ sibling ∈ siblings, sibling.entry ∈ listed) := by
  intro start past issued session tree
  have ordered : issued.Pairwise fun left right => Text.before left right = true :=
    pairwise_issued stateKey state reactions room
  refine ⟨?_, length_idOfCounter, ⟨?_, ?_, ordered.imp Text.ne_of_before⟩, ?_,
    renewals_sublist_issued start steps, fun handle attachment => exists_renewal _ _ _, ?_⟩
  · exact fun smaller larger below => Text.before_iff_bytes_lt.mp (before_idOfCounter below)
  · exact (congrArg List.length (issued_eq start steps)).trans (length_idsFrom _ _)
  · exact counter_eq_length_issued stateKey state reactions room
  · rintro before after rfl
    exact ⟨_, _, rfl, issued_append start before _⟩
  · obtain ⟨told, outlines, rendered⟩ := Listing.exists_outlines tree.nodup_ids
    refine ⟨told, outlines, rendered, ?_⟩
    intro siblings parentId family listed shown visited
    have below (entry : Entry) (_ : entry ∈ tree.entries)
        (chosen : decide (⟨entry⟩ ∈ siblings) = true) : entry.parentId = parentId :=
      (family _ (of_decide_eq_true chosen)).2
    have inOrder : (listed.map Entry.id).Sublist issued :=
      ids_sublist_issued stateKey state reactions room fun entry chosen =>
        (family ⟨entry⟩ (of_decide_eq_true chosen)).1
    refine ⟨inOrder, (List.filter_sublist.map _).trans inOrder, fun shared above => ⟨?_, ?_⟩,
      Listing.filter_visits_of_lost below tree.nodup_ids, ?_⟩
    · exact Listing.filter_visits below tree.sorted above tree.nodup_ids
    · exact Listing.Outlines.sublist below tree.sorted above outlines
    · intro clear sibling member
      obtain ⟨handle, live⟩ := (family sibling member).1
      have registered := mem_entries_of_clear stateKey state reactions room clear live
      exact List.mem_filter.mpr ⟨registered, by simpa using member⟩

/-- A host that registers an entry by hand and shows a toast when it is first told of a listing. -/
def interrupting : List Reaction :=
  [{ afterStore := [.register ⟨"m", none, some "by hand"⟩, .toast (some "hello")] }]

/-- Two panels, of which the first one is attached again. -/
def swapping : List Step :=
  [.attach "a" (some "first"), .freshId, .attach "b" (some "second"), .reattach "a"]

/-- The panels in the end. -/
def swapped : List Attachment :=
  [⟨⟨idOfCounter 4, none, some "first"⟩⟩, ⟨⟨idOfCounter 3, none, some "second"⟩⟩]

def afterSwapping : Session := (opened "key" .null interrupting).run swapping

theorem run_swapping_lists_in_order_of_issue :
    Event.taken ((opened "key" .null interrupting).history swapping) < 2 ^ 64 ∧
      (∀ sibling ∈ swapped, (∃ handle, afterSwapping.attachment? handle = some sibling) ∧
        sibling.entry.parentId = none) ∧
      ((afterSwapping.surface.tree.entries.filter fun entry => decide (⟨entry⟩ ∈ swapped)).map
        Entry.id).Sublist ((opened "key" .null interrupting).issued swapping) ∧
      (∃ told, Listing.Outlines afterSwapping.surface.tree.entries told ∧
        afterSwapping.surface.description = String.intercalate "\n" (told.map Listing.bullet) ∧
        ["- second", "- first"].Sublist (told.map Listing.bullet)) ∧
      ∀ sibling ∈ swapped, sibling.entry ∈ afterSwapping.surface.tree.entries := by
  have room : Event.taken ((opened "key" .null interrupting).history swapping) < 2 ^ 64 := by decide
  have clear : Event.Clear (Event.taken ((opened "key" .null interrupting).history swapping))
      ((opened "key" .null interrupting).history swapping) :=
    Event.clear_of_foreign _ (by decide)
  have family : ∀ sibling ∈ swapped, (∃ handle, afterSwapping.attachment? handle = some sibling) ∧
      sibling.entry.parentId = none :=
    List.forall_mem_cons.mpr ⟨⟨⟨"a", by decide⟩, rfl⟩,
      List.forall_mem_singleton.mpr ⟨⟨"b", by decide⟩, rfl⟩⟩
  obtain ⟨_, _, _, _, _, _, told, outlines, rendered, lists⟩ :=
    run_lists_in_order_of_issue "key" .null interrupting swapping room
  obtain ⟨ordered, _, beneath, _, present⟩ := lists swapped none family
  have bullets : ["- second", "- first"].Sublist (told.map Listing.bullet) :=
    (beneath [] .none).2.map Listing.bullet
  exact ⟨room, family, ordered, ⟨told, outlines, rendered, bullets⟩, fun sibling member =>
    (List.mem_filter.mp (present clear sibling member)).1⟩

end Session

end Caption
