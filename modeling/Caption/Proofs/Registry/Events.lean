import Caption.Proofs.Registry.Lookups
import Caption.Registry.Surface

/-!
The course of a mutation: the events that it and the host's reactions bring about, in their order.
An event that publishes is followed at once by what the host does during its publication.
-/
namespace Caption

inductive Event where
  /-- An entry is registered by hand. -/
  | register (entry : Entry)
  /-- An id is unregistered by hand. -/
  | unregister (id : String)
  /-- An attachment changes its own entry, under a fresh id if it is `named`. -/
  | own (named : Bool)
deriving DecidableEq

namespace Event

/-- Whether an event says by hand what is under an id. -/
def Touches : Event → String → Prop
  | .register entry, id => entry.id = id
  | .unregister gone, id => gone = id
  | .own _, _ => False

instance (event : Event) (id : String) : Decidable (event.Touches id) :=
  match event with
  | .register entry => inferInstanceAs (Decidable (entry.id = id))
  | .unregister gone => inferInstanceAs (Decidable (gone = id))
  | .own _ => inferInstanceAs (Decidable False)

/-- The number of fresh ids that events take. -/
def taken (events : List Event) : Nat := events.count (.own true)

@[simp] theorem taken_nil : taken [] = 0 := rfl

@[simp] theorem taken_append (first second : List Event) :
    taken (first ++ second) = taken first + taken second :=
  List.count_append

@[simp] theorem taken_named (later : List Event) : taken (.own true :: later) = taken later + 1 :=
  List.count_cons_self

@[simp] theorem taken_unnamed (later : List Event) : taken (.own false :: later) = taken later :=
  List.count_cons_of_ne (by decide)

@[simp] theorem taken_register (entry : Entry) (later : List Event) :
    taken (.register entry :: later) = taken later :=
  List.count_cons_of_ne (by simp)

@[simp] theorem taken_unregister (id : String) (later : List Event) :
    taken (.unregister id :: later) = taken later :=
  List.count_cons_of_ne (by simp)

end Event

namespace EntryTree

/-- A tree after an event by hand. -/
def follow (tree : EntryTree) : Event → EntryTree
  | .register entry => tree.insert entry
  | .unregister id => tree.erase id
  | .own _ => tree

def followAll (tree : EntryTree) (events : List Event) : EntryTree := events.foldl follow tree

/-- The entries that stand after events, the changes by hand alone. -/
def byHand (events : List Event) : EntryTree := empty.followAll events

variable {tree left right : EntryTree} {events : List Event} {id : String} {entry : Entry}

@[simp] theorem followAll_nil (tree : EntryTree) : tree.followAll [] = tree := rfl

@[simp] theorem followAll_cons (tree : EntryTree) (event : Event) (later : List Event) :
    tree.followAll (event :: later) = (tree.follow event).followAll later := rfl

@[simp] theorem followAll_append (tree : EntryTree) (first second : List Event) :
    tree.followAll (first ++ second) = (tree.followAll first).followAll second :=
  List.foldl_append

theorem byHand_append (first second : List Event) :
    byHand (first ++ second) = (byHand first).followAll second :=
  followAll_append _ _ _

theorem get?_follow (tree : EntryTree) (event : Event) (id : String) :
    (tree.follow event).get? id =
      if event.Touches id then (empty.follow event).get? id else tree.get? id := by
  cases event with
  | register entry => by_cases same : entry.id = id <;> simp [follow, Event.Touches, get?_insert, same]
  | unregister gone => by_cases same : gone = id <;> simp [follow, Event.Touches, get?_erase, same]
  | own named => simp [follow, Event.Touches]

/-- What stands under an id after events depends on what stood there before. -/
theorem get?_followAll_congr (same : left.get? id = right.get? id) (events : List Event) :
    (left.followAll events).get? id = (right.followAll events).get? id := by
  induction events generalizing left right with
  | nil => exact same
  | cons event later ih =>
    apply ih
    rw [get?_follow, get?_follow right, same]

theorem get?_followAll_of_untouched (untouched : ∀ event ∈ events, ¬event.Touches id)
    (tree : EntryTree) : (tree.followAll events).get? id = tree.get? id := by
  induction events generalizing tree with
  | nil => rfl
  | cons event later ih =>
    rw [followAll_cons, ih fun other member => untouched other (List.mem_cons_of_mem _ member),
      get?_follow, if_neg (untouched event List.mem_cons_self)]

/-- An event that leaves an entry under an id it touches has registered it. -/
theorem eq_register_of_touches {event : Event} (touched : event.Touches entry.id)
    (stands : (tree.follow event).get? entry.id = some entry) : event = .register entry := by
  cases event with
  | register other =>
    have same : other.id = entry.id := touched
    rw [follow, get?_insert, if_pos same] at stands
    rw [Option.some.inj stands]
  | unregister gone =>
    have same : gone = entry.id := touched
    rw [follow, get?_erase, if_pos same] at stands
    cases stands
  | own named => exact absurd touched id

/-- An entry stands after events if it stood before and nothing touched its id, or if it was
registered and nothing touched its id afterwards. -/
theorem get?_followAll_eq_some :
    (tree.followAll events).get? entry.id = some entry ↔
      (tree.get? entry.id = some entry ∧ ∀ event ∈ events, ¬event.Touches entry.id) ∨
        ∃ before after, events = before ++ .register entry :: after ∧
          ∀ event ∈ after, ¬event.Touches entry.id := by
  have set (tree : EntryTree) (event : Event) (touched : event.Touches entry.id) :
      (tree.follow event).get? entry.id = (empty.follow event).get? entry.id := by
    rw [get?_follow, if_pos touched]
  have left (tree : EntryTree) (event : Event) (untouched : ¬event.Touches entry.id) :
      (tree.follow event).get? entry.id = tree.get? entry.id := by
    rw [get?_follow, if_neg untouched]
  refine (look_foldl_eq_some (fun tree => tree.get? entry.id) (fun event => event.Touches entry.id)
    _ set left events tree).trans (or_congr_right ⟨?_, ?_⟩)
  · rintro ⟨before, event, after, whole, touched, stands, untouched⟩
    obtain rfl := eq_register_of_touches touched stands
    exact ⟨before, after, whole, untouched⟩
  · rintro ⟨before, after, whole, untouched⟩
    exact ⟨before, .register entry, after, whole, rfl, by simp [follow, get?_insert], untouched⟩

theorem mem_byHand :
    entry ∈ (byHand events).entries ↔
      ∃ before after, events = before ++ .register entry :: after ∧
        ∀ event ∈ after, ¬event.Touches entry.id := by
  rw [mem_entries, byHand, get?_followAll_eq_some]
  simp

/-- Events that leave an id alone commute with an entry that comes and goes under it. -/
theorem erase_followAll_insert (absent : tree.get? entry.id = none)
    (untouched : ∀ event ∈ events, ¬event.Touches entry.id) :
    ((tree.insert entry).followAll events).erase entry.id = tree.followAll events := by
  refine ext_get? fun id => ?_
  rw [get?_erase]
  by_cases same : entry.id = id
  · subst id
    rw [if_pos rfl, get?_followAll_of_untouched untouched, absent]
  · rw [if_neg same]
    apply get?_followAll_congr
    rw [get?_insert, if_neg same]

end EntryTree

/-- The events that a mutation brings about by itself. -/
def Mutation.events : Mutation → List Event
  | .register entry => [.register entry]
  | .unregister id => [.unregister id]
  | .toast _ => [.own true, .own false]

def Mutation.eventsOf (mutations : List Mutation) : List Event := mutations.flatMap Mutation.events

/-- The events that a reaction brings about by itself. -/
def Reaction.events (reaction : Reaction) : List Event :=
  Mutation.eventsOf reaction.beforeRead ++
    Mutation.eventsOf (reaction.afterRead ++ reaction.beforeStore) ++
    Mutation.eventsOf reaction.afterStore

/-- A course of events, and the reactions that are left after it. -/
structure Course where
  events : List Event
  left : List Reaction
deriving DecidableEq

namespace Course

/-- Events to come as they turn out: each uses up a reaction, whose events come next. -/
def unroll : List Event → List Reaction → Course
  | events, [] => ⟨events, []⟩
  | [], reaction :: rest => ⟨[], reaction :: rest⟩
  | event :: later, reaction :: rest =>
    let course := unroll (reaction.events ++ later) rest
    ⟨event :: course.events, course.left⟩

/-- What a host does during one publication. -/
def within : List Reaction → Course
  | [] => ⟨[], []⟩
  | reaction :: rest => unroll reaction.events rest

/-- One course after the other. -/
def followedBy (first : Course) (events : List Event) : Course :=
  let second := unroll events first.left
  ⟨first.events ++ second.events, second.left⟩

@[simp] theorem unroll_nil (reactions : List Reaction) : unroll [] reactions = ⟨[], reactions⟩ := by
  cases reactions <;> rfl

theorem unroll_append (first second : List Event) (reactions : List Reaction) :
    unroll (first ++ second) reactions = (unroll first reactions).followedBy second := by
  induction reactions generalizing first with
  | nil => simp [unroll, followedBy]
  | cons reaction rest ih =>
    cases first with
    | nil => simp [followedBy]
    | cons event later =>
      rw [List.cons_append, unroll, ← List.append_assoc, ih]
      rfl

theorem unroll_single (event : Event) (reactions : List Reaction) :
    unroll [event] reactions = ⟨event :: (within reactions).events, (within reactions).left⟩ := by
  cases reactions with
  | nil => rfl
  | cons reaction rest => simp [unroll, within]

end Course

end Caption
