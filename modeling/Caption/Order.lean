/-!
Texts in the order of their UTF-8 bytes, and lists kept strictly increasing under a text key.
-/
namespace Caption

namespace Text

/-- Code points compare exactly as the UTF-8 bytes that encode them, and a text comes before
every longer text that it begins. -/
def precedes : List Char → List Char → Bool
  | _, [] => false
  | [], _ :: _ => true
  | first :: left, second :: right =>
    if first = second then precedes left right else decide (first.toNat < second.toNat)

/-- The byte-wise order of texts. -/
def before (left right : String) : Bool := precedes left.toList right.toList

theorem precedes_irrefl (text : List Char) : precedes text text = false := by
  induction text with
  | nil => rfl
  | cons head rest ih => simp [precedes, ih]

theorem precedes_trans {first second third : List Char} (left : precedes first second = true)
    (right : precedes second third = true) : precedes first third = true := by
  induction first generalizing second third with
  | nil =>
    cases third with
    | nil => cases second <;> simp [precedes] at right
    | cons head rest => rfl
  | cons a first ih =>
    cases second with
    | nil => simp [precedes] at left
    | cons b second =>
      cases third with
      | nil => simp [precedes] at right
      | cons c third =>
        simp only [precedes] at left right ⊢
        split at left <;> split at right
        · subst a b
          simpa using ih left right
        · simp_all
        · simp_all
        · have below : a.toNat < c.toNat :=
            Nat.lt_trans (of_decide_eq_true left) (of_decide_eq_true right)
          have apart : a ≠ c := by
            intro same
            subst same
            omega
          simp [apart, below]

theorem precedes_total {first second : List Char} (different : first ≠ second)
    (after : precedes first second = false) : precedes second first = true := by
  induction first generalizing second with
  | nil =>
    cases second with
    | nil => exact absurd rfl different
    | cons head rest => simp [precedes] at after
  | cons a first ih =>
    cases second with
    | nil => rfl
    | cons b second =>
      simp only [precedes] at after ⊢
      split at after
      · subst a
        have others : first ≠ second := by
          intro same
          subst same
          exact different rfl
        simpa using ih others after
      · rename_i apart
        have unequal : a.toNat ≠ b.toNat := fun same => apart (Char.toNat_inj.mp same)
        have above := of_decide_eq_false after
        simp only [Ne.symm apart, if_false, decide_eq_true_eq]
        omega

theorem before_irrefl (text : String) : before text text = false := precedes_irrefl _

theorem before_trans {first second third : String} (left : before first second = true)
    (right : before second third = true) : before first third = true :=
  precedes_trans left right

theorem before_total {first second : String} (different : first ≠ second)
    (after : before first second = false) : before second first = true :=
  precedes_total (fun same => different (String.toList_inj.mp same)) after

theorem ne_of_before {first second : String} (left : before first second = true) :
    first ≠ second := by
  rintro rfl
  simp [before_irrefl] at left

theorem not_before_of_before {first second : String} (left : before first second = true) :
    before second first = false := by
  cases right : before second first with
  | false => rfl
  | true =>
    have loop := before_trans left right
    simp [before_irrefl] at loop

end Text

/-! A finite map is a list whose keys strictly increase; looking up never depends on the order. -/
namespace Keyed

variable {α : Type} (key : α → String)

/-- Keys strictly increase, so that no key occurs twice. -/
def Sorted (items : List α) : Prop :=
  items.Pairwise fun left right => Text.before (key left) (key right) = true

instance (items : List α) : Decidable (Sorted key items) := by unfold Sorted; infer_instance

/-- The item under a key. -/
def get? (name : String) (items : List α) : Option α := items.find? fun item => key item == name

/-- Store an item under its key: it replaces the item of that key, or takes the place that
keeps the keys increasing. -/
def put (item : α) : List α → List α
  | [] => [item]
  | head :: rest =>
    if key item = key head then item :: rest
    else if Text.before (key item) (key head) then item :: head :: rest
    else head :: put item rest

/-- Forget the item under a key. -/
def remove (name : String) (items : List α) : List α := items.filter fun item => key item != name

/-- Store items one after the other, so that the last one of a key stays. -/
def putAll (items : List α) (start : List α) : List α :=
  items.foldl (fun kept item => put key item kept) start

variable {key}

theorem mem_put {item other : α} {items : List α} (member : other ∈ put key item items) :
    other = item ∨ other ∈ items := by
  induction items with
  | nil => simpa [put] using member
  | cons head rest ih =>
    simp only [put] at member
    split at member
    · simp only [List.mem_cons] at member ⊢
      grind
    · split at member
      · simpa using member
      · simp only [List.mem_cons] at member ⊢
        grind

theorem sorted_put (item : α) {items : List α} (sorted : Sorted key items) :
    Sorted key (put key item items) := by
  induction items with
  | nil => simp [put, Sorted]
  | cons head rest ih =>
    have above := (List.pairwise_cons.mp sorted).1
    have tail : Sorted key rest := (List.pairwise_cons.mp sorted).2
    simp only [put]
    split
    · rename_i same
      refine List.pairwise_cons.mpr ⟨fun other member => ?_, tail⟩
      rw [same]
      exact above other member
    · rename_i different
      split
      · rename_i first
        refine List.pairwise_cons.mpr ⟨fun other member => ?_, sorted⟩
        rcases List.mem_cons.mp member with rfl | later
        · exact first
        · exact Text.before_trans first (above other later)
      · rename_i notFirst
        refine List.pairwise_cons.mpr ⟨fun other member => ?_, ih tail⟩
        rcases mem_put member with rfl | later
        · exact Text.before_total different (by simpa using notFirst)
        · exact above other later

theorem sorted_remove (name : String) {items : List α} (sorted : Sorted key items) :
    Sorted key (remove key name items) :=
  List.Pairwise.filter _ sorted

end Keyed

end Caption
