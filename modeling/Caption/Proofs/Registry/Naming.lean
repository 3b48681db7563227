import Mathlib.Algebra.Group.Nat.Defs
import Caption.Registry.Surface

/-! Fresh ids sort as the counters that they are made of. -/
namespace Caption

namespace Text

theorem precedes_append_left (shared left right : List Char) :
    precedes (shared ++ left) (shared ++ right) = precedes left right := by
  induction shared with
  | nil => rfl
  | cons head rest ih => simpa [precedes] using ih

theorem precedes_append {first second : List Char} (left right : List Char)
    (same : first.length = second.length) (before : precedes first second = true) :
    precedes (first ++ left) (second ++ right) = true := by
  induction first generalizing second with
  | nil =>
    obtain rfl := List.length_eq_zero_iff.mp same.symm
    simp [precedes] at before
  | cons head rest ih =>
    cases second with
    | nil => simp at same
    | cons other later =>
      simp only [List.cons_append, precedes] at before ⊢
      by_cases equal : head = other
      · simp only [equal, if_true] at before ⊢
        exact ih (Nat.succ.inj same) before
      · simpa only [equal, if_false] using before

end Text

/-- The last digits of a number, as many as there is room for. -/
def lastDigits : Nat → Nat → List Char
  | 0, _ => []
  | width + 1, number => lastDigits width (number / 10) ++ [Nat.digitChar (number % 10)]

@[simp] theorem length_lastDigits (width number : Nat) :
    (lastDigits width number).length = width := by
  induction width generalizing number with
  | zero => rfl
  | succ width ih => simp [lastDigits, ih]

theorem lastDigits_zero (width : Nat) : lastDigits width 0 = List.replicate width '0' := by
  induction width with
  | zero => rfl
  | succ width ih => rw [lastDigits, Nat.zero_div, ih, List.replicate_succ']; rfl

/-- The digits of a number that has room are its last digits behind zeros. -/
theorem padded_eq_lastDigits {width number : Nat} (room : number < 10 ^ (width + 1)) :
    List.replicate (width + 1 - (Nat.toDigits 10 number).length) '0' ++ Nat.toDigits 10 number =
      lastDigits (width + 1) number := by
  induction width generalizing number with
  | zero =>
    have small : number < 10 := by simpa using room
    rw [Nat.toDigits_of_lt_base small]
    simp [lastDigits, Nat.mod_eq_of_lt small]
  | succ width ih =>
    by_cases small : number < 10
    · rw [Nat.toDigits_of_lt_base small, lastDigits, Nat.div_eq_of_lt small, lastDigits_zero,
        Nat.mod_eq_of_lt small]
      rfl
    · have fewer : number / 10 < 10 ^ (width + 1) := by
        rw [Nat.div_lt_iff_lt_mul (by omega), ← Nat.pow_succ]
        exact room
      rw [Nat.toDigits_of_base_le (by omega) (Nat.le_of_not_lt small), lastDigits, ← ih fewer,
        List.length_append, List.length_singleton, Nat.add_sub_add_right, List.append_assoc]

theorem precedes_digitChar {smaller larger : Nat} (before : smaller < larger) (digit : larger < 10) :
    Text.precedes [Nat.digitChar smaller] [Nat.digitChar larger] = true := by
  have decided : ∀ large : Fin 10, ∀ small : Fin 10, small < large →
      Text.precedes [Nat.digitChar small] [Nat.digitChar large] = true := by decide
  exact decided ⟨larger, digit⟩ ⟨smaller, by omega⟩ before

theorem precedes_lastDigits {width smaller larger : Nat} (before : smaller < larger)
    (room : larger < 10 ^ width) :
    Text.precedes (lastDigits width smaller) (lastDigits width larger) = true := by
  induction width generalizing smaller larger with
  | zero => simp at room; omega
  | succ width ih =>
    have fewer : larger / 10 < 10 ^ width := by
      rw [Nat.div_lt_iff_lt_mul (by omega), ← Nat.pow_succ]
      exact room
    rw [lastDigits, lastDigits]
    by_cases same : smaller / 10 = larger / 10
    · rw [same, Text.precedes_append_left]
      exact precedes_digitChar (by omega) (Nat.mod_lt _ (by omega))
    · exact Text.precedes_append _ _ (by simp) (ih (by omega) fewer)

theorem toList_idOfCounter (counter : UInt64) :
    (idOfCounter counter).toList = 'd' :: lastDigits 20 counter.toNat := by
  have room : counter.toNat < 10 ^ 20 := Nat.lt_trans counter.toNat_lt (by decide)
  rw [idOfCounter, String.toList_ofList, padded_eq_lastDigits room]

theorem length_idOfCounter (counter : UInt64) : (idOfCounter counter).length = 21 := by
  rw [← String.length_toList, toList_idOfCounter, List.length_cons, length_lastDigits]

theorem before_idOfCounter {smaller larger : UInt64} (before : smaller < larger) :
    Text.before (idOfCounter smaller) (idOfCounter larger) = true := by
  have room : larger.toNat < 10 ^ 20 := Nat.lt_trans larger.toNat_lt (by decide)
  rw [Text.before, toList_idOfCounter, toList_idOfCounter]
  simpa [Text.precedes] using precedes_lastDigits (UInt64.lt_iff_toNat_lt.mp before) room

theorem idOfCounter_inj {first second : UInt64} :
    idOfCounter first = idOfCounter second ↔ first = second := by
  constructor
  · intro same
    rcases Nat.lt_trichotomy first.toNat second.toNat with before | equal | after
    · exact absurd same (Text.ne_of_before (before_idOfCounter (UInt64.lt_iff_toNat_lt.mpr before)))
    · exact UInt64.toNat_inj.mp equal
    · exact absurd same.symm
        (Text.ne_of_before (before_idOfCounter (UInt64.lt_iff_toNat_lt.mpr after)))
  · rintro rfl
    rfl

theorem Surface.toNat_succ {counter : UInt64} (room : counter.toNat + 1 < 2 ^ 64) :
    (counter + 1).toNat = counter.toNat + 1 := by
  rw [UInt64.toNat_add, UInt64.toNat_one]
  exact Nat.mod_eq_of_lt room

/-- The next fresh ids from a counter on, as many as are asked for. -/
def idsFrom (counter : UInt64) : Nat → List String
  | 0 => []
  | count + 1 => idOfCounter counter :: idsFrom (counter + 1) count

section IdsFrom

variable {counter : UInt64} {count : Nat} {id : String}

@[simp] theorem length_idsFrom (counter : UInt64) (count : Nat) :
    (idsFrom counter count).length = count := by
  induction count generalizing counter with
  | zero => rfl
  | succ count ih => rw [idsFrom, List.length_cons, ih]

theorem idsFrom_add (counter : UInt64) (first second : Nat) :
    idsFrom counter (first + second) =
      idsFrom counter first ++ idsFrom (counter + UInt64.ofNat first) second := by
  induction first generalizing counter with
  | zero => simp [idsFrom]
  | succ first ih =>
    have next : counter + 1 + UInt64.ofNat first = counter + UInt64.ofNat (first + 1) := by
      rw [UInt64.add_assoc, Nat.add_comm first, UInt64.ofNat_add]
      rfl
    rw [Nat.succ_add, idsFrom, ih, next, idsFrom, List.cons_append]

theorem mem_idsFrom (room : counter.toNat + count < 2 ^ 64) (member : id ∈ idsFrom counter count) :
    ∃ number, counter ≤ number ∧ id = idOfCounter number := by
  induction count generalizing counter with
  | zero => cases member
  | succ count ih =>
    have next : (counter + 1).toNat = counter.toNat + 1 := Surface.toNat_succ (by omega)
    rcases List.mem_cons.mp member with rfl | later
    · exact ⟨counter, UInt64.le_refl _, rfl⟩
    · obtain ⟨number, behind, named⟩ := ih (by omega) later
      refine ⟨number, ?_, named⟩
      rw [UInt64.le_iff_toNat_le] at behind ⊢
      omega

/-- As long as the counter does not run over, each id comes before those that are taken after it. -/
theorem pairwise_idsFrom (room : counter.toNat + count < 2 ^ 64) :
    (idsFrom counter count).Pairwise fun left right => Text.before left right = true := by
  induction count generalizing counter with
  | zero => exact List.Pairwise.nil
  | succ count ih =>
    have next : (counter + 1).toNat = counter.toNat + 1 := Surface.toNat_succ (by omega)
    refine List.pairwise_cons.mpr ⟨fun id member => ?_, ih (by omega)⟩
    obtain ⟨number, behind, rfl⟩ := mem_idsFrom (by omega) member
    refine before_idOfCounter ?_
    rw [UInt64.le_iff_toNat_le] at behind
    rw [UInt64.lt_iff_toNat_lt]
    omega

end IdsFrom

end Caption
