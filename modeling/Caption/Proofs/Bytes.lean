import Mathlib.Data.List.Lex
import Caption.Order

/-!
Texts and the bytes that encode them. Code points are spelled in bytes of which the first ones weigh
most, so that texts compare as their bytes do.
-/
namespace Caption

namespace Text

/-- The UTF-8 bytes of a text. -/
def bytes (text : String) : List UInt8 := text.toByteArray.data.toList

theorem bytes_eq (text : String) : bytes text = text.toList.flatMap String.utf8EncodeChar := by
  rw [bytes, ← String.utf8Encode_toList]
  simp [List.utf8Encode]

theorem toNat_lt_of_char (char : Char) : char.toNat < 1114112 := by
  rcases char.valid with below | ⟨_, below⟩
  · exact Nat.lt_trans below (by decide)
  · exact below

/-- A smaller code point has the smaller bytes, whatever follows. -/
theorem encode_lt {first second : Char} (before : first.toNat < second.toNat)
    (left right : List UInt8) :
    String.utf8EncodeChar first ++ left < String.utf8EncodeChar second ++ right := by
  have room := toNat_lt_of_char second
  have byte (number : Nat) (room : number < 256) : (UInt8.ofNat number).toNat = number :=
    UInt8.toNat_ofNat_of_lt room
  simp only [Char.toNat] at before room
  unfold String.utf8EncodeChar
  simp only
  generalize first.val.toNat = smaller at before ⊢
  generalize second.val.toNat = larger at before room ⊢
  -- Spellings of one length differ in the first digit in which the code points differ, others in
  -- their first bytes.
  have few : smaller / 262144 % 8 = smaller / 262144 ∧ larger / 262144 % 8 = larger / 262144 := by
    omega
  split_ifs <;>
    simp (disch := omega) only [List.cons_append, List.nil_append, List.cons_lt_cons_iff,
      UInt8.lt_iff_toNat_lt, ← UInt8.toNat_inj, byte] <;>
    omega

theorem flatMap_encode_lt {left right : List Char} (before : precedes left right = true) :
    left.flatMap String.utf8EncodeChar < right.flatMap String.utf8EncodeChar := by
  induction left generalizing right with
  | nil =>
    cases right with
    | nil => simp [precedes] at before
    | cons head rest =>
      obtain ⟨byte, others, encoded⟩ :=
        List.exists_cons_of_ne_nil (@String.utf8EncodeChar_ne_nil head)
      rw [List.flatMap_cons, encoded]
      exact List.nil_lt_cons _ _
  | cons first left ih =>
    cases right with
    | nil => simp [precedes] at before
    | cons second right =>
      rw [List.flatMap_cons, List.flatMap_cons]
      rw [precedes] at before
      split at before
      · rename_i same
        rw [same]
        exact List.append_left_lt (ih before)
      · exact encode_lt (of_decide_eq_true before) _ _

/-- The order of texts is that of their bytes. -/
theorem before_iff_bytes_lt {left right : String} :
    before left right = true ↔ bytes left < bytes right := by
  rw [bytes_eq, bytes_eq]
  constructor
  · exact flatMap_encode_lt
  · intro smaller
    by_cases same : left = right
    · rw [same] at smaller
      exact absurd smaller (List.lt_irrefl _)
    · by_contra after
      have larger := before_total same (Bool.not_eq_true _ ▸ after)
      exact absurd (flatMap_encode_lt larger) (List.lt_asymm smaller)

end Text

end Caption
