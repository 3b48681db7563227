import Caption.Json.Printer
import Caption.Json.Token

/-!
The tokens of a text that is put together of parts. Only a numeral can grow by what follows it, so
parts are split on their own if what follows does not go on a numeral; what is printed for a text or a
whole number is one token, from which it is read back.
-/
namespace Caption

/-- A unit that is no half of a surrogate pair stands for a character. -/
theorem Piece.text?_unit {value : Nat} (high : isHigh value = false) (low : isLow value = false)
    (pieces : List Piece) :
    text? (.unit value :: pieces) = (text? pieces).map (Char.ofNat value :: ·) := by
  rw [text?.eq_def]
  simp only [high, low, Bool.false_eq_true, if_false]

namespace Token

theorem scanAfter_nil (done : List Token) : scanAfter done [] = some done.reverse := by
  rw [scanAfter]

theorem scanAfter_blank {blank : Char} (separates : isBlank blank = true) (done : List Token)
    (rest : List Char) : scanAfter done (blank :: rest) = scanAfter done rest := by
  rw [scanAfter, if_pos separates]

theorem scanAfter_read {first : Char} {rest after : List Char} {token : Token}
    (separates : isBlank first = false) (read : read? first rest = some (token, after))
    (done : List Token) : scanAfter done (first :: rest) = scanAfter (token :: done) after := by
  rw [scanAfter, if_neg (by simp [separates])]
  split
  · rename_i failed
    rw [read] at failed
    cases failed
  · rename_i found
    rw [read] at found
    cases found
    rfl

/-- Whether a text does not go on a numeral that it follows. -/
def EndsNumeral : List Char → Prop
  | [] => True
  | next :: _ => next.isDigit = false ∧ next ≠ '.' ∧ next ≠ 'e' ∧ next ≠ 'E'

/-- Whether a text is split into tokens, wherever it stands. -/
def Scans (text : List Char) (tokens : List Token) : Prop :=
  ∀ done rest, EndsNumeral rest →
    scanAfter done (text ++ rest) = scanAfter (tokens.reverse ++ done) rest

section Parts

variable {text later : List Char} {tokens others : List Token} {first : Char} {token : Token}

theorem scan_of_scans (split : Scans text tokens) : scan text = some tokens := by
  have whole := split [] [] trivial
  rwa [List.append_nil, List.append_nil, scanAfter_nil, List.reverse_reverse] at whole

/-- A token that is read off the head of every text that goes on with the rest of it. -/
theorem scans_of_read (separates : isBlank first = false)
    (read : ∀ rest, EndsNumeral rest → read? first (text ++ rest) = some (token, rest)) :
    Scans (first :: text) [token] := by
  intro done rest ends
  rw [List.cons_append, scanAfter_read separates (read rest ends)]
  rfl

theorem Scans.append (split : Scans text tokens) (next : Scans later others)
    (ends : ∀ rest, EndsNumeral (later ++ rest)) : Scans (text ++ later) (tokens ++ others) := by
  intro done rest after
  rw [List.append_assoc, split done _ (ends rest), next _ rest after, List.reverse_append,
    List.append_assoc]

theorem Scans.blank (next : Scans text tokens) (separates : isBlank first = true) :
    Scans (first :: text) tokens := by
  intro done rest after
  rw [List.cons_append, scanAfter_blank separates, next done rest after]

theorem Scans.indent (next : Scans text tokens) (level : Nat) :
    Scans (Json.indent level ++ text) tokens := by
  rw [Json.indent]
  induction 2 * level with
  | zero => exact next
  | succ count ih => exact ih.blank rfl

theorem Scans.sign (next : Scans text tokens) (separates : isBlank first = false)
    (read : ∀ rest, read? first rest = some (token, rest)) :
    Scans (first :: text) (token :: tokens) := by
  intro done rest after
  rw [List.cons_append, scanAfter_read separates (read _), next _ rest after, List.reverse_cons,
    List.append_assoc]
  rfl

end Parts

theorem readString_letter {letter character : Char} (stands : escaped? letter = some character)
    (rest : List Char) : readString ('\\' :: letter :: rest) =
      (readString rest).map fun (pieces, after) => (.char character :: pieces, after) := by
  have short : letter ≠ 'u' := by
    rintro rfl
    cases stands
  rw [readString, stands]
  · cases readString rest <;> rfl
  · intro _ _ _ _ _ same
    exact absurd same short

/-- What is printed for a character is one piece of a string, which stands for the character. -/
theorem readString_escape (character : Char) :
    ∃ piece, (∀ rest, readString (Json.escape character ++ rest) =
        (readString rest).map fun (pieces, after) => (piece :: pieces, after)) ∧
      ∀ pieces, Piece.text? (piece :: pieces) = (Piece.text? pieces).map (character :: ·) := by
  unfold Json.escape
  split
  case h_8 quote backslash _ _ _ _ _ =>
    split
    · -- The other control characters are written as units, none of which is half of a pair.
      rename_i control
      have digits : ∀ code < 32, hexUnit? '0' '0' (Nat.digitChar (code / 16))
          (Nat.digitChar (code % 16)) = some code := by decide
      have single : ∀ code < 32, Piece.isHigh code = false ∧ Piece.isLow code = false := by decide
      obtain ⟨high, low⟩ := single _ control
      refine ⟨.unit character.toNat, fun rest => ?_, fun pieces => ?_⟩
      · simp only [Json.hexPair, List.cons_append, List.nil_append, readString, digits _ control]
        cases readString rest <;> rfl
      · rw [Piece.text?_unit high low, Char.ofNat_toNat]
    · rename_i printed
      refine ⟨.char character, fun rest => ?_, fun pieces => rfl⟩
      rw [List.singleton_append, readString, if_neg printed]
      · cases readString rest <;> rfl
      all_goals simp_all
  all_goals exact ⟨.char _, readString_letter rfl, fun pieces => rfl⟩

theorem readString_quoted (text : List Char) :
    ∃ pieces, (∀ rest, readString (text.flatMap Json.escape ++ '"' :: rest) = some (pieces, rest)) ∧
      Piece.text? pieces = some text := by
  induction text with
  | nil => exact ⟨[], fun rest => rfl, rfl⟩
  | cons character text ih =>
    obtain ⟨pieces, read, same⟩ := ih
    obtain ⟨piece, first, adds⟩ := readString_escape character
    refine ⟨piece :: pieces, fun rest => ?_, ?_⟩
    · rw [List.flatMap_cons, List.append_assoc, first, read, Option.map_some]
    · rw [adds, same, Option.map_some]

theorem scans_quote (text : String) :
    ∃ pieces, Scans (Json.quote text) [.string pieces] ∧ Piece.string? pieces = some text := by
  obtain ⟨pieces, read, same⟩ := readString_quoted text.toList
  refine ⟨pieces, scans_of_read rfl fun rest _ => ?_, ?_⟩
  · rw [List.append_assoc, List.singleton_append, read?, read, Option.map_some]
  · rw [Piece.string?, same, Option.map_some, String.ofList_toList]

section Numerals

variable {rest : List Char}

theorem takeWhile_isDigit (ends : EndsNumeral rest) : rest.takeWhile Char.isDigit = [] := by
  cases rest with
  | nil => rfl
  | cons next rest => simp [ends.1]

theorem dropWhile_isDigit (ends : EndsNumeral rest) : rest.dropWhile Char.isDigit = rest := by
  cases rest with
  | nil => rfl
  | cons next rest => simp [ends.1]

theorem readDigits_append {digits : List Char} (numeric : ∀ digit ∈ digits, digit.isDigit = true)
    (nonempty : digits ≠ []) (ends : EndsNumeral rest) :
    readDigits (digits ++ rest) = some (digits, rest) := by
  rw [readDigits, List.takeWhile_append_of_pos numeric, List.dropWhile_append_of_pos numeric,
    takeWhile_isDigit ends, dropWhile_isDigit ends, List.append_nil]
  split
  · exact absurd rfl nonempty
  · rfl

theorem readFraction_of_ends (ends : EndsNumeral rest) : readFraction rest = some ([], rest) := by
  unfold readFraction
  split
  · exact absurd rfl ends.2.1
  · rfl

theorem readExponent_of_ends (ends : EndsNumeral rest) : readExponent rest = some (none, rest) := by
  unfold readExponent
  split
  · exact absurd rfl ends.2.2.1
  · exact absurd rfl ends.2.2.2
  · rfl

/-- The digits of a positive number do not begin with a zero. -/
theorem toDigits_append_ne {number : Nat} (positive : 0 < number) (rest tail : List Char) :
    Nat.toDigits 10 number ++ rest ≠ '0' :: tail := by
  induction number using Nat.strongRecOn generalizing rest with
  | ind number ih =>
    by_cases small : number < 10
    · have digits : ∀ digit < 10, 0 < digit → Nat.digitChar digit ≠ '0' := by decide
      rw [Nat.toDigits_of_lt_base small]
      intro same
      exact digits number small positive (List.cons.inj same).1
    · rw [Nat.toDigits_of_base_le (by omega) (Nat.le_of_not_lt small), List.append_assoc]
      exact ih (number / 10) (by omega) (by omega) _

theorem readWhole_toDigits (number : Nat) (ends : EndsNumeral rest) :
    readWhole (Nat.toDigits 10 number ++ rest) = some (Nat.toDigits 10 number, rest) := by
  rcases Nat.eq_zero_or_pos number with rfl | positive
  · rfl
  · unfold readWhole
    split
    · rename_i same
      exact absurd same (toDigits_append_ne positive rest _)
    · exact readDigits_append (fun digit => Nat.isDigit_of_mem_toDigits (by omega) (by omega))
        Nat.toDigits_ne_nil ends

theorem readNumeral_toDigits (negative : Bool) (number : Nat) (ends : EndsNumeral rest) :
    readNumeral negative (Nat.toDigits 10 number ++ rest) =
      some (⟨negative, Nat.toDigits 10 number, [], none⟩, rest) := by
  simp [readNumeral, readWhole_toDigits number ends, readFraction_of_ends ends,
    readExponent_of_ends ends]

theorem read?_of_isDigit {first : Char} (digit : first.isDigit = true) (rest : List Char) :
    read? first rest =
      (readNumeral false (first :: rest)).map fun (numeral, after) => (.number numeral, after) := by
  unfold read?
  split
  case h_12 => rw [if_pos digit]
  all_goals cases digit

theorem isBlank_of_isDigit {first : Char} (digit : first.isDigit = true) :
    isBlank first = false := by
  rw [isBlank, Bool.eq_false_iff]
  intro blank
  simp only [Bool.or_eq_true, beq_iff_eq] at blank
  rcases blank with ((rfl | rfl) | rfl) | rfl <;> cases digit

theorem scans_ofInt (value : Int) :
    Scans (Decimal.ofInt value)
      [.number ⟨decide (value < 0), Nat.toDigits 10 value.natAbs, [], none⟩] := by
  rw [Decimal.ofInt]
  split
  · rename_i negative
    refine scans_of_read rfl fun rest ends => ?_
    rw [read?, readNumeral_toDigits true _ ends]
    simp [negative]
  · rename_i positive
    have digits := fun rest => @readNumeral_toDigits rest false value.natAbs
    have numeric : ∀ digit ∈ Nat.toDigits 10 value.natAbs, digit.isDigit = true :=
      fun digit => Nat.isDigit_of_mem_toDigits (by omega) (by omega)
    have nonempty : Nat.toDigits 10 value.natAbs ≠ [] := Nat.toDigits_ne_nil
    cases written : Nat.toDigits 10 value.natAbs with
    | nil => exact absurd written nonempty
    | cons first later =>
      rw [written] at digits numeric
      have digit := numeric first List.mem_cons_self
      refine scans_of_read (isBlank_of_isDigit digit) fun rest ends => ?_
      rw [read?_of_isDigit digit, ← List.cons_append, digits rest ends]
      simp [positive]

end Numerals

end Token

end Caption
