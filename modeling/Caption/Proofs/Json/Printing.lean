import Mathlib.Algebra.Group.Int.Defs
import Mathlib.Data.List.Forall2
import Caption.Proofs.Json.Parsing
import Caption.Proofs.Json.Regular
import Caption.Proofs.Json.Scanning

/-!
Values that are read again from the text they are printed as: those with increasing keys, with no
more containers around one another than may be read, and with numbers that are read back. Whatever
is read from a text is such a value, its numbers with a fraction or an exponent apart.
-/
namespace Caption

/-- An integer is read from a numeral only if it fits a word of 64 bits. -/
theorem Numeral.bounds_of_number? {numeral : Numeral} {value : Int}
    (read : numeral.number? = some (.integer value)) : -2 ^ 63 ≤ value ∧ value < 2 ^ 64 := by
  have powers : Nat.pow 2 64 = 18446744073709551616 ∧ Nat.pow 2 63 = 9223372036854775808 := ⟨rfl, rfl⟩
  simp only [number?] at read
  split at read
  · cases read
    omega
  · split at read
    · cases read
      omega
    · obtain ⟨real, _, same⟩ := Option.map_eq_some_iff.mp read
      cases same

namespace Number

def IsInteger : Number → Prop
  | .integer _ => True
  | .real _ => False

instance : DecidablePred IsInteger
  | .integer _ => isTrue trivial
  | .real _ => isFalse id

/-- Whether what is printed for a number is one numeral, of which the number is read back. -/
def ReadsBack (number : Number) : Prop :=
  ∃ numeral, Token.Scans number.render [.number numeral] ∧ numeral.number? = some number

theorem readsBack_integer {value : Int} (low : -2 ^ 63 ≤ value) (high : value < 2 ^ 64) :
    (integer value).ReadsBack := by
  refine ⟨_, Token.scans_ofInt value, ?_⟩
  rw [Numeral.number?, Nat.ofDigitChars_toDigits (by omega) (by omega)]
  by_cases negative : value < 0
  · have magnitude : 0 < value.natAbs ∧ value.natAbs ≤ Nat.pow 2 63 := by
      have power : Nat.pow 2 63 = 9223372036854775808 := rfl
      omega
    rw [if_neg (by simp [negative]), if_pos (by simpa [negative] using magnitude)]
    congr 2
    omega
  · have magnitude : value.natAbs < Nat.pow 2 64 := by
      have power : Nat.pow 2 64 = 18446744073709551616 := rfl
      omega
    rw [if_pos (by simpa [negative] using magnitude)]
    congr 2
    omega

theorem readsBack_of_isInteger {number : Number} (exact : number.IsInteger)
    (written : number.HasNumeral) : number.ReadsBack := by
  obtain ⟨numeral, read⟩ := written
  cases number with
  | integer value =>
    obtain ⟨low, high⟩ := Numeral.bounds_of_number? read
    exact readsBack_integer low high
  | real value => cases exact

end Number

/-- What is found for each item of a list is found for the list. -/
theorem exists_forall₂ {α β : Type} {stands : α → β → Prop} {items : List α}
    (each : ∀ item ∈ items, ∃ other, stands item other) :
    ∃ others, List.Forall₂ stands items others := by
  induction items with
  | nil => exact ⟨[], .nil⟩
  | cons item rest ih =>
    obtain ⟨⟨other, first⟩, later⟩ := List.forall_mem_cons.mp each
    obtain ⟨others, related⟩ := ih later
    exact ⟨other :: others, .cons first related⟩

namespace Json

open Token (Scans)
open Written (tokensOfItems tokensOfMembers values? entries?)

section Lines

variable {text : List Char} {tokens : List Token} {opening closing : Char} {first last : Token}

theorem scans_nil : Scans [] [] := fun _ _ _ => rfl

/-- Lines between brackets that stand on lines of their own. -/
theorem scans_enclosed (inner : Scans text tokens) (level : Nat)
    (opens : ∀ rest, Token.read? opening rest = some (first, rest))
    (closes : ∀ rest, Token.read? closing rest = some (last, rest))
    (visible : Token.isBlank opening = false ∧ Token.isBlank closing = false) :
    Scans (opening :: '\n' :: (text ++ '\n' :: (indent level ++ [closing])))
      (first :: (tokens ++ [last])) := by
  have ending : Scans ('\n' :: (indent level ++ [closing])) [last] :=
    ((scans_nil.sign visible.2 closes).indent level).blank rfl
  refine Scans.sign ?_ visible.1 opens
  exact (inner.append ending fun rest => by simp [Token.EndsNumeral]).blank rfl

/-- An item before another one. -/
theorem scans_separated {later : List Char} {others : List Token} (one : Scans text tokens)
    (next : Scans later others) :
    Scans (text ++ ',' :: '\n' :: later) (tokens ++ .comma :: others) := by
  refine one.append ?_ fun rest => by simp [Token.EndsNumeral]
  exact (next.blank rfl).sign rfl fun rest => rfl

theorem scans_member {key : String} {pieces : List Piece}
    (named : Scans (quote key) [.string pieces]) (value : Scans text tokens) (level : Nat) :
    Scans (indent level ++ quote key ++ ':' :: ' ' :: text)
      (.string pieces :: .colon :: tokens) := by
  have start : Scans (indent level ++ quote key) [.string pieces] := named.indent level
  have rest : Scans (':' :: ' ' :: text) (.colon :: tokens) := (value.blank rfl).sign rfl fun _ => rfl
  exact start.append rest fun later => by simp [Token.EndsNumeral]

end Lines

/-- A tree that stands for what is printed for a value: the text is split into its tokens, and the
value is its value. -/
structure PrintedAs (room : Nat) (value : Json) (tree : Written) : Prop where
  splits : ∀ level, Scans (prettyAt level value) tree.tokens
  reads : tree.value? room = some value

/-- A written member that stands for what is printed for a member. -/
structure PrintedMember (room : Nat) (member : String × Json) (written : List Piece × Written) :
    Prop where
  names : Scans (quote member.1) [.string written.1]
  key : Piece.string? written.1 = some member.1
  value : PrintedAs room member.2 written.2

variable {room : Nat}

section Lists

variable {items : List Json} {trees : List Written}
  {members : List (String × Json)} {written : List (List Piece × Written)}

theorem scans_items (printed : List.Forall₂ (PrintedAs room) items trees) (level : Nat) :
    Scans (prettyItems level items) (tokensOfItems trees) := by
  induction printed with
  | nil => exact scans_nil
  | cons first others ih =>
    have line := (first.splits level).indent level
    cases others with
    | nil => exact line
    | cons second more => exact scans_separated line ih

theorem values?_eq_some (printed : List.Forall₂ (PrintedAs room) items trees) :
    values? room trees = some items := by
  induction printed with
  | nil => rfl
  | cons first others ih => simp [values?, first.reads, ih]

theorem scans_members (printed : List.Forall₂ (PrintedMember room) members written) (level : Nat) :
    Scans (prettyMembers level members) (tokensOfMembers written) := by
  induction printed with
  | nil => exact scans_nil
  | cons first others ih =>
    have value := first.value.splits level
    cases others with
    | nil => exact scans_member first.names value level
    | cons second more => exact scans_member first.names (scans_separated value ih) level

theorem entries?_eq_some (printed : List.Forall₂ (PrintedMember room) members written) :
    entries? room written = some members := by
  induction printed with
  | nil => rfl
  | cons first others ih => simp [entries?, first.key, first.value.reads, ih]

end Lists

/-- A regular value whose numbers are read back is printed as a tree. -/
theorem Regular.exists_printedAs {value : Json} (regular : value.Regular Number.ReadsBack room) :
    ∃ tree, PrintedAs room value tree := by
  induction regular with
  | null => exact ⟨.null, fun level => Token.scans_of_read rfl fun rest _ => rfl, rfl⟩
  | bool flag =>
    refine ⟨.bool flag, fun level => ?_, rfl⟩
    cases flag <;> exact Token.scans_of_read rfl fun rest _ => rfl
  | number own =>
    obtain ⟨numeral, split, read⟩ := own
    exact ⟨.number numeral, fun level => split, by simp [Written.value?, read]⟩
  | string text =>
    obtain ⟨pieces, split, same⟩ := Token.scans_quote text
    exact ⟨.string pieces, fun level => split, by simp [Written.value?, same]⟩
  | @array room items each ih =>
    -- An empty array has no lines: its brackets stand side by side.
    obtain ⟨trees, printed⟩ := exists_forall₂ ih
    refine ⟨.array trees, fun level => ?_, by simp [Written.value?, values?_eq_some printed]⟩
    cases items with
    | nil =>
      cases printed
      exact (scans_nil.sign rfl fun _ => rfl).sign rfl fun _ => rfl
    | cons item rest =>
      exact scans_enclosed (scans_items printed (level + 1)) level (fun _ => rfl) (fun _ => rfl)
        ⟨rfl, rfl⟩
  | @object room members increasing each ih =>
    have named : ∀ member ∈ members, ∃ written, PrintedMember room member written := by
      intro member listed
      obtain ⟨tree, printed⟩ := ih member listed
      obtain ⟨pieces, split, same⟩ := Token.scans_quote member.1
      exact ⟨(pieces, tree), split, same, printed⟩
    obtain ⟨written, printed⟩ := exists_forall₂ named
    refine ⟨.object written, fun level => ?_, ?_⟩
    · cases members with
      | nil =>
        cases printed
        exact (scans_nil.sign rfl fun _ => rfl).sign rfl fun _ => rfl
      | cons member rest =>
        exact scans_enclosed (scans_members printed (level + 1)) level (fun _ => rfl) (fun _ => rfl)
          ⟨rfl, rfl⟩
    · -- The members are printed in the order of their keys, so storing them again changes nothing.
      have stored : Members.ofList members = members := Keyed.putAll_nil increasing
      simp [Written.value?, entries?_eq_some printed, stored]

/-- A regular value whose numbers are read back is read from the text it is printed as. -/
theorem read?_pretty {value : Json} (regular : value.Regular Number.ReadsBack nestingLimit) :
    read? value.pretty = some value := by
  obtain ⟨tree, printed⟩ := regular.exists_printedAs
  have split : Token.scan value.pretty.toList = some tree.tokens := by
    rw [pretty, String.toList_ofList]
    exact Token.scan_of_scans (printed.splits 0)
  rw [read?, Written.read?_eq_some split]
  exact printed.reads

end Json

end Caption
