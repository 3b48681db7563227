/-!
Texts and their lines. A text that is put together from parts with line feeds between them falls apart
into the lines of its parts.
-/
namespace Caption

namespace Text

/-- The parts of a text between its line feeds. -/
def split (text : String) : List String := (text.toList.splitOn '\n').map String.ofList

/-- The lines of a text, of which the empty one has none. -/
def lines (text : String) : List String := if text = "" then [] else split text

def IsLine (text : String) : Prop := '\n' ∉ text.toList

instance (text : String) : Decidable (IsLine text) :=
  inferInstanceAs (Decidable ('\n' ∉ text.toList))

theorem isLine_append {before after : String} :
    IsLine (before ++ after) ↔ IsLine before ∧ IsLine after := by
  simp [IsLine, String.toList_append]

/-- A line feed parts a text into what is before it and what is after it. -/
theorem split_append (before after : String) :
    split (before ++ "\n" ++ after) = split before ++ split after := by
  have feed : ("\n" : String).toList = ['\n'] := rfl
  rw [split, String.toList_append, String.toList_append, feed, List.append_assoc,
    List.singleton_append, List.splitOn, List.splitOnP_append_cons _ _ (by simp), List.map_append]
  rfl

theorem split_of_isLine {text : String} (line : IsLine text) : split text = [text] := by
  have apart : ∀ part ∈ [text.toList], '\n' ∉ part := by
    intro part member
    rw [List.mem_singleton.mp member]
    exact line
  have parts := List.splitOn_intercalate '\n' apart (List.cons_ne_nil _ _)
  rw [List.intercalate_singleton] at parts
  rw [split, parts, List.map_singleton, String.ofList_toList]

theorem length_split_pos (text : String) : 0 < (split text).length := by
  rw [split, List.length_map]
  exact List.length_pos_iff.mpr (List.splitOn_ne_nil _ _)

theorem length_split_eq_one {text : String} : (split text).length = 1 ↔ IsLine text := by
  constructor
  · intro single feed
    obtain ⟨before, after, parted⟩ := List.append_of_mem feed
    have whole : text = String.ofList before ++ "\n" ++ String.ofList after := by
      apply String.toList_inj.mp
      rw [parted]
      simp
    rw [whole, split_append, List.length_append] at single
    have first := length_split_pos (String.ofList before)
    have second := length_split_pos (String.ofList after)
    omega
  · intro line
    rw [split_of_isLine line, List.length_singleton]

/-- Parts with line feeds between them. -/
theorem split_intercalate {parts : List String} (nonempty : parts ≠ []) :
    split (String.intercalate "\n" parts) = parts.flatMap split := by
  induction parts with
  | nil => exact absurd rfl nonempty
  | cons part rest ih =>
    cases rest with
    | nil => simp
    | cons next later =>
      rw [String.intercalate_cons_cons, split_append, ih (List.cons_ne_nil _ _)]
      exact List.flatMap_cons.symm

/-- Parts that are each ended by a line feed leave an empty last part. -/
theorem split_join (parts : List String) :
    split (String.join (parts.map fun part => part ++ "\n")) = parts.flatMap split ++ [""] := by
  induction parts with
  | nil => rfl
  | cons part rest ih =>
    rw [List.map_cons, String.join_cons, split_append, ih, List.flatMap_cons, List.append_assoc]

theorem lines_intercalate {parts : List String} (visible : ∀ part ∈ parts, part ≠ "") :
    lines (String.intercalate "\n" parts) = parts.flatMap split := by
  cases parts with
  | nil => rfl
  | cons part rest =>
    have shown : String.intercalate "\n" (part :: rest) ≠ "" := by
      intro empty
      apply visible part List.mem_cons_self
      cases rest with
      | nil => simpa using empty
      | cons next later =>
        rw [String.intercalate_cons_cons] at empty
        simp [String.append_eq_empty_iff] at empty
    rw [lines, if_neg shown, split_intercalate (List.cons_ne_nil _ _)]

section Parts

variable {parts : List String}

theorem flatMap_split_of_isLine (each : ∀ part ∈ parts, IsLine part) :
    parts.flatMap split = parts := by
  induction parts with
  | nil => rfl
  | cons part rest ih =>
    obtain ⟨first, others⟩ := List.forall_mem_cons.mp each
    rw [List.flatMap_cons, split_of_isLine first, ih others, List.singleton_append]

/-- Each part gives at least one line, and exactly one if it has no line feed. -/
theorem length_le_length_flatMap_split (parts : List String) :
    parts.length ≤ (parts.flatMap split).length := by
  induction parts with
  | nil => exact Nat.le_refl _
  | cons part rest ih =>
    have first := length_split_pos part
    rw [List.flatMap_cons, List.length_append, List.length_cons]
    omega

theorem length_flatMap_split_eq_iff :
    (parts.flatMap split).length = parts.length ↔ ∀ part ∈ parts, IsLine part := by
  constructor
  · intro same
    induction parts with
    | nil => exact List.forall_mem_nil _
    | cons part rest ih =>
      have first := length_split_pos part
      have others := length_le_length_flatMap_split rest
      rw [List.flatMap_cons, List.length_append, List.length_cons] at same
      have single : (split part).length = 1 := by omega
      have rested : (rest.flatMap split).length = rest.length := by omega
      exact List.forall_mem_cons.mpr ⟨length_split_eq_one.mp single, ih rested⟩
  · intro each
    rw [flatMap_split_of_isLine each]

end Parts

end Text

end Caption
