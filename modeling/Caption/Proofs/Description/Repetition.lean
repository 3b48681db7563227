import Caption.Proofs.Description.Importing
import Caption.Proofs.Description.Recounting

/-!
Running the description pass again and again with the same names.
-/
namespace Caption

namespace Program

variable {options : Options}

theorem wraps_describe_of_ne (apart : options.contentProp ≠ options.marker) (program : Program) :
    (program.describe options).1.wraps options = 0 := by
  rw [describe_eq, wraps, totalOfAll_describedBody fun _ => Node.wrapsAt_of_not_element,
    Node.totalOfAll_eq_zero_iff]
  intro node member
  obtain ⟨statement, _, rfl⟩ := List.mem_map.mp member
  exact Node.total_wrapsAt_described_of_ne apart statement

theorem wraps_describe_of_eq (same : options.contentProp = options.marker) (program : Program) :
    (program.describe options).1.wraps options = program.wraps options := by
  rw [describe_eq, wraps, totalOfAll_describedBody fun _ => Node.wrapsAt_of_not_element]
  exact Node.totalOfAll_map_congr fun node _ => Node.total_wrapsAt_described_of_eq same node

theorem skips_describe (program : Program) :
    (program.describe options).1.skips options = program.skips options := by
  rw [describe_eq, skips, totalOfAll_describedBody fun _ => Node.skipsAt_of_not_element]
  exact Node.totalOfAll_map_congr fun node _ => Node.total_skipsAt_described node

theorem needsImport_describe (program : Program) :
    (program.describe options).1.needsImport options = false := by
  apply decide_eq_false
  rintro ⟨again, missing⟩
  by_cases wrapped : 0 < program.wraps options
  · rw [describe_eq] at missing
    exact missing (bringsWrapper_describedBody wrapped)
  · by_cases same : options.contentProp = options.marker
    · rw [wraps_describe_of_eq same] at again
      exact wrapped again
    · rw [wraps_describe_of_ne same] at again
      exact absurd again (Nat.lt_irrefl 0)

/-- A pass that has no import to add changes a program exactly if it makes a wrapper. -/
theorem describe_fst_eq_self_iff {program : Program} (settled : program.needsImport options = false) :
    (program.describe options).1 = program ↔ program.wraps options = 0 := by
  rw [describe_eq]
  constructor
  · intro unchanged
    have body : program.body.map (Node.described options) = program.body := by
      have whole := congrArg Program.body unchanged
      simpa [describedBody, settled] using whole
    have grown := @Node.totalOfAll_elementsAt_described options program.body
    rw [body] at grown
    rw [wraps]
    omega
  · intro unwrapped
    have kept : program.body.map (Node.described options) = program.body := by
      rw [wraps, Node.totalOfAll_eq_zero_iff] at unwrapped
      rw [List.map_congr_left fun node member => Node.described_eq_self (unwrapped node member),
        List.map_id']
    simp [describedBody, settled, kept]

/-- A program after some passes with the same names. -/
def afterPasses (options : Options) (program : Program) : Nat → Program
  | 0 => program
  | count + 1 => ((program.afterPasses options count).describe options).1

theorem skips_afterPasses (program : Program) (count : Nat) :
    (program.afterPasses options count).skips options = program.skips options := by
  induction count with
  | zero => rfl
  | succ count ih => rw [afterPasses, skips_describe, ih]

theorem wraps_afterPasses_of_eq (same : options.contentProp = options.marker) (program : Program)
    (count : Nat) : (program.afterPasses options count).wraps options = program.wraps options := by
  induction count with
  | zero => rfl
  | succ count ih => rw [afterPasses, wraps_describe_of_eq same, ih]

/-- If the attribute of a wrapper is not named like a marker, the passes after the first one change
nothing. -/
theorem afterPasses_of_ne (apart : options.contentProp ≠ options.marker) (program : Program)
    (count : Nat) : program.afterPasses options (count + 1) = (program.describe options).1 := by
  induction count with
  | zero => rfl
  | succ count ih =>
    rw [afterPasses, ih]
    exact (describe_fst_eq_self_iff (needsImport_describe program)).mpr (wraps_describe_of_ne apart _)

/-- Passes over a program again and again. With a marker that is no content attribute all later
passes leave the program as the first one left it and only skip what it skipped. Otherwise all later
passes wrap and skip as many elements again, and leave the program as it is only if the first one
wrapped none. -/
theorem describe_again (options : Options) (program : Program) (count : Nat) :
    let first := (program.describe options).2
    let reached := program.afterPasses options (count + 1)
    let again := reached.describe options
    (options.marker ≠ options.contentProp →
        reached = (program.describe options).1 ∧ again.1 = (program.describe options).1 ∧
          again.2 = ⟨0, first.skipped, false⟩) ∧
      (options.marker = options.contentProp →
        again.2 = ⟨first.wrapped, first.skipped, false⟩ ∧
          (again.1 = reached ↔ first.wrapped = 0)) := by
  intro first reached again
  have settled : reached.needsImport options = false := needsImport_describe _
  have skipped : reached.skips options = first.skipped := by
    rw [skips_afterPasses]
    simp only [first, describe_eq]
  constructor
  · intro different
    have apart : options.contentProp ≠ options.marker := Ne.symm different
    have same : reached = (program.describe options).1 := afterPasses_of_ne apart program count
    have unwrapped : reached.wraps options = 0 := by rw [same, wraps_describe_of_ne apart]
    refine ⟨same, ?_, ?_⟩
    · rw [← same]
      exact (describe_fst_eq_self_iff settled).mpr unwrapped
    · simp only [again, describe_eq options reached, unwrapped, skipped, settled]
  · intro equal
    have wrapped : reached.wraps options = first.wrapped := by
      rw [wraps_afterPasses_of_eq equal.symm]
      simp only [first, describe_eq]
    refine ⟨?_, ?_⟩
    · simp only [again, describe_eq options reached, wrapped, skipped, settled]
    · rw [← wrapped]
      exact describe_fst_eq_self_iff settled

end Program

end Caption
