import Caption.Proofs.Description.Reporting

/-!
Passes with different markers over one program. As long as they share a wrapper and its module, one of
them at most adds an import, and the statements that were there keep their places behind it.
-/
namespace Caption

namespace Node

theorem imports_described {name source : String} (options : Options) (statement : Node) :
    (statement.described options).Imports name source ↔ statement.Imports name source := by
  let other : Options := { wrapper := name, importSource := source }
  rw [← @bringsWrapper_iff other, ← @bringsWrapper_iff other, bringsWrapper_described]

theorem imports_newImport (name source : String) : (newImport [name] source).Imports name source :=
  ⟨rfl, [], identifier name [], [], List.mem_singleton.mpr rfl⟩

/-- The node that passes leave in the place of a node, one after the other. -/
def describedThrough (passes : List Options) (node : Node) : Node :=
  passes.foldl (fun reached options => reached.described options) node

theorem describedThrough_nil (node : Node) : node.describedThrough [] = node := rfl

theorem describedThrough_comp (options : Options) (later : List Options) :
    describedThrough later ∘ described options = describedThrough (options :: later) := rfl

/-- There is nothing to describe in the import of a wrapper. -/
theorem describedThrough_newImport (name source : String) (passes : List Options) :
    (newImport [name] source).describedThrough passes = newImport [name] source := by
  induction passes with
  | nil => rfl
  | cons options later ih => exact ih

end Node

namespace Program

def importCount (name source : String) (program : Program) : Nat :=
  program.body.countP fun statement => statement.Imports name source

/-- Passes one after the other: the program that the last one leaves, and what each one reports. -/
def describeEach : List Options → Program → Program × List Report
  | [], program => (program, [])
  | options :: later, program =>
    let described := program.describe options
    let reached := describeEach later described.1
    (reached.1, described.2 :: reached.2)

theorem describeEach_append (earlier later : List Options) (program : Program) :
    program.describeEach (earlier ++ later) =
      let before := program.describeEach earlier
      let reached := before.1.describeEach later
      (reached.1, before.2 ++ reached.2) := by
  induction earlier generalizing program with
  | nil => rfl
  | cons options rest ih => simp only [List.cons_append, describeEach, ih]

theorem length_reports (passes : List Options) (program : Program) :
    (program.describeEach passes).2.length = passes.length := by
  induction passes generalizing program with
  | nil => rfl
  | cons options later ih => simp only [describeEach, List.length_cons, ih]

section Step

variable {options : Options} {program : Program}

theorem importCount_eq_zero {name source : String} :
    program.importCount name source = 0 ↔
      ∀ statement ∈ program.body, ¬statement.Imports name source := by
  simp only [importCount, List.countP_eq_zero, decide_eq_true_eq]

theorem needsImport_iff :
    program.needsImport options = true ↔
      0 < program.wraps options ∧
        program.importCount options.wrapper options.importSource = 0 := by
  rw [needsImport_eq_true, importCount_eq_zero]

theorem body_describe (options : Options) (program : Program) :
    (program.describe options).1.body =
      (if (program.describe options).2.importInjected then
          [Node.newImport [options.wrapper] options.importSource]
        else []) ++ program.body.map (Node.described options) := by
  rw [describe_eq]
  rfl

/-- A pass adds at most one import of the wrapper and touches none that is there. -/
theorem importCount_describe (options : Options) (program : Program) :
    (program.describe options).1.importCount options.wrapper options.importSource =
      (program.describe options).2.importInjected.toNat +
        program.importCount options.wrapper options.importSource := by
  rw [importCount, body_describe, List.countP_append, List.countP_map, importCount]
  simp only [Function.comp_def, Node.imports_described]
  congr 1
  cases (program.describe options).2.importInjected with
  | false => rfl
  | true => simp [Node.imports_newImport]

end Step

section Shared

/-! Passes that share the wrapper and its module. -/

variable {name source : String} {passes : List Options}

/-- Whether all passes write the same wrapper and import it from the same module. -/
def SharedImport (name source : String) (passes : List Options) : Prop :=
  ∀ options ∈ passes, options.wrapper = name ∧ options.importSource = source

/-- Once the wrapper is imported, no pass adds an import. -/
theorem describeEach_of_imported (shared : SharedImport name source passes) {program : Program}
    (imported : 0 < program.importCount name source) :
    (∀ report ∈ (program.describeEach passes).2, report.importInjected = false) ∧
      (program.describeEach passes).1.importCount name source =
        program.importCount name source := by
  induction passes generalizing program with
  | nil => exact ⟨by simp [describeEach], rfl⟩
  | cons options later ih =>
    obtain ⟨⟨rfl, rfl⟩, others⟩ := List.forall_mem_cons.mp shared
    have settled : (program.describe options).2.importInjected = false := by
      rw [describe_eq]
      refine Bool.eq_false_iff.mpr fun needed => ?_
      have none := (needsImport_iff.mp needed).2
      omega
    have counted := importCount_describe options program
    rw [settled, Bool.toNat_false, Nat.zero_add] at counted
    obtain ⟨quiet, kept⟩ := ih others (counted.symm ▸ imported)
    exact ⟨List.forall_mem_cons.mpr ⟨settled, quiet⟩, kept.trans counted⟩

/-- As long as the wrapper is not imported, the first pass that makes a wrapper adds the import. -/
theorem describeEach_of_unimported (shared : SharedImport name source passes) {program : Program}
    (missing : program.importCount name source = 0) :
    (program.describeEach passes).2.findIdx? Report.importInjected =
        (program.describeEach passes).2.findIdx? (fun report => decide (0 < report.wrapped)) ∧
      (program.describeEach passes).2.countP Report.importInjected =
        (program.describeEach passes).1.importCount name source ∧
      (program.describeEach passes).1.importCount name source =
        ((program.describeEach passes).2.any fun report => decide (0 < report.wrapped)).toNat := by
  induction passes generalizing program with
  | nil => exact ⟨rfl, missing.symm, missing⟩
  | cons options later ih =>
    obtain ⟨⟨rfl, rfl⟩, others⟩ := List.forall_mem_cons.mp shared
    have counted := importCount_describe options program
    rw [missing, Nat.add_zero] at counted
    have injected : (program.describe options).2.importInjected =
        decide (0 < (program.describe options).2.wrapped) := by
      rw [describe_eq, Bool.eq_iff_iff, needsImport_iff, decide_eq_true_eq]
      exact and_iff_left missing
    by_cases wrapped : 0 < (program.describe options).2.wrapped
    · rw [decide_eq_true wrapped] at injected
      rw [injected, Bool.toNat_true] at counted
      obtain ⟨quiet, kept⟩ := describeEach_of_imported others (counted ▸ Nat.one_pos)
      have alone :
          ((program.describe options).1.describeEach later).2.countP Report.importInjected = 0 :=
        List.countP_eq_zero.mpr fun report listed => by simp [quiet report listed]
      simp [describeEach, List.findIdx?_cons, injected, wrapped, alone, kept, counted]
    · rw [decide_eq_false wrapped] at injected
      rw [injected, Bool.toNat_false] at counted
      obtain ⟨first, only, reached⟩ := ih others counted
      simp [describeEach, List.findIdx?_cons, injected, wrapped, first, only, reached]

/-- The statements after some passes: those that were there, each in its place, behind the import if
one was added. -/
theorem body_describeEach (shared : SharedImport name source passes) (program : Program) :
    (program.describeEach passes).1.body =
      (if (program.describeEach passes).2.any Report.importInjected then
          [Node.newImport [name] source]
        else []) ++ program.body.map (Node.describedThrough passes) := by
  induction passes generalizing program with
  | nil =>
    rw [funext Node.describedThrough_nil, List.map_id']
    rfl
  | cons options later ih =>
    obtain ⟨⟨rfl, rfl⟩, others⟩ := List.forall_mem_cons.mp shared
    have reached := ih others (program.describe options).1
    rw [body_describe, List.map_append, List.map_map] at reached
    simp only [describeEach, List.any_cons]
    rw [reached]
    by_cases injected : (program.describe options).2.importInjected = true
    · -- The import is there now, so that none of the later passes adds another one.
      have counted := importCount_describe options program
      rw [injected, Bool.toNat_true] at counted
      have present : 0 < (program.describe options).1.importCount options.wrapper
          options.importSource := by omega
      have quiet := (describeEach_of_imported others present).1
      have settled : ((program.describe options).1.describeEach later).2.any Report.importInjected
          = false := List.any_eq_false.mpr fun report listed => by simp [quiet report listed]
      simp [settled, injected, Node.describedThrough_newImport, Node.describedThrough_comp]
    · simp [injected, Node.describedThrough_comp]

/-- Whether the wrapper is imported at the start decides what the passes do about it. -/
theorem describeEach_injections (shared : SharedImport name source passes) (program : Program) :
    let reached := program.describeEach passes
    reached.2.countP Report.importInjected ≤ 1 ∧
      (reached.2.findIdx? Report.importInjected =
        if program.importCount name source = 0 then
          reached.2.findIdx? fun report => decide (0 < report.wrapped)
        else none) ∧
      reached.1.importCount name source =
        if 0 < program.importCount name source then program.importCount name source
        else if ∃ report ∈ reached.2, 0 < report.wrapped then 1
        else 0 := by
  intro reached
  by_cases imported : 0 < program.importCount name source
  · obtain ⟨quiet, kept⟩ := describeEach_of_imported shared imported
    have none : reached.2.countP Report.importInjected = 0 :=
      List.countP_eq_zero.mpr fun report listed => by simp [quiet report listed]
    rw [if_pos imported, if_neg (Nat.ne_of_gt imported)]
    exact ⟨none ▸ Nat.zero_le 1, List.findIdx?_eq_none_iff.mpr quiet, kept⟩
  · have missing : program.importCount name source = 0 := Nat.eq_zero_of_not_pos imported
    obtain ⟨first, only, counted⟩ := describeEach_of_unimported shared missing
    rw [if_neg imported, if_pos missing]
    refine ⟨?_, first, ?_⟩
    · rw [only, counted]
      exact Bool.toNat_le _
    · rw [counted]
      change cond _ 1 0 = _
      simp only [List.any_eq_true, decide_eq_true_eq, reached, Bool.cond_eq_ite]

/-- Passes that share a wrapper and its module, whatever their markers. At most one of them adds an
import: the first one that makes a wrapper, and only if no statement imported the wrapper at the
start. Afterwards the imports of the wrapper are those that were there, or else the one that was added.
Each pass puts its import in front, and keeps all statements that it finds, each in its place; so do
all passes together with those of the first program. -/
theorem describeEach_imports_once (shared : SharedImport name source passes) (program : Program) :
    let reached := program.describeEach passes
    (reached.2.countP Report.importInjected ≤ 1 ∧
      (reached.2.findIdx? Report.importInjected =
        if program.importCount name source = 0 then
          reached.2.findIdx? fun report => decide (0 < report.wrapped)
        else none) ∧
      reached.1.importCount name source =
        if 0 < program.importCount name source then program.importCount name source
        else if ∃ report ∈ reached.2, 0 < report.wrapped then 1
        else 0) ∧
      (∀ earlier options later, passes = earlier ++ options :: later →
        let before := (program.describeEach earlier).1
        let described := before.describe options
        reached.2[earlier.length]? = some described.2 ∧
          described.1.body =
            (if described.2.importInjected then [Node.newImport [name] source] else []) ++
              before.body.map (Node.described options)) ∧
      reached.1.body =
        (if ∃ report ∈ reached.2, report.importInjected = true then
            [Node.newImport [name] source]
          else []) ++ program.body.map (Node.describedThrough passes) := by
  intro reached
  have body := body_describeEach shared program
  simp only [List.any_eq_true] at body
  refine ⟨describeEach_injections shared program, ?_, body⟩
  rintro earlier options later rfl before described
  obtain ⟨rfl, rfl⟩ := shared options (by simp)
  refine ⟨?_, body_describe options before⟩
  simp [reached, describeEach_append, describeEach, length_reports, before, described]

/-- An element with a marker that only the second of three passes looks for. Its attribute of the
wrapper is the marker of the third one. -/
def hinted : Program := ⟨[Node.newSelfClosing "p" [Node.newStringAttribute "hint" "home"]], []⟩

def hintPasses : List Options := [{}, { marker := "hint", contentProp := "llm" }, {}]

theorem hinted_imports_once :
    SharedImport "LLMDescribe" "@/widgets/llm-describe" hintPasses ∧
      (hinted.describeEach hintPasses).2.countP Report.importInjected ≤ 1 ∧
      (hinted.describeEach hintPasses).2.findIdx? Report.importInjected = some 1 ∧
      (hinted.describeEach hintPasses).1.importCount "LLMDescribe" "@/widgets/llm-describe" = 1 ∧
      (hinted.describeEach hintPasses).1.body =
        Node.newImport ["LLMDescribe"] "@/widgets/llm-describe" ::
          hinted.body.map (Node.describedThrough hintPasses) := by
  have shared : SharedImport "LLMDescribe" "@/widgets/llm-describe" hintPasses := by
    unfold SharedImport
    decide
  have reports : (hinted.describeEach hintPasses).2 =
      [⟨0, 0, false⟩, ⟨1, 0, true⟩, ⟨1, 0, false⟩] := by
    simp only [hintPasses, describeEach, describe_eq]
    decide +kernel
  have missing : hinted.importCount "LLMDescribe" "@/widgets/llm-describe" = 0 := by decide
  obtain ⟨⟨once, first, counted⟩, _, body⟩ := describeEach_imports_once shared hinted
  rw [reports] at body
  refine ⟨shared, once, first.trans ?_, counted.trans ?_, body.trans ?_⟩
  · rw [reports, missing]
    rfl
  · rw [reports, missing]
    rfl
  · rfl

end Shared

end Program

end Caption
