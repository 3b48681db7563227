import Caption.Pipeline.Transform
import Caption.Proofs.Description.Repetition
import Caption.Proofs.Description.Retaining
import Caption.Proofs.Description.Tidying
import Caption.Proofs.Markup.Rereading

/-!
Describing a text, and then the text that came of it. The second run has nothing left to do, but each
wrapper makes the text nest two containers deeper, so that what the first run wrote may be too deep to
be read at all.
-/
namespace Caption

namespace SourceFile

variable {source : SourceFile} {options : Options} {text : String}

/-- A file that can be read from its own text, if that does not nest too deep. -/
structure Printable (source : SourceFile) : Prop where
  fitting : source.WellFormed
  tidy : source.encode.Tidy Number.ReadsBack

theorem printable_of_read (accepted : read text = .ok source)
    (exact : ∀ value ∈ Json.read? text, ∀ number ∈ value.numbers, number.IsInteger) :
    source.Printable :=
  ⟨wellFormed_of_read accepted, (regular_encode accepted exact).tidy⟩

theorem Printable.read_printed (printable : source.Printable) :
    read source.render =
      if source.encode.depth ≤ Json.nestingLimit then .ok source else .error .notJson := by
  have parsed := Json.read?_pretty_eq printable.tidy
  by_cases fits : source.encode.depth ≤ Json.nestingLimit
  · rw [if_pos fits] at parsed ⊢
    exact read_eq_ok.mpr ⟨source.encode, parsed, decode_encode_iff.mpr printable.fitting⟩
  · rw [if_neg fits] at parsed ⊢
    rw [read, render, parsed]

theorem Printable.describe (printable : source.Printable) (options : Options) :
    (source.describe options).1.Printable := by
  have fitting : (source.describe options).1.WellFormed :=
    ⟨Program.wellFormed_describe options printable.fitting.1, printable.fitting.2⟩
  have keeps := (tidy_encode_iff printable.fitting).mp printable.tidy
  exact ⟨fitting, (tidy_encode_iff fitting).mpr (keeps_describe Json.tidy_object_nil options keeps)⟩

/-- A second pass finds nothing to do. -/
theorem describe_describe (apart : options.marker ≠ options.contentProp) (source : SourceFile) :
    ((source.describe options).1.describe options).1 = (source.describe options).1 := by
  have same : ((source.program.describe options).1.describe options).1 =
      (source.program.describe options).1 := Program.afterPasses_of_ne apart.symm source.program 1
  simp only [SourceFile.describe, same]

end SourceFile

theorem Members.get?_bare {key : String} (different : "type" ≠ key) (name : String) :
    (ofKind name []).get? key = none := by
  rw [ofKind, get?_set, if_neg different]
  rfl

theorem Json.depthOfMembers_bare (name : String) : depthOfMembers (Members.ofKind name []) = 0 := rfl

namespace Node

/-- A node inside some elements without attributes, each the only child of the one around it. -/
def inside : Nat → Node → Node
  | 0, node => node
  | count + 1, node => newElement "div" [] [inside count node]

variable {options : Options} {node : Node}

theorem described_inside (count : Nat) (node : Node) :
    (inside count node).described options = inside count (node.described options) := by
  induction count with
  | zero => rfl
  | succ count ih =>
    rw [inside, inside, ← ih]
    rfl

theorem wellFormed_inside (fitting : node.WellFormed) (count : Nat) :
    (inside count node).WellFormed := by
  induction count with
  | zero => exact fitting
  | succ count ih => exact wellFormed_newElement "div" trivial ⟨ih, trivial⟩

theorem keeps_inside {fits : Json → Prop} (bare : fits (.object [])) (keeps : node.Keeps fits)
    (count : Nat) : (inside count node).Keeps fits := by
  induction count with
  | zero => exact keeps
  | succ count ih =>
    exact keeps_newElement bare "div" (List.forall_mem_nil _) (List.forall_mem_singleton.mpr ih)

/-- An element nests two deeper than its children and three deeper than its attributes. -/
theorem depth_newElement (name : String) (attributes children : List Node) :
    (newElement name attributes children).encode.depth =
      max (Json.depthOfItems (encodeAll children) + 2)
        (Json.depthOfItems (encodeAll attributes) + 3) := by
  simp [newElement, jsxName, encode, Opening.encode, Closing.encode, Json.depth,
    Json.depthOfMembers_set, Json.depthOfMembers_bare, Members.get?_bare]

theorem depth_inside (deep : 0 < node.encode.depth) (count : Nat) :
    (inside count node).encode.depth = node.encode.depth + 2 * count := by
  induction count with
  | zero => rfl
  | succ count ih =>
    rw [inside, depth_newElement]
    simp only [encodeAll, Json.depthOfItems_cons, Json.depthOfItems_nil, ih]
    omega

end Node

namespace SourceFile

theorem depth_encode_bare (body : List Node) :
    (⟨⟨body, []⟩, none⟩ : SourceFile).encode.depth = Json.depthOfItems (Node.encodeAll body) + 2 := by
  simp [encode, Program.encode, Json.depth, Json.depthOfMembers_set, Json.depthOfMembers_bare,
    Members.get?_bare]

/-- An element with the marker and one more attribute. -/
def greeting : Node :=
  .newSelfClosing "p" [.newStringAttribute "llm" "a greeting", .newStringAttribute "id" "first"]

/-- A program of one marked element inside some others. -/
def nestedFile (count : Nat) : SourceFile := ⟨⟨[greeting.inside count], []⟩, none⟩

theorem wellFormed_greeting : greeting.WellFormed := by
  simp [greeting, Node.newSelfClosing, Node.newStringAttribute, Node.newAttribute, Node.jsxName,
    Node.string, Node.WellFormed, Node.WellFormedAll, Opening.WellFormed, Closing.WellFormed,
    Members.Lacks]

theorem keeps_greeting {fits : Json → Prop} (bare : fits (.object [])) : greeting.Keeps fits := by
  simp [greeting, Node.newSelfClosing, Node.newStringAttribute, Node.newAttribute, Node.jsxName,
    Node.string, Node.Keeps, Node.kept, Node.keptAll, Opening.kept, Closing.kept, bare]

theorem wellFormed_nestedFile (count : Nat) : (nestedFile count).WellFormed := by
  refine ⟨⟨⟨Node.wellFormed_inside wellFormed_greeting count, trivial⟩, ?_⟩, ?_⟩ <;>
    simp [nestedFile, Members.Lacks]

/-- There is no number in the file. -/
theorem tidy_nestedFile (kind : Number → Prop) (count : Nat) :
    (nestedFile count).encode.Tidy kind := by
  have bare : (Json.object []).Tidy kind := Json.tidy_object_nil
  refine (tidy_encode_iff (wellFormed_nestedFile count)).mpr (List.forall_mem_cons.mpr ⟨bare, ?_⟩)
  refine Node.forall_keptAll.mpr (List.forall_mem_singleton.mpr ?_)
  exact Node.keeps_inside bare (keeps_greeting bare) count

theorem printable_nestedFile (count : Nat) : (nestedFile count).Printable :=
  ⟨wellFormed_nestedFile count, tidy_nestedFile _ count⟩

theorem depth_nestedFile (count : Nat) : (nestedFile count).encode.depth = 2 * count + 7 := by
  have own : greeting.encode.depth = 5 := by decide +kernel
  have around := Node.depth_inside (by omega : 0 < greeting.encode.depth) count
  rw [nestedFile, depth_encode_bare]
  simp only [Node.encodeAll, Json.depthOfItems_cons, Json.depthOfItems_nil, around, own]
  omega

/-- The other attribute is as deep in the element as the marker was, and the element is in a wrapper
now. -/
theorem depth_describe_nestedFile (count : Nat) :
    ((nestedFile count).describe {}).1.encode.depth = 2 * count + 9 := by
  have own : (greeting.described {}).encode.depth = 7 := by decide +kernel
  have around := Node.depth_inside (by omega : 0 < (greeting.described {}).encode.depth) count
  have added : (Node.newImport ["LLMDescribe"] "@/widgets/llm-describe").encode.depth = 4 := by
    decide +kernel
  rw [describe, Program.describe_eq, nestedFile]
  simp only [Program.describedBody]
  rw [depth_encode_bare]
  -- With the import in front or without it, the marked statement is the deepest.
  split <;> simp only [List.map_cons, List.map_nil, List.cons_append, List.nil_append,
    Node.described_inside, Node.encodeAll, Json.depthOfItems_cons, Json.depthOfItems_nil, around,
    own, added] <;> omega

theorem exact_nestedFile (count : Nat) :
    ∀ value ∈ Json.read? (nestedFile count).render, ∀ number ∈ value.numbers, number.IsInteger := by
  intro value read
  have parsed := Json.read?_pretty_eq (tidy_nestedFile Number.ReadsBack count)
  rw [render, parsed] at read
  split at read
  · obtain rfl := Option.some.inj read
    exact (tidy_nestedFile Number.IsInteger count).numbers
  · cases read

end SourceFile

namespace Transform

variable {options : Options} {source : SourceFile} {text result : String}

/-- Reading is the only step that can fail. -/
theorem describeToJson_eq (options : Options) (text : String) :
    describeToJson options text =
      match SourceFile.read text with
      | .ok source => .ok (source.describe options).1.render
      | .error error => .error (.stage "DecodeJson" error.message) := by
  simp only [describeToJson, describeSource, andThen, readJson]
  cases SourceFile.read text <;> rfl

theorem describeToJson_eq_ok :
    describeToJson options text = .ok result ↔
      ∃ source, SourceFile.read text = .ok source ∧ (source.describe options).1.render = result := by
  rw [describeToJson_eq]
  cases SourceFile.read text <;> simp

/-- The text of a printable file is described unless it nests too deep to be read. -/
theorem describeToJson_render (options : Options) (printable : source.Printable) :
    describeToJson options source.render =
      if source.encode.depth ≤ Json.nestingLimit then .ok (source.describe options).1.render
      else .error (.stage "DecodeJson" DecodeError.notJson.message) := by
  rw [describeToJson_eq, printable.read_printed]
  by_cases fits : source.encode.depth ≤ Json.nestingLimit
  · simp only [if_pos fits]
  · simp only [if_neg fits]

/-- Describing the text that came of describing a text with whole numbers only, with a marker that is
not the attribute of the wrappers: the second run gives the same text again, unless the wrappers of
the first run have made it nest too deep to be read. -/
theorem describeToJson_again (options : Options) (apart : options.marker ≠ options.contentProp)
    {text result : String} (done : describeToJson options text = .ok result)
    (exact : ∀ value ∈ Json.read? text, ∀ number ∈ value.numbers, number.IsInteger) :
    ∃ source, SourceFile.read text = .ok source ∧
      result = (source.describe options).1.render ∧
      describeToJson options result =
        if (source.describe options).1.encode.depth ≤ Json.nestingLimit then .ok result
        else .error (.stage "DecodeJson" DecodeError.notJson.message) := by
  obtain ⟨source, accepted, rfl⟩ := describeToJson_eq_ok.mp done
  have printable := (SourceFile.printable_of_read accepted exact).describe options
  have again := describeToJson_render options printable
  rw [SourceFile.describe_describe apart] at again
  exact ⟨source, accepted, rfl, again⟩

/-- The text of a marked element that nothing is around: once it is described it stays. -/
theorem describeToJson_again_greeting :
    let text := (SourceFile.nestedFile 0).render
    let result := ((SourceFile.nestedFile 0).describe {}).1.render
    ({} : Options).marker ≠ ({} : Options).contentProp ∧
      (∀ value ∈ Json.read? text, ∀ number ∈ value.numbers, number.IsInteger) ∧
      describeToJson {} text = .ok result ∧ describeToJson {} result = .ok result := by
  have apart : ({} : Options).marker ≠ ({} : Options).contentProp := by decide
  have exact := SourceFile.exact_nestedFile 0
  have printable := SourceFile.printable_nestedFile 0
  have read := printable.read_printed
  have done := describeToJson_render {} printable
  rw [SourceFile.depth_nestedFile, if_pos (by decide)] at read done
  obtain ⟨source, accepted, _, again⟩ := describeToJson_again {} apart done exact
  obtain rfl := Except.ok.inj (read.symm.trans accepted)
  rw [SourceFile.depth_describe_nestedFile, if_pos (by decide)] at again
  exact ⟨apart, exact, done, again⟩

/-- The text of a marked element inside sixty others can be read, and what comes of describing it
cannot. -/
theorem describeToJson_sixty_around :
    let text := (SourceFile.nestedFile 60).render
    let result := ((SourceFile.nestedFile 60).describe {}).1.render
    ({} : Options).marker ≠ ({} : Options).contentProp ∧
      (∀ value ∈ Json.read? text, ∀ number ∈ value.numbers, number.IsInteger) ∧
      describeToJson {} text = .ok result ∧
      describeToJson {} result = .error (.stage "DecodeJson" DecodeError.notJson.message) := by
  have printable := SourceFile.printable_nestedFile 60
  have done := describeToJson_render {} printable
  have again := describeToJson_render {} (printable.describe {})
  rw [SourceFile.depth_nestedFile, if_pos (by decide)] at done
  rw [SourceFile.depth_describe_nestedFile, if_neg (by decide)] at again
  exact ⟨by decide, SourceFile.exact_nestedFile 60, done, again⟩

end Transform

end Caption
