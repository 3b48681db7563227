import Caption.Proofs.Markup.Failing

/-!
A value in which a defect can be named is not read. What is due in a value of the grammar belongs to
the grammar itself, so that nothing is missing there and nothing has the wrong shape.
-/
namespace Caption

/-- Whether a member has what is demanded of it. -/
def Demand.Met (given : Option Json) : Demand → Prop
  | .part role => ∃ value, given = some value ∧ value.Fits role
  | .optional role => ∀ value, given = some value → value ≠ .null → value.Fits role
  | .literal => ∃ value, given = some value ∧ value.HasType "StringLiteral" ∧ value.Fits .node
  | .nodes => ∃ items, given = some (.array items) ∧ ∀ item ∈ items, item.Fits .node
  | .text => ∃ text, given = some (.string text)
  | .flag => ∀ value, given = some value → ∃ flag, value = .bool flag

namespace Demand.Met

variable {demand : Demand} {value : Json}

theorem isRequired_eq_false (met : demand.Met none) : demand.isRequired = false := by
  cases demand with
  | optional role => rfl
  | flag => rfl
  | _ => simp [Met] at met

theorem kindName_eq {expected : String} (met : demand.Met (some value))
    (expects : demand.expected? = some expected) : value.kindName = expected := by
  cases demand with
  | nodes =>
    obtain ⟨items, given, _⟩ := met
    obtain rfl := Option.some.inj given
    exact Option.some.inj expects
  | text =>
    obtain ⟨text, given⟩ := met
    obtain rfl := Option.some.inj given
    exact Option.some.inj expects
  | flag =>
    obtain ⟨flag, rfl⟩ := met value rfl
    exact Option.some.inj expects
  | _ => cases expects

theorem fits {role : Role} (met : demand.Met (some value)) (taken : demand.role? = some role)
    (present : demand.isRequired = false → value ≠ .null) : value.Fits role := by
  cases demand with
  | part inner =>
    obtain rfl := Option.some.inj taken
    obtain ⟨_, given, fitting⟩ := met
    exact Option.some.inj given ▸ fitting
  | optional inner =>
    obtain rfl := Option.some.inj taken
    exact met value rfl (present rfl)
  | literal =>
    obtain rfl := Option.some.inj taken
    obtain ⟨_, given, _, fitting⟩ := met
    exact Option.some.inj given ▸ fitting
  | _ => cases taken

end Demand.Met

namespace Json

variable {whole value : Json} {role : Role} {members : Members} {kind field : String}
  {demand : Demand}

theorem HasType.unique {other : String} (typed : value.HasType kind) (again : value.HasType other) :
    kind = other := by
  cases value with
  | object members => exact Members.eq_of_get?_string typed again
  | _ => cases typed

theorem met_of_fits (fitting : (object members).Fits role)
    (typed : members.get? "type" = some (.string kind)) (asked : (field, demand) ∈ role.demands kind) :
    demand.Met (members.get? field) := by
  have same {name : String} (named : members.get? "type" = some (.string name)) : name = kind :=
    Members.eq_of_get?_string named typed
  -- The type decides what is demanded, so that each constructor has the same few members to show.
  cases fitting with
  | kept => simp [Role.demands] at asked
  | importDeclaration named listed nodes given literal origin =>
    obtain rfl := same named
    rcases (by simpa [Role.demands, Kind.ofName] using asked) with ⟨rfl, rfl⟩ | ⟨rfl, rfl⟩
    · exact ⟨_, listed, nodes⟩
    · exact ⟨_, given, literal, origin⟩
  | importSpecifier named given first bound second =>
    obtain rfl := same named
    rcases (by simpa [Role.demands, Kind.ofName] using asked) with ⟨rfl, rfl⟩ | ⟨rfl, rfl⟩
    · exact ⟨_, given, first⟩
    · exact ⟨_, bound, second⟩
  | element named given first last listed nodes =>
    obtain rfl := same named
    rcases (by simpa [Role.demands, Kind.ofName] using asked) with
      ⟨rfl, rfl⟩ | ⟨rfl, rfl⟩ | ⟨rfl, rfl⟩
    · exact ⟨_, given, first⟩
    · exact fun closing found _ => last closing found
    · exact ⟨_, listed, nodes⟩
  | attr named given first second =>
    obtain rfl := same named
    rcases (by simpa [Role.demands, Kind.ofName] using asked) with ⟨rfl, rfl⟩ | ⟨rfl, rfl⟩
    · exact ⟨_, given, first⟩
    · exact second
  | container named given inner =>
    obtain rfl := same named
    obtain ⟨rfl, rfl⟩ := by simpa [Role.demands, Kind.ofName] using asked
    exact ⟨_, given, inner⟩
  | jsxIdentifier named given | literal named given | identifier named given =>
    obtain rfl := same named
    obtain ⟨rfl, rfl⟩ := by simpa [Role.demands, Kind.ofName] using asked
    exact ⟨_, given⟩
  | other named own fields =>
    obtain rfl := same named
    simp [Role.demands, Kind.ofName_eq_other.mpr own] at asked
  | opening named given first listed nodes closes =>
    rcases (by simpa [Role.demands] using asked) with ⟨rfl, rfl⟩ | ⟨rfl, rfl⟩ | ⟨rfl, rfl⟩
    · exact ⟨_, given, first⟩
    · exact ⟨_, listed, nodes⟩
    · exact closes
  | closing named given first =>
    obtain ⟨rfl, rfl⟩ := by simpa [Role.demands] using asked
    exact ⟨_, given, first⟩
  | program named listed nodes =>
    obtain ⟨rfl, rfl⟩ := by simpa [Role.demands] using asked
    exact ⟨_, listed, nodes⟩
  | file named given inner =>
    obtain rfl := same named
    obtain ⟨rfl, rfl⟩ := by simpa [Role.demands] using asked
    exact ⟨_, given, inner⟩
  | bare inner =>
    cases inner with
    | program named listed nodes =>
      obtain rfl := same named
      simp [Role.demands] at asked

theorem Due.fits (fitting : whole.Fits .root) (due : whole.Due role value) : value.Fits role := by
  induction due with
  | root => exact fitting
  | bare outer typed ih =>
    cases ih with
    | file named given inner => simp [typed] at named
    | bare inner => exact inner
  | part outer typed asked taken given present ih =>
    have met := met_of_fits ih typed asked
    rw [given] at met
    exact met.fits taken present
  | item outer typed asked given listed ih =>
    obtain ⟨items, same, nodes⟩ := met_of_fits ih typed asked
    rw [given] at same
    obtain rfl := Json.array.inj (Option.some.inj same)
    exact nodes _ listed
  | field outer typed own listed apart within named ih =>
    cases ih with
    | other _ _ fields => exact fields _ listed apart _ _ within named
    | importDeclaration other | importSpecifier other | element other | attr other
    | container other | jsxIdentifier other | literal other | identifier other =>
      obtain rfl := Members.eq_of_get?_string other typed
      simp [Kind.typedNames] at own

theorem hasType_of_program (fitting : value.Fits .program) : value.HasType "Program" := by
  cases fitting with
  | program named listed nodes => exact named

/-- What belongs to the grammar where it is due is an object with a type. -/
theorem Due.exists_hasType (fitting : whole.Fits .root) (due : whole.Due role value) :
    ∃ kind, value.HasType kind := by
  have inner := due.fits fitting
  cases inner with
  | kept => exact absurd rfl due.ne_kept
  | missing => exact absurd rfl due.ne_null_of_closing
  | bare program => exact ⟨_, hasType_of_program program⟩
  | importDeclaration named | importSpecifier named | element named | attr named | container named
  | jsxIdentifier named | literal named | identifier named | other named | opening named
  | closing named | program named | file named => exact ⟨_, named⟩

section Sound

/-! No defect can be named in a value of the grammar. -/

variable (fitting : whole.Fits .root)

include fitting

theorem not_notANode {found : String} : ¬ (DecodeError.notANode found).NamesDefect whole := by
  rintro ⟨role, value, due, defect⟩
  obtain ⟨kind, typed⟩ := due.exists_hasType fitting
  rcases defect with ⟨other, _⟩ | ⟨members, rfl, absent, _⟩
  · cases value with
    | object members => exact other members rfl
    | _ => exact typed
  · rw [HasType, absent] at typed
    cases typed

theorem not_missingField : ¬ (DecodeError.missingField kind field).NamesDefect whole := by
  rintro ⟨role, members, demand, due, typed, absent, asked, required⟩
  have met := met_of_fits (due.fits fitting) typed asked
  rw [absent] at met
  exact Bool.false_ne_true (met.isRequired_eq_false.symm.trans required)

theorem eq_file_or_program (typed : whole.HasType kind) : kind = "File" ∨ kind = "Program" := by
  cases fitting with
  | file named given inner => exact .inl (HasType.unique typed named)
  | bare inner => exact .inr (typed.unique (hasType_of_program inner))

theorem not_unexpectedShape {expected found : String} :
    ¬ (DecodeError.unexpectedShape kind field expected found).NamesDefect whole := by
  intro defect
  rw [DecodeError.NamesDefect] at defect
  split at defect
  · obtain ⟨role, members, value, due, given, rfl, rfl, other⟩ := defect
    obtain ⟨name, typed⟩ := due.exists_hasType fitting
    obtain rfl := Option.some.inj (given.symm.trans typed)
    exact other rfl
  split at defect
  · obtain ⟨typed, _, file, program⟩ := defect
    exact (eq_file_or_program fitting typed).elim file program
  split at defect
  · obtain ⟨members, value, rfl, typed, given, named, rfl, other⟩ := defect
    have asked : ("program", .part .program) ∈ Role.root.demands "File" := List.mem_singleton_self _
    obtain ⟨_, same, inner⟩ := met_of_fits fitting typed asked
    obtain rfl := Option.some.inj (given.symm.trans same)
    exact other (named.unique (hasType_of_program inner))
  · obtain ⟨role, members, demand, value, due, typed, asked, given, other, tells⟩ := defect
    have met := met_of_fits (due.fits fitting) typed asked
    rw [given] at met
    split at tells
    · rename_i literal
      subst literal
      obtain ⟨_, same, literal, _⟩ := met
      obtain rfl := Option.some.inj same
      obtain ⟨named, rfl⟩ := tells
      exact other (named.unique literal)
    · obtain ⟨rfl, expects⟩ := tells
      exact other (met.kindName_eq expects)

theorem not_namesDefect_of_fits (error : DecodeError) : ¬ error.NamesDefect whole := by
  cases error with
  | notJson => exact id
  | notANode found => exact not_notANode fitting
  | missingField kind field => exact not_missingField fitting
  | unexpectedShape kind field expected found => exact not_unexpectedShape fitting

end Sound

end Json

/-- Reading ends with an error that names a defect, or no defect can be named. What an error is
about is found in the value that was to be read, and a member is not missing for having been taken out
with its object's type and the members before it. -/
theorem SourceFile.decode_names_defect (value : Json) :
    (∀ error, decode value = .error error → error.NamesDefect value) ∧
      ((∃ source, decode value = .ok source) ↔ ∀ error : DecodeError, ¬ error.NamesDefect value) ∧
      (∀ role found, value.Due role found → value.Contains found) ∧
      ∀ (role : Role) (kind field : String) (demand : Demand) (before after : List (String × Demand)),
        role.demands kind = before ++ (field, demand) :: after →
          ∀ members : Members,
            (members.besides (before.map Prod.fst)).get? field = members.get? field := by
  have names (error : DecodeError) (failed : decode value = .error error) :
      error.NamesDefect value :=
    Json.namesDefect_of_fails value .root failed
  refine ⟨names, ⟨fun readable => ?_, fun sound => ?_⟩, fun role found due => due.contains,
    fun _ _ _ _ _ _ order members => Role.get?_besides_of_demands order members⟩
  · exact Json.not_namesDefect_of_fits (Json.fits_of_reads value readable)
  · cases read : decode value with
    | ok source => exact ⟨source, rfl⟩
    | error error => exact absurd (names error read) (sound error)

/-- A program with an attribute without a name in nested lists of a field. -/
def namelessProgram : Json :=
  .object [("body", .array [.object [("expression",
    .array [.null, .array [.object [("type", .string "JSXAttribute"), ("value", .null)]]]),
    ("type", .string "ExpressionStatement")]]), ("type", .string "Program")]

theorem SourceFile.decode_namelessProgram_names_defect :
    decode namelessProgram = .error (.missingField "JSXAttribute" "name") ∧
      (DecodeError.missingField "JSXAttribute" "name").NamesDefect namelessProgram := by
  have failed : decode namelessProgram = .error (.missingField "JSXAttribute" "name") := by
    simp [namelessProgram, decode, Program.decode, Node.decodeAll, Node.decode, Node.decodeFields,
      Node.decodeField, Node.decodeItems, Members.typeName, Members.get?, Keyed.get?,
      Members.requireArray, Members.require, Members.find?, Members.without, Keyed.remove,
      Kind.ofName, bind, Except.bind, pure, Except.pure]
  exact ⟨failed, (decode_names_defect namelessProgram).1 _ failed⟩

end Caption
