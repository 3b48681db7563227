/-! What can be wrong with a value or text that should be a syntax tree. -/
namespace Caption

/-- Why a syntax tree could not be read. -/
inductive DecodeError where
  /-- The text is no JSON value. -/
  | notJson
  /-- Something else stands where a node must. -/
  | notANode (found : String)
  /-- A node lacks a member that its kind needs. -/
  | missingField (kind field : String)
  /-- A member has a value of another kind than it needs. -/
  | unexpectedShape (kind field expected found : String)
deriving DecidableEq, Repr

namespace DecodeError

def message : DecodeError → String
  | .notJson => "invalid JSON: the text is not one well-formed value"
  | .notANode found => "expected a node object, found " ++ found
  | .missingField kind field => kind ++ " is missing required field `" ++ field ++ "`"
  | .unexpectedShape kind field expected found =>
    kind ++ "." ++ field ++ ": expected " ++ expected ++ ", found " ++ found

end DecodeError

end Caption
