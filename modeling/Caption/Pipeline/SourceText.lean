import Caption.Files
import Caption.Pipeline.Transform

/-! Source text, from memory or a file, and running transforms on it. -/
namespace Caption

/-- Why source text could not be had or transformed. -/
inductive LoadError where
  | io (error : FileError)
  | transform (error : TransformError)
deriving DecidableEq, Repr

namespace LoadError

def message : LoadError → String
  | .io error => "IO error: " ++ error.message
  | .transform error => "Transform error: " ++ error.message

end LoadError

/-- The text of a program. -/
structure SourceText where
  text : String

namespace SourceText

variable {Target : Type}

def ofFile (contents : Except FileError String) : Except LoadError SourceText :=
  match contents with
  | .ok text => .ok ⟨text⟩
  | .error error => .error (.io error)

def run (source : SourceText) (transform : Transform String Target) : Except LoadError Target :=
  match transform source.text with
  | .ok target => .ok target
  | .error error => .error (.transform error)

end SourceText

end Caption
