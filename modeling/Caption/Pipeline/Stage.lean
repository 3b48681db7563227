import Caption.Pipeline.Transform

/-!
Pipelines as lists of stages. What flows through one is text or a source file, and a stage that is
handed the other form fails.
-/
namespace Caption

/-- What flows through a pipeline. -/
inductive Material where
  | text (text : String)
  | source (source : SourceFile)
deriving DecidableEq

inductive Stage where
  | decode
  | encode
  | outline
  | describe (options : Options)
  | fail (error : TransformError)

namespace Stage

/-- The name by which a stage reports material of the wrong form. -/
def name : Stage → String
  | .decode => "decode"
  | .encode => "encode"
  | .outline => "treeviz"
  | .describe _ => "describe"
  | .fail _ => "fail"

/-- The error of a stage that was handed the wrong form. -/
def wrongInput (stage : Stage) : TransformError := .stage stage.name "wrong input"

def run (stage : Stage) : Transform Material Material := fun material =>
  match stage, material with
  | .decode, .text text => (Transform.readJson text).map .source
  | .encode, .source source => (Transform.writeJson source).map .text
  | .outline, .source source => (Transform.drawOutline source).map .text
  | .describe options, .source source => (Transform.describe options source).map .source
  | .fail error, _ => .error error
  | _, _ => .error stage.wrongInput

def runAll (stages : List Stage) : Transform Material Material := fun material =>
  stages.foldlM (fun current stage => stage.run current) material

end Stage

end Caption
