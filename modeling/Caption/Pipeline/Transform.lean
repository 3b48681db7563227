import Caption.Description.Pass
import Caption.Markup.Outline
import Caption.Markup.Source

/-!
Transforms from one form of a program to another, and how they are chained. The first error ends a
chain.
-/
namespace Caption

/-- Why a transform failed. -/
inductive TransformError where
  | plain (text : String)
  | stage (name text : String)
deriving DecidableEq, Repr

namespace TransformError

def message : TransformError → String
  | .plain text => text
  | .stage name text => "Stage '" ++ name ++ "' failed: " ++ text

end TransformError

/-- A transform may fail. -/
abbrev Transform (Source Target : Type) := Source → Except TransformError Target

namespace Transform

variable {First Second Third : Type}

def andThen (first : Transform First Second) (second : Transform Second Third) :
    Transform First Third := fun source => do
  let middle ← first source
  second middle

def readJson : Transform String SourceFile := fun text =>
  match SourceFile.read text with
  | .ok source => .ok source
  | .error error => .error (.stage "DecodeJson" error.message)

def writeJson : Transform SourceFile String := fun source => .ok source.render

def drawOutline : Transform SourceFile String := fun source => .ok source.draw

def describe (options : Options) : Transform SourceFile SourceFile := fun source =>
  .ok (source.describe options).1

def describeSource (options : Options) : Transform String SourceFile :=
  readJson.andThen (describe options)

def describeToJson (options : Options) : Transform String String :=
  (describeSource options).andThen writeJson

def describeToOutline (options : Options) : Transform String String :=
  (describeSource options).andThen drawOutline

end Transform

end Caption
