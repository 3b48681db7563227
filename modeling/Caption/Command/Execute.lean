import Caption.Command.Error
import Caption.Json.Printer
import Caption.Registry.Surface
import Caption.Settings.Toml.Document

/-!
The commands as functions of texts: loading the configuration, describing a program, and
registering a snapshot.
-/
namespace Caption

/-- The forms in which a described program is written. -/
inductive ProgramFormat where
  | json
  | outline
deriving DecidableEq, Repr

namespace ProgramFormat

def names : List String := ["json", "treeviz"]

def ofName? : String → Option ProgramFormat
  | "json" => some .json
  | "treeviz" => some .outline
  | _ => none

/-- The transform that describes a program and writes it in a format. -/
def transform (options : Options) : ProgramFormat → Transform String String
  | .json => Transform.describeToJson options
  | .outline => Transform.describeToOutline options

end ProgramFormat

/-- The forms in which a registered snapshot is shown. -/
inductive SnapshotFormat where
  /-- The listing of the registry. -/
  | text
  /-- The host state after the last publication. -/
  | state
deriving DecidableEq, Repr

namespace SnapshotFormat

def names : List String := ["text", "state"]

def ofName? : String → Option SnapshotFormat
  | "text" => some .text
  | "state" => some .state
  | _ => none

def render (surface : Surface) : SnapshotFormat → String
  | .text => surface.description
  | .state => surface.state.pretty

end SnapshotFormat

namespace Command

/-- The layer of a settings file that must be there, given its text. -/
def fileLayer (contents : Except FileError String) : Layer :=
  match contents with
  | .ok text => .file true (some (Toml.read? text))
  | .error _ => .file true none

/-- The configuration of a settings file, if there is one, with texts over it. The first path that
is none is reported before the file is looked at. -/
def configure (settings : Option (Except FileError String)) (overrides : List (String × String)) :
    Except CommandError Config :=
  match overrides.find? fun change => (PathStep.read? change.1).isNone with
  | some (path, _) => .error (.badOverride path)
  | none =>
    let layers := (settings.map fileLayer).toList ++
      overrides.map fun change => .override change.1 (.text change.2)
    match Config.build layers with
    | .ok config => .ok config
    | .error error => .error (.settings error)

def describeText (source : String) (options : Options) (format : String) :
    Except CommandError String :=
  match ProgramFormat.ofName? format with
  | none => .error (.unknownFormat format ProgramFormat.names)
  | some format =>
    match (SourceText.mk source).run (format.transform options) with
    | .ok text => .ok text
    | .error error => .error (.transform error)

/-- A surface on which the entries of a snapshot were registered in their order. -/
def surfaceOf (stateKey : String) (entries : List Entry) : Surface :=
  entries.foldl Surface.register { stateKey := stateKey }

/-- Register the entries of a snapshot and show the surface in the format of a name. -/
def listSnapshot (source stateKey format : String) : Except CommandError String :=
  match SnapshotFormat.ofName? format with
  | none => .error (.unknownFormat format SnapshotFormat.names)
  | some format =>
    match Snapshot.read? source with
    | none => .error .snapshot
    | some entries => .ok (format.render (surfaceOf stateKey entries))

end Command

end Caption
