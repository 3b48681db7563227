import Caption.Description.Options
import Caption.Registry.Surface
import Caption.Settings.Setting

/-!
The configuration: defaults, files and overrides in layers, and the two sections that come of them.
-/
namespace Caption

/-- The names of the description pass and the key of the host state. -/
structure Config where
  options : Options := {}
  stateKey : String := "__widget_context"
deriving DecidableEq, Repr

/-- Why there is no configuration. -/
inductive ConfigError where
  /-- A setting that must be text is none. -/
  | wrongType
  /-- A section is no table, or lacks a setting. -/
  | badSection
  /-- The path of an override is no path. -/
  | badPath
  /-- A file that must be there is not. -/
  | missingFile
  /-- A file is not well formed. -/
  | badFile
deriving DecidableEq, Repr

def ConfigError.message : ConfigError → String
  | .wrongType => "a setting is not a text"
  | .badSection => "a section is not a table of its settings"
  | .badPath => "not a path of names"
  | .missingFile => "configuration file not found"
  | .badFile => "configuration file is not well formed"

/-- A layer over the defaults. A file is given by its settings, if it was there and well formed. -/
inductive Layer where
  | file (required : Bool) (contents : Option (Option (List (String × Setting))))
  | override (path : String) (value : Setting)

namespace Config

/-- The defaults as a layer. -/
def defaults : List (String × Setting) :=
  let config : Config := {}
  [("transform", .table [("marker", .text config.options.marker),
      ("wrapper", .text config.options.wrapper),
      ("import_source", .text config.options.importSource),
      ("content_prop", .text config.options.contentProp)]),
    ("registry", .table [("state_key", .text config.stateKey)])]

def text : Setting → Except ConfigError String
  | .text value => .ok value
  | _ => .error .wrongType

/-- The settings of a section in the order of its names. A section may also be a list of their
values; what it holds beyond them is ignored. A setting of a wrong type is reported before a
missing one. -/
def readSection (names : List String) : Setting → Except ConfigError (List String)
  | .table entries => do
    let found := names.map fun name => (Setting.table entries).get? name
    let texts ← found.mapM fun setting => setting.mapM text
    match texts.mapM id with
    | some values => pure values
    | none => throw .badSection
  | .list items => do
    let values ← (items.take names.length).mapM text
    if items.length < names.length then throw .badSection
    pure values
  | _ => .error .badSection

/-- The configuration that settings describe. -/
def ofSettings (settings : Setting) : Except ConfigError Config := do
  let transform ← readSection ["marker", "wrapper", "import_source", "content_prop"]
    ((settings.get? "transform").getD .null)
  let registry ← readSection ["state_key"] ((settings.get? "registry").getD .null)
  match transform, registry with
  | [marker, wrapper, importSource, contentProp], [stateKey] =>
    pure ⟨⟨marker, wrapper, importSource, contentProp⟩, stateKey⟩
  | _, _ => throw .badSection

/-- The paths and values of the overrides. A path is looked at before any file is read. -/
def overrides : List Layer → Except ConfigError (List (List PathStep × Setting))
  | [] => pure []
  | .file _ _ :: rest => overrides rest
  | .override text value :: rest => do
    match PathStep.read? text with
    | none => throw .badPath
    | some path =>
      let others ← overrides rest
      pure ((path, value) :: others)

/-- Lay the files over settings, in their order. -/
def addFiles (below : Setting) : List Layer → Except ConfigError Setting
  | [] => pure below
  | .override _ _ :: rest => addFiles below rest
  | .file required none :: rest => if required then .error .missingFile else addFiles below rest
  | .file _ (some none) :: _ => .error .badFile
  | .file _ (some (some settings)) :: rest => addFiles (below.addLayer settings) rest

/-- Build the configuration. Overrides go over all files, wherever they stand among the layers. -/
def build (layers : List Layer) : Except ConfigError Config := do
  let changes ← overrides layers
  let base ← addFiles ((Setting.table []).addLayer defaults) layers
  ofSettings (changes.foldl (fun current change => Setting.setAt (some current) change.1 change.2) base)

end Config

end Caption
