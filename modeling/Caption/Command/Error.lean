import Caption.Pipeline.SourceText
import Caption.Registry.Snapshot
import Caption.Settings.Config

/-! What can go wrong in a command. -/
namespace Caption

inductive CommandError where
  | unknownFormat (format : String) (available : List String)
  | transform (error : LoadError)
  | snapshot
  | badOverride (path : String)
  | settings (error : ConfigError)
  | unreadable (path : String) (error : FileError)
  | noCommand
deriving DecidableEq, Repr

namespace CommandError

def message : CommandError → String
  | .unknownFormat format available =>
    "Unknown format '" ++ format ++ "'. Available formats: " ++ String.intercalate ", " available
  | .transform error => "Transform failed: " ++ error.message
  | .snapshot => Snapshot.invalid
  | .badOverride path => "Invalid override " ++ path ++ ": " ++ ConfigError.badPath.message
  | .settings error => "Failed to load configuration: " ++ error.message
  | .unreadable path error => "Failed to read " ++ path ++ ": " ++ error.message
  | .noCommand => "No command given. Run with --help for usage."

end CommandError

end Caption
