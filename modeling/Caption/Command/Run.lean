import Caption.Command.Execute
import Caption.Command.Help
import Caption.Files

/-!
Running a command line on files: what is printed, what is reported, and the exit code. A request
that succeeds exits with 0, a command that fails with 1, and a malformed command line with 2.
-/
namespace Caption

/-- What a run leaves behind. -/
structure Outcome where
  code : Nat
  output : String
  errors : String
deriving DecidableEq, Repr

namespace Outcome

def printed (text : String) : Outcome := ⟨0, text ++ "\n", ""⟩

def ofResult : Except CommandError String → Outcome
  | .ok text => printed text
  | .error error => ⟨1, "", error.message ++ "\n"⟩

/-- The outcome of a malformed command line. Without any arguments the help is shown. -/
def ofUsageError : UsageError → Outcome
  | .noArguments => ⟨2, "", Topic.program.text ++ "\n"⟩
  | error => ⟨2, "", "error: " ++ error.message ++ "\n\nFor more information, try '--help'.\n"⟩

end Outcome

namespace Command

/-- The name and version of the program. -/
def version : String := "describe 0.1.0"

def formats : String :=
  "Available output formats:\n\n  transform: " ++ String.intercalate ", " ProgramFormat.names ++
    "\n  serialize: " ++ String.intercalate ", " SnapshotFormat.names

/-- Where a settings file may lie: the ending of its name may have been left out. A path that ends
in dots alone, after the slashes and single dots at its end, names no file. -/
def settingsPaths (path : String) : List String :=
  match ((path.splitOn "/").reverse.dropWhile fun name => name == "" || name == ".").reverse with
  | [] => [path]
  | names =>
    if names.getLast? = some ".." then [path]
    else [path, String.intercalate "/" names ++ ".toml"]

def settingsText (files : Files) (path : String) : Except FileError String :=
  match (settingsPaths path).findSome? fun place => (files place).toOption with
  | some text => .ok text
  | none => files path

def inputText (files : Files) (path : String) : Except CommandError String :=
  match files path with
  | .ok text => .ok text
  | .error error => .error (.unreadable path error)

def transform (files : Files) (target : Target) (overrides : List (String × String)) :
    Except CommandError String := do
  let config ← configure (target.settings.map (settingsText files)) overrides
  let source ← inputText files target.path
  describeText source config.options target.format

def serialize (files : Files) (target : Target) : Except CommandError String := do
  let config ← configure (target.settings.map (settingsText files)) []
  let source ← inputText files target.path
  listSnapshot source config.stateKey target.format

def answer (files : Files) : Request → Outcome
  | .help topic => .printed topic.text
  | .version => .printed version
  | .listFormats => .printed formats
  | .transform target overrides => .ofResult (transform files target overrides)
  | .serialize target => .ofResult (serialize files target)
  | .nothing => .ofResult (.error .noCommand)

/-- The paths at which a command line may look for files. -/
def paths (arguments : List String) : List String :=
  match Request.ofArguments arguments with
  | .ok (.transform target _) => target.path :: (target.settings.toList.flatMap settingsPaths)
  | .ok (.serialize target) => target.path :: (target.settings.toList.flatMap settingsPaths)
  | _ => []

def run (files : Files) (arguments : List String) : Outcome :=
  match Request.ofArguments arguments with
  | .ok request => answer files request
  | .error error => .ofUsageError error

end Command

end Caption
