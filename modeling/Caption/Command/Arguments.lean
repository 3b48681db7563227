/-!
Command lines. Arguments are read from left to right: options with one dash or two, the name of a
command, and the path that the command works on. The first thing that ends the reading decides.
-/
namespace Caption

inductive UsageError where
  | unknownArgument (argument : String)
  | unknownCommand (name : String)
  | missingValue (option : String)
  | unwantedValue (option : String)
  | repeated (option : String)
  | missingPath
  | noArguments
deriving DecidableEq, Repr

inductive Topic where
  | program
  | transform
  | serialize
  | help
deriving DecidableEq, Repr

def Topic.ofName? : String → Option Topic
  | "transform" => some .transform
  | "serialize" => some .serialize
  | "help" => some .help
  | _ => none

/-- The arguments that both commands take. -/
structure Target where
  path : String
  format : String
  settings : Option String
deriving DecidableEq, Repr

inductive Request where
  | help (topic : Topic)
  | version
  | listFormats
  /-- Describe the program at a path; each override has the path of its setting. -/
  | transform (target : Target) (overrides : List (String × String))
  | serialize (target : Target)
  /-- Options alone. -/
  | nothing
deriving DecidableEq, Repr

/-- An option and whether a value follows it. -/
structure Switch where
  long : String
  short : Option Char
  takesValue : Bool
deriving DecidableEq, Repr

/-- What ends the reading of a command line early. -/
inductive Stop where
  | help
  | version
  | misuse (error : UsageError)
deriving DecidableEq, Repr

namespace Switch

/-- An option is written with two dashes. -/
def shown (switch : Switch) : String := "--" ++ switch.long

def listFormats : Switch := ⟨"list-formats", none, false⟩
def verbose : Switch := ⟨"verbose", some 'v', false⟩
def help : Switch := ⟨"help", some 'h', false⟩
def version : Switch := ⟨"version", some 'V', false⟩
def format : Switch := ⟨"format", some 'f', true⟩
def settings : Switch := ⟨"config", some 'c', true⟩
def marker : Switch := ⟨"marker", none, true⟩
def wrapper : Switch := ⟨"wrapper", none, true⟩
def importSource : Switch := ⟨"import-source", none, true⟩

def general : List Switch := [listFormats, verbose, help, version]

def common : List Switch := [format, settings, verbose, help]

def ofTransform : List Switch := common ++ [marker, wrapper, importSource]

end Switch

/-- The arguments of one command that were read so far. -/
structure Scan where
  /-- The options that were given, with their values. -/
  given : List (Switch × String) := []
  /-- An option whose value comes next. -/
  pending : Option Switch := none
  /-- After two dashes alone every argument is a path. -/
  onlyPaths : Bool := false
  path : Option String := none
deriving DecidableEq, Repr

namespace Scan

/-- Whether an argument is an option; one dash alone is none. -/
def isOption (argument : String) : Bool :=
  argument.startsWith "-" && argument != "-"

def value? (scan : Scan) (switch : Switch) : Option String :=
  (scan.given.find? fun found => found.1 == switch).map Prod.snd

/-- Take an option with its value; each may be given once. -/
def give (scan : Scan) (switch : Switch) (value : String) : Except Stop Scan :=
  if switch = .help then .error .help
  else if switch = .version then .error .version
  else if (scan.value? switch).isSome then .error (.misuse (.repeated switch.shown))
  else .ok { scan with given := scan.given ++ [(switch, value)], pending := none }

/-- Read an option with two dashes, which may bring its value after an equals sign. -/
def long (switches : List Switch) (scan : Scan) (written : List Char) : Except Stop Scan :=
  let name := String.ofList (written.takeWhile (· != '='))
  match switches.find? fun switch => switch.long == name with
  | none => .error (.misuse (.unknownArgument ("--" ++ name)))
  | some switch =>
    match written.dropWhile (· != '='), switch.takesValue with
    | [], false => scan.give switch ""
    | [], true => .ok { scan with pending := some switch }
    | _ :: _, false => .error (.misuse (.unwantedValue switch.shown))
    | _ :: value, true => scan.give switch (String.ofList value)

/-- Read options of one letter behind one dash. The first one that takes a value takes the rest of
the argument for it, if there is any. -/
def letters (switches : List Switch) (scan : Scan) : List Char → Except Stop Scan
  | [] => .ok scan
  | letter :: rest =>
    match switches.find? fun switch => switch.short == some letter with
    | none => .error (.misuse (.unknownArgument (String.ofList ['-', letter])))
    | some switch =>
      if switch.takesValue then
        match rest with
        | [] => .ok { scan with pending := some switch }
        | '=' :: value => scan.give switch (String.ofList value)
        | value => scan.give switch (String.ofList value)
      else do
        let scan ← scan.give switch ""
        scan.letters switches rest

def option (switches : List Switch) (scan : Scan) (argument : String) : Except Stop Scan :=
  match argument.toList with
  | '-' :: '-' :: written => scan.long switches written
  | _ :: written => scan.letters switches written
  | [] => .ok scan

def step (switches : List Switch) (scan : Scan) (argument : String) : Except Stop Scan :=
  match scan.pending with
  | some switch =>
    if isOption argument then .error (.misuse (.missingValue switch.shown))
    else scan.give switch argument
  | none =>
    if !scan.onlyPaths && argument == "--" then .ok { scan with onlyPaths := true }
    else if !scan.onlyPaths && isOption argument then scan.option switches argument
    else if scan.path.isSome then .error (.misuse (.unknownArgument argument))
    else .ok { scan with path := some argument }

/-- The target of a command, given the format that is meant when none is named. -/
def target (scan : Scan) (format : String) : Except Stop Target :=
  match scan.pending, scan.path with
  | some switch, _ => .error (.misuse (.missingValue switch.shown))
  | none, none => .error (.misuse .missingPath)
  | none, some path =>
    .ok ⟨path, (scan.value? .format).getD format, scan.value? .settings⟩

def overrides (scan : Scan) : List (String × String) :=
  let entry (switch : Switch) (path : String) := (scan.value? switch).map fun value => (path, value)
  [entry .marker "transform.marker", entry .wrapper "transform.wrapper",
    entry .importSource "transform.import_source"].filterMap id

end Scan

namespace Request

/-- The request for help on what names say; no command has commands of its own. -/
def ofHelp : List String → Except UsageError Request
  | [] => .ok (.help .program)
  | name :: rest =>
    match Topic.ofName? name, rest with
    | none, _ => .error (.unknownCommand name)
    | some topic, [] => .ok (.help topic)
    | some _, further :: _ => .error (.unknownCommand further)

/-- What a reading that ended gives, where help is about a topic. -/
def ofReading (topic : Topic) : Except Stop Request → Except UsageError Request
  | .ok request => .ok request
  | .error .help => .ok (.help topic)
  | .error .version => .ok .version
  | .error (.misuse error) => .error error

def ofCommand (name : String) (arguments : List String) : Except UsageError Request :=
  match name with
  | "transform" => ofReading .transform do
    let scan ← arguments.foldlM (Scan.step Switch.ofTransform) {}
    let target ← scan.target "json"
    pure (.transform target scan.overrides)
  | "serialize" => ofReading .serialize do
    let scan ← arguments.foldlM (Scan.step Switch.common) {}
    let target ← scan.target "text"
    pure (.serialize target)
  | "help" => ofHelp arguments
  | _ => .error (.unknownCommand name)

/-- The request of a command line after the options that were read. Listing the formats goes before
a command, which must be well formed all the same. -/
def after (scan : Scan) : List String → Except UsageError Request
  | [] => withoutCommand
  | argument :: rest =>
    if argument = "--" then
      match rest with
      | [] => withoutCommand
      | unknown :: _ => .error (.unknownArgument unknown)
    else if Scan.isOption argument then
      match scan.option Switch.general argument with
      | .ok scan => after scan rest
      | .error stop => ofReading .program (.error stop)
    else
      match ofCommand argument rest with
      | .ok (.transform target overrides) => .ok (listed (.transform target overrides))
      | .ok (.serialize target) => .ok (listed (.serialize target))
      | other => other
where
  listed (request : Request) : Request :=
    if (scan.value? .listFormats).isSome then .listFormats else request
  withoutCommand : Except UsageError Request :=
    if scan.given = [] then .error .noArguments else .ok (listed .nothing)

def ofArguments (arguments : List String) : Except UsageError Request := after {} arguments

end Request

namespace UsageError

def message : UsageError → String
  | .unknownArgument argument => "unexpected argument '" ++ argument ++ "' found"
  | .unknownCommand name => "unrecognized subcommand '" ++ name ++ "'"
  | .missingValue option => "a value is required for '" ++ option ++ "' but none was supplied"
  | .unwantedValue option => "unexpected value for '" ++ option ++ "' found; no more were expected"
  | .repeated option => "the argument '" ++ option ++ "' cannot be used multiple times"
  | .missingPath => "the following required arguments were not provided: <path>"
  | .noArguments => "no arguments were given"

end UsageError

end Caption
