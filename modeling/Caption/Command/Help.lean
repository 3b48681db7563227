import Caption.Command.Arguments

/-! The help texts of the program. -/
namespace Caption

namespace Topic

def text : Topic → String
  | .program => String.intercalate "\n" [
    "Rewrite llm marker attributes and inspect describe trees",
    "",
    "Usage: describe [OPTIONS] [COMMAND]",
    "",
    "Commands:",
    "  transform  Rewrite marked elements in a Babel JSON tree",
    "  serialize  Register a JSON array of nodes in order and print the result",
    "  help       Print this message or the help of the given subcommand(s)",
    "",
    "Options:",
    "      --list-formats  List the output formats of every command",
    "  -v, --verbose       Log debug events to stderr",
    "  -h, --help          Print help",
    "  -V, --version       Print version"]
  | .transform => String.intercalate "\n" [
    "Rewrite marked elements in a Babel JSON tree",
    "",
    "Usage: describe transform [OPTIONS] <path>",
    "",
    "Arguments:",
    "  <path>  Path to the Babel JSON file",
    "",
    "Options:",
    "  -f, --format <format>                Output format (json, treeviz) [default: json]",
    "  -c, --config <config>                TOML file layered over the built-in defaults",
    "  -v, --verbose                        Log debug events to stderr",
    "      --marker <marker>                Marker attribute name (overrides transform.marker)",
    "      --wrapper <wrapper>              Wrapper symbol (overrides transform.wrapper)",
    "      --import-source <import-source>  Wrapper module specifier (overrides transform.import_source)",
    "  -h, --help                           Print help"]
  | .serialize => String.intercalate "\n" [
    "Register a JSON array of nodes in order and print the result",
    "",
    "Usage: describe serialize [OPTIONS] <path>",
    "",
    "Arguments:",
    "  <path>  Path to the node snapshot",
    "",
    "Options:",
    "  -f, --format <format>  Output format (text, state) [default: text]",
    "  -c, --config <config>  TOML file layered over the built-in defaults",
    "  -v, --verbose          Log debug events to stderr",
    "  -h, --help             Print help"]
  | .help => String.intercalate "\n" [
    "Print this message or the help of the given subcommand(s)",
    "",
    "Usage: describe help [COMMAND]...",
    "",
    "Arguments:",
    "  [COMMAND]...  Print help for the subcommand(s)"]

end Topic

end Caption
