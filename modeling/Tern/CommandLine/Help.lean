/-
What the command line says about itself.
-/
import Tern.CommandLine.Arguments

namespace Tern.CommandLine

/-- The version of the language. -/
def version : String := "tern 0.1.0"

/-- The help on a topic, line by line. -/
def help : Topic → List String
  | .all =>
    ["Tern language interpreter",
      "",
      "Usage: tern [OPTIONS] <COMMAND>",
      "",
      "Commands:",
      "  tokenize  Tokenizes a file, printing each token",
      "  parse     Parses a file and prints the AST of every top-level expression",
      "  run       Runs a file as a Tern program",
      "  help      Print this message or the help of the given subcommand(s)",
      "",
      "Options:",
      "      --log      Enable logging to app.log",
      "  -h, --help     Print help",
      "  -V, --version  Print version"]
  | .tokenize =>
    ["Tokenizes a file, printing each token",
      "",
      "Usage: tern tokenize [OPTIONS] <FILENAME>",
      "",
      "Arguments:",
      "  <FILENAME>  ",
      "",
      "Options:",
      "      --json  Print the token stream as JSON",
      "      --log   Enable logging to app.log",
      "      --raw   Keep whitespace, comments and line breaks",
      "  -h, --help  Print help"]
  | .parse =>
    ["Parses a file and prints the AST of every top-level expression",
      "",
      "Usage: tern parse [OPTIONS] <FILENAME>",
      "",
      "Arguments:",
      "  <FILENAME>  ",
      "",
      "Options:",
      "      --log   Enable logging to app.log",
      "  -h, --help  Print help"]
  | .run =>
    ["Runs a file as a Tern program",
      "",
      "Usage: tern run [OPTIONS] <FILENAME>",
      "",
      "Arguments:",
      "  <FILENAME>  ",
      "",
      "Options:",
      "      --log                        Enable logging to app.log",
      "      --module-root <MODULE_ROOT>  Directory imports are resolved against " ++
        "(defaults to the file's directory)",
      "      --max-depth <MAX_DEPTH>      Frames allowed on the call stack before the program " ++
        "fails [default: 1000]",
      "  -h, --help                       Print help"]
  | .help =>
    ["Print this message or the help of the given subcommand(s)",
      "",
      "Usage: tern help [COMMAND]...",
      "",
      "Arguments:",
      "  [COMMAND]...  Print help for the subcommand(s)"]

end Tern.CommandLine
