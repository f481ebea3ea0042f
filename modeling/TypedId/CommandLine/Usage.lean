/-!
The commands of the program, and the help for each of them.
-/
namespace TypedId

/-- What help is given for: the program itself or one of its commands. -/
inductive Topic where
  | program
  | scan
  | generate
  | help
  deriving DecidableEq, Repr

namespace Topic

def commands : List (String × Topic) := [("scan", scan), ("generate", generate), ("help", help)]

/-- What the program says of its version. -/
def versionText : String := "idgen 0.1.0\n"

def programUsage : String :=
"Generates strongly typed identifiers for marked i64 newtypes

Usage: idgen [OPTIONS] <COMMAND>

Commands:
  scan      List extensible struct declarations and whether they qualify
  generate  Generate identifier units for marked declarations
  help      Print this message or the help of the given subcommand(s)

Options:
      --json        Output as JSON
      --plain       Disable colors (plain text output)
  -v, --verbose...  Increase log verbosity (-v info, -vv debug, -vvv trace)
  -h, --help        Print help
  -V, --version     Print version
"

def scanUsage : String :=
"List extensible struct declarations and whether they qualify

Usage: idgen scan [OPTIONS] <PATH>...

Arguments:
  <PATH>...  Rust source files or directories to scan

Options:
      --json           Output as JSON
      --root <DIR>     Source root used to derive module paths (defaults to each input)
      --plain          Disable colors (plain text output)
      --strict-marker  Only accept the marker written as, or imported from,
                       `idgen_macros::identifier`
  -v, --verbose...     Increase log verbosity (-v info, -vv debug, -vvv trace)
  -h, --help           Print help
"

def generateUsage : String :=
"Generate identifier units for marked declarations

Usage: idgen generate [OPTIONS] <PATH>...

Arguments:
  <PATH>...  Rust source files or directories to scan

Options:
      --json           Output as JSON
      --root <DIR>     Source root used to derive module paths (defaults to each input)
      --plain          Disable colors (plain text output)
      --strict-marker  Only accept the marker written as, or imported from,
                       `idgen_macros::identifier`
  -o, --out-dir <DIR>  Directory the generated units are written under [default: generated]
  -v, --verbose...     Increase log verbosity (-v info, -vv debug, -vvv trace)
      --dry-run        Print the units instead of writing them
  -h, --help           Print help
"

def helpUsage : String :=
"Print this message or the help of the given subcommand(s)

Usage: idgen help [COMMAND]...

Arguments:
  [COMMAND]...  Print help for the subcommand(s)
"

def usage : Topic → String
  | program => programUsage
  | scan => scanUsage
  | generate => generateUsage
  | help => helpUsage

end Topic

end TypedId
