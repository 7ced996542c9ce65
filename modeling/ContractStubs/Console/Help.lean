import ContractStubs.Console.Command

/-!
# Help

What is printed when arguments do not say what to do.
-/

namespace ContractStubs

namespace Console

/-- The commands and their options. -/
def helpLines : List String :=
  ["Commands:",
   "  generate, g   Generate implementation units for marked types",
   "                <PATHS>... [-o, --out <DIR>] [-d, --dry-run] [--json] [-c, --config <FILE>]",
   "  inspect, i    List marked types, their interfaces and member signatures",
   "                <PATHS>... [--json] [-c, --config <FILE>]",
   "  watch, w      Regenerate whenever a C# file changes",
   "                <PATHS>... [-o, --out <DIR>] [-c, --config <FILE>]",
   "  init          Write a default .implgen.json",
   "                [--cwd <DIR>] [-f, --force]",
   "  help          Print this message",
   "",
   "Options:",
   "  -h, --help     Print help",
   "  -V, --version  Print version"]

/-- The version of the program. -/
def versionLine : String := "0.1.0"

/-- The message of a fault. -/
def UsageFault.message : UsageFault → String
  | .nothingAsked | .help => "\n".intercalate helpLines
  | .version => versionLine
  | .unknownCommand => "error: unrecognized subcommand"
  | .unknownArgument => "error: unexpected argument found"
  | .missingPath => "error: a path is required"
  | .missingValue => "error: a value is required"
  | .unexpectedValue => "error: unexpected value"
  | .repeated => "error: an argument cannot be used twice"

/-- The code that the program ends with. -/
def UsageFault.exitCode : UsageFault → UInt32
  | .help | .version => 0
  | _ => 2

end Console

end ContractStubs
