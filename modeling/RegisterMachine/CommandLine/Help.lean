import RegisterMachine.CommandLine.Arguments

/-!
# Help

The texts that tell how to use the command line.
-/

namespace RegisterMachine.CommandLine

def versionText : String :=
  "hs 0.1.0\n"

/-- Lines, each with a line end. -/
def lines (texts : List String) : String :=
  String.join (texts.map (· ++ "\n"))

def Topic.usage : Topic → String
  | .tool => "hs <COMMAND>"
  | .run => "hs run [OPTIONS] <FILE>"
  | .list => "hs disasm <FILE>"
  | .verify => "hs verify <FILE>"
  | .assemble => "hs asm [OPTIONS] <SRC>"
  | .help => "hs help [COMMAND]..."

def Topic.operand : Topic → String
  | .assemble => "SRC"
  | _ => "FILE"

def Topic.about : Topic → String
  | .tool => "Humming Script bytecode toolchain"
  | .run => "Run a module (.hsm) or assembly source (.hsa)"
  | .list => "Disassemble a module"
  | .verify => "Verify a module without running it"
  | .assemble => "Assemble a text source into a binary module"
  | .help => "Print this message or the help of the given subcommand(s)"

def Topic.details : Topic → List String
  | .tool =>
    ["Commands:",
      "  run     " ++ Topic.about .run,
      "  disasm  " ++ Topic.about .list,
      "  verify  " ++ Topic.about .verify,
      "  asm     " ++ Topic.about .assemble,
      "  help    " ++ Topic.about .help,
      "",
      "Options:",
      "  -h, --help     Print help",
      "  -V, --version  Print version"]
  | .run =>
    ["Arguments:",
      "  <FILE>  File to execute",
      "",
      "Options:",
      "  -c, --config <CONFIG>  VM options file (TOML)",
      "      --trace            Log every dispatched instruction",
      "  -h, --help             Print help"]
  | .list | .verify =>
    ["Arguments:",
      "  <FILE>  Module or assembly file",
      "",
      "Options:",
      "  -h, --help  Print help"]
  | .assemble =>
    ["Arguments:",
      "  <SRC>  Assembly source",
      "",
      "Options:",
      "  -o, --out <OUT>  Output path (defaults to the source with a .hsm extension)",
      "  -h, --help       Print help"]
  | .help =>
    ["Arguments:",
      "  [COMMAND]...  Print help for the subcommand(s)"]

def Topic.helpText (topic : Topic) : String :=
  lines ([topic.about, "", "Usage: " ++ topic.usage, ""] ++ topic.details)

namespace UsageError

def topic : UsageError → Topic
  | .noCommand | .unknownCommand _ => .tool
  | .unexpected topic _ | .missingValue topic _ | .repeated topic _ | .missingOperand topic => topic

def message : UsageError → String
  | .noCommand => "a subcommand is required but one was not provided"
  | .unknownCommand word => s!"unrecognized subcommand '{word}'"
  | .unexpected _ word => s!"unexpected argument '{word}' found"
  | .missingValue _ option => s!"a value is required for '--{option}' but none was supplied"
  | .repeated _ option => s!"the argument '--{option}' cannot be used multiple times"
  | .missingOperand topic =>
    "the following required arguments were not provided:\n  <" ++ topic.operand ++ ">"

/-- The text of a usage error. Without a command the help is shown instead. -/
def text : UsageError → String
  | .noCommand => Topic.tool.helpText
  | error =>
    lines ["error: " ++ error.message, "", "Usage: " ++ error.topic.usage, "",
      "For more information, try '--help'."]

end UsageError

end RegisterMachine.CommandLine
