/-!
# ProviderTypes.CommandLine.Help

The texts that explain the command line.
-/

namespace ProviderTypes.CommandLine

/-- The commands. -/
inductive CommandName where
  | generate
  | generateConfig
  deriving DecidableEq, Repr

def CommandName.text : CommandName → String
  | .generate => "generate"
  | .generateConfig => "generate-config"

/-- All commands in order. -/
def CommandName.all : List CommandName := [.generate, .generateConfig]

def programName : String := "tfbindgen"

def versionText : String := programName ++ ", version 0.3.0\n"

/-- What a command is called with, in its usage. -/
def usageParts : Option CommandName → String
  | none => " [OPTIONS] COMMAND [ARGS]..."
  | some .generate => " generate [OPTIONS] [INPUT_PATH]"
  | some .generateConfig => " generate-config [OPTIONS]"

def commandPath : Option CommandName → String
  | none => programName
  | some c => programName ++ " " ++ c.text

/-- The usage of a command, or of the program. -/
def usageText (c : Option CommandName) : String := "Usage: " ++ programName ++ usageParts c ++ "\n"

/-- Where to find help. -/
def helpHint (c : Option CommandName) : String :=
  "Try '" ++ commandPath c ++ " --help' for help.\n"

/-- The lines of help after the usage. -/
def helpLines : Option CommandName → List String
  | none =>
    ["  Terraform provider schema to serde type bindings generator.",
      "",
      "Options:",
      "  --version   Show the version and exit.",
      "  -h, --help  Show this message and exit.",
      "",
      "Commands:",
      "  generate         Generate type definitions from a JSON provider schema...",
      "  generate-config  Generate a generator configuration template with..."]
  | some .generate =>
    ["  Generate type definitions from a JSON provider schema export (INPUT_PATH).",
      "",
      "Options:",
      "  --config PATH         Path to a YAML/JSON generator configuration file",
      "  --output PATH         Write generated definitions to this file instead of",
      "                        standard output",
      "  --format [rust|yaml]  Output rendering; overrides generator.output_format",
      "  --module-name TEXT    Module name recorded in the generated source",
      "  -v, --verbose         Log progress to stderr.",
      "  -h, --help            Show this message and exit."]
  | some .generateConfig =>
    ["  Generate a generator configuration template with guidance comments.",
      "",
      "Options:",
      "  --output PATH  Path to the YAML generator configuration template to write",
      "                 [default: tfbindgen.yaml]",
      "  -h, --help     Show this message and exit."]

def helpText (c : Option CommandName) : String :=
  usageText c ++ "\n" ++ String.join ((helpLines c).map fun line => line ++ "\n")

end ProviderTypes.CommandLine
