import ProviderTypes.FieldName
import ProviderTypes.Members
import ProviderTypes.Registry.Basic
/-!
# ProviderTypes.Settings.Basic

Settings of a run: how blocks are flattened, and how the registry is rendered.
-/

namespace ProviderTypes

/-- The renderings of a registry. -/
inductive OutputFormat where
  | rust
  | yaml
  deriving DecidableEq, Repr, Inhabited

def OutputFormat.text : OutputFormat → String
  | .rust => "rust"
  | .yaml => "yaml"

/-- All renderings, in the order in which messages list them. -/
def OutputFormat.all : List OutputFormat := [.rust, .yaml]

/-- The keywords of Rust that can be written as raw identifiers. -/
def rustReservedWords : List String :=
  ["abstract", "as", "async", "await", "become", "box", "break", "const", "continue", "do", "dyn",
    "else", "enum", "extern", "false", "final", "fn", "for", "gen", "if", "impl", "in", "let",
    "loop", "macro", "match", "mod", "move", "mut", "override", "priv", "pub", "ref", "return",
    "static", "struct", "trait", "true", "try", "type", "typeof", "unsafe", "unsized", "use",
    "virtual", "where", "while", "yield"]

/-- The keywords of Rust that stand for paths and cannot be raw identifiers. -/
def rustPathKeywords : List String := ["Self", "crate", "self", "super"]

/-- How the registry is rendered. -/
structure GeneratorSettings where
  moduleName : String := "default"
  outputFormat : OutputFormat := .rust
  /-- Macros derived by every type beside those of serialization. -/
  deriveMacros : List String := ["Clone", "Debug", "PartialEq", "PartialOrd"]
  /-- Whether types and fields are public. -/
  trackVisibility : Bool := true
  /-- Whether descriptions become comments. -/
  emitDocs : Bool := true
  /-- Names that modules provide from outside. -/
  externalDefinitions : Members (List String) := []
  deriving DecidableEq, Repr

/-- The names that come from outside, module by module. -/
def GeneratorSettings.externalNames (s : GeneratorSettings) : List String :=
  s.externalDefinitions.flatMap Prod.snd

/-- How blocks are flattened. -/
structure FlatteningSettings where
  escapes : EscapeRules :=
    { reservedWords := .ofNames rustReservedWords, pathKeywords := .ofNames rustPathKeywords }
  injectMetaAttributes : Bool := true
  onDuplicate : DuplicatePolicy := .error
  deriving DecidableEq

/-- All settings of a run, and the file they were read from. -/
structure Configuration where
  path : Option String := none
  generator : GeneratorSettings := {}
  flattening : FlatteningSettings := {}
  deriving DecidableEq

end ProviderTypes
