import ProviderTypes.Machine
import ProviderTypes.Text.Blank
/-!
# ProviderTypes.Settings.Loader

Reading settings from a file. The file holds a YAML mapping with two optional sections; each
setting that is not written has a default. Texts count without the blanks around them. The
first fault is the answer, in the order in which the settings are listed here.
-/

namespace ProviderTypes

/-- Why settings are refused. -/
inductive SettingsError where
  | missingFile (path : Path)
  | notYaml
  | rootNotMapping
  | unknownSections (names : List String)
  | notMapping (name : String)
  | notText (field : String)
  | emptyText (field : String)
  | notFlag (field : String)
  | notChoice (field : String) (choices : List String)
  | notTexts (field : String)
  | entryNotText (field : String)
  | keyNotText (field : String)
  /-- A macro that every type derives anyway. -/
  | derivedAlways (name : String)
  /-- A macro that every record derives anyway. -/
  | derivedByRecords (name : String)
  | placeholderCount (field : String)
  deriving DecidableEq, Repr

def SettingsError.message : SettingsError → String
  | .missingFile path => "Configuration file not found: " ++ path.text
  | .notYaml => "Failed to parse configuration file"
  | .rootNotMapping => "Configuration root must be a mapping."
  | .unknownSections names => "Unknown configuration sections: " ++ ", ".intercalate names
  | .notMapping name => "Configuration section '" ++ name ++ "' must be a mapping."
  | .notText field => field ++ " must be a string."
  | .emptyText field => field ++ " must not be empty."
  | .notFlag field => field ++ " must be a boolean."
  | .notChoice field choices => field ++ " must be one of: " ++ ", ".intercalate choices ++ "."
  | .notTexts field => field ++ " must be a string or list of strings."
  | .entryNotText field => field ++ " entries must be strings."
  | .keyNotText field => field ++ " keys must be strings."
  | .derivedAlways name =>
    "generator.derive_macros must not list " ++ name ++ "; it is always derived."
  | .derivedByRecords name =>
    "generator.derive_macros must not list " ++ name ++ "; structs always derive it."
  | .placeholderCount field =>
    field ++ " must contain the " ++ placeholder ++ " placeholder exactly once."

/-- Why reading settings fails. -/
inductive LoadError where
  | refused (e : SettingsError)
  | interrupted (cause : Interruption)
  deriving DecidableEq, Repr

namespace Settings

open Yaml (Atom Value)

/-- The entries of a section. -/
abbrev Section := List (Atom × Value)

/-! ## Single settings -/

/-- A text without the blanks around it, which must leave something. -/
def readText (field : String) : Value → Except SettingsError String
  | .atom (.text s) => if stripBlank s = "" then .error (.emptyText field) else .ok (stripBlank s)
  | _ => .error (.notText field)

/-- A text setting with a default. -/
def textOr (sec : Section) (name field default : String) : Except SettingsError String :=
  match Value.entry? sec name with
  | none => .ok default
  | some v => readText field v

/-- A flag with a default, which null stands for too. -/
def flagOr (sec : Section) (name field : String) (default : Bool) : Except SettingsError Bool :=
  match Value.entry? sec name with
  | none => .ok default
  | some (.atom .null) => .ok default
  | some (.atom (.bool b)) => .ok b
  | some _ => .error (.notFlag field)

/-- One of several names, whatever its case. -/
def choiceOr {α : Type} (sec : Section) (name field : String) (default : α) (text : α → String)
    (choices : List α) : Except SettingsError α :=
  match Value.entry? sec name with
  | none => .ok default
  | some v => do
    let s ← readText field v
    let word := String.ofList (s.toList.map Char.toLower)
    match choices.find? fun c => text c = word with
    | some c => return c
    | none => .error (.notChoice field (choices.map text))

/-- A text stripped of blanks, unless nothing is left. -/
def keepText (s : String) : List String := if stripBlank s = "" then [] else [stripBlank s]

/-- The texts of a list, stripped of blanks, without those of which nothing is left. -/
def readTextItems (field : String) : List Value → Except SettingsError (List String)
  | [] => .ok []
  | .atom (.text s) :: rest => do
    let others ← readTextItems field rest
    return keepText s ++ others
  | _ :: _ => .error (.entryNotText field)

/-- A text or a list of texts. -/
def readTexts (field : String) : Value → Except SettingsError (List String)
  | .atom (.text s) => .ok (keepText s)
  | .list items => readTextItems field items
  | .atom (.bytes size) => if size = 0 then .ok [] else .error (.entryNotText field)
  | _ => .error (.notTexts field)

/-- A list of texts with a default. -/
def textsOr (sec : Section) (name field : String) (default : List String) :
    Except SettingsError (List String) :=
  match Value.entry? sec name with
  | none => .ok default
  | some v => readTexts field v

/-- A set of words with a default, which null stands for too. -/
def wordsOr (sec : Section) (name field : String) (default : NameSet) :
    Except SettingsError NameSet :=
  match Value.entry? sec name with
  | none => .ok default
  | some (.atom .null) => .ok default
  | some v => NameSet.ofNames <$> readTexts field v

/-- A template, which holds the placeholder once. -/
def templateOr (sec : Section) (name field default : String) : Except SettingsError String := do
  let template ← textOr sec name field default
  if Template.count template = 1 then return template else .error (.placeholderCount field)

/-! ## Sections -/

/-- The entries of a section, none when there is nothing. -/
def readSection (name : String) : Option Value → Except SettingsError Section
  | none => .ok []
  | some (.atom .null) => .ok []
  | some (.map entries) => .ok entries
  | some _ => .error (.notMapping name)

/-- The macros of a section: none that is derived anyway. -/
def checkMacros (names : List String) : Except SettingsError Unit :=
  if "Serialize" ∈ names then .error (.derivedAlways "Serialize")
  else if "Deserialize" ∈ names then .error (.derivedAlways "Deserialize")
  else if "Default" ∈ names then .error (.derivedByRecords "Default")
  else .ok ()

/-- The names that modules provide. A module that is written again, up to blanks, keeps its
    place and takes the last names. -/
def readModules (before : Members (List String)) :
    Section → Except SettingsError (Members (List String))
  | [] => .ok before
  | (.text modulePath, v) :: rest => do
    let names ← readTexts ("generator.external_definitions." ++ modulePath) v
    readModules (before.put (stripBlank modulePath) names) rest
  | _ :: _ => .error (.keyNotText "generator.external_definitions")

def readGenerator (v : Option Value) : Except SettingsError GeneratorSettings := do
  let default : GeneratorSettings := {}
  let sec ← readSection "generator" v
  let moduleName ← textOr sec "module_name" "generator.module_name" default.moduleName
  let outputFormat ←
    choiceOr sec "output_format" "generator.output_format" default.outputFormat OutputFormat.text
      OutputFormat.all
  let deriveMacros ← textsOr sec "derive_macros" "generator.derive_macros" default.deriveMacros
  checkMacros deriveMacros
  let trackVisibility ←
    flagOr sec "track_visibility" "generator.track_visibility" default.trackVisibility
  let emitDocs ← flagOr sec "emit_docs" "generator.emit_docs" default.emitDocs
  let modules ←
    readSection "generator.external_definitions" (Value.entry? sec "external_definitions")
  let externalDefinitions ← readModules [] modules
  return { moduleName, outputFormat, deriveMacros, trackVisibility, emitDocs, externalDefinitions }

def readFlattening (v : Option Value) : Except SettingsError FlatteningSettings := do
  let default : FlatteningSettings := {}
  let sec ← readSection "flattening" v
  let reservedWords ←
    wordsOr sec "reserved_words" "flattening.reserved_words" default.escapes.reservedWords
  let reservedWordEscape ←
    templateOr sec "reserved_word_escape" "flattening.reserved_word_escape"
      default.escapes.reservedWordEscape
  let pathKeywords ←
    wordsOr sec "path_keywords" "flattening.path_keywords" default.escapes.pathKeywords
  let pathKeywordEscape ←
    templateOr sec "path_keyword_escape" "flattening.path_keyword_escape"
      default.escapes.pathKeywordEscape
  let injectMetaAttributes ←
    flagOr sec "inject_meta_attributes" "flattening.inject_meta_attributes"
      default.injectMetaAttributes
  let onDuplicate ←
    choiceOr sec "on_duplicate" "flattening.on_duplicate" default.onDuplicate DuplicatePolicy.text
      DuplicatePolicy.all
  return {
    escapes := { reservedWords, reservedWordEscape, pathKeywords, pathKeywordEscape }
    injectMetaAttributes
    onDuplicate }

/-! ## Files -/

def sectionNames : List String := ["generator", "flattening"]

/-- The sections that are not known, in order; they are listed only if all are texts. -/
def checkSections (entries : Section) : Except LoadError Unit :=
  if entries.any fun e => e.1.text?.isNone then .error (.interrupted .unlistable)
  else
    let names := entries.filterMap fun e => e.1.text?
    match (NameSet.ofNames (names.filter (· ∉ sectionNames))).names with
    | [] => .ok ()
    | unknown => .error (.refused (.unknownSections unknown))

/-- The settings that a value stands for. -/
def ofValue (v : Value) : Except LoadError (GeneratorSettings × FlatteningSettings) := do
  let entries ←
    match v with
    | .atom .null => pure []
    | .map entries => pure entries
    | _ => .error (.refused .rootNotMapping)
  checkSections entries
  let generator ← (readGenerator (Value.entry? entries "generator")).mapError .refused
  let flattening ← (readFlattening (Value.entry? entries "flattening")).mapError .refused
  return (generator, flattening)

/-- How deep settings lie: the deepest are the names in the list of a module in the module list
    of a section. -/
def depth : Nat := 4

variable {σ : Type}

/-- The settings that a text stands for. -/
def ofText (lib : Yaml.Library) (text : String) :
    Except LoadError (GeneratorSettings × FlatteningSettings) :=
  match lib.read depth text with
  | .error .malformed => .error (.refused .notYaml)
  | .error (.interrupted cause) => .error (.interrupted cause)
  | .ok v => ofValue v

/-- Read the settings in a file. Nothing is reported but that the file is missing or holds no
    settings. -/
def load (m : Machine σ) (d : σ) (path : Path) : Except LoadError Configuration := do
  match m.files.pathExists d path with
  | .error f => .error (.interrupted (.file f))
  | .ok false => .error (.refused (.missingFile path))
  | .ok true =>
    match m.files.read d path with
    | .error f => .error (.interrupted (.file f))
    | .ok bytes =>
      match fileText bytes with
      | .error _ => .error (.interrupted .notUtf8)
      | .ok text => do
        let (generator, flattening) ← ofText m.yaml text
        return { path := some path.text, generator, flattening }

end Settings

end ProviderTypes
