import ProviderTypes.Export
import ProviderTypes.Render
import ProviderTypes.Schema.Load
import ProviderTypes.Settings.Loader
/-!
# ProviderTypes.Generation

A run from a schema file to rendered definitions: the settings are read, the schema is read and
exported, the registry is rendered, and the text is written where the request asks for a file.

A run answers with a result or a failure, with the files as it leaves them, and with the records
that it left on the way.
-/

namespace ProviderTypes

/-- What a run is asked for. Empty texts count as nothing, except for the output. -/
structure GenerationRequest where
  inputPath : String
  configPath : Option String := none
  outputPath : Option String := none
  outputFormat : Option String := none
  moduleName : Option String := none
  deriving DecidableEq, Repr

/-- What a run gives. -/
structure GenerationOutcome where
  source : String
  /-- The absolute path of the file that was written. -/
  outputPath : Option String
  entryCount : Nat
  deriving DecidableEq, Repr

/-- Why a run is reported to have failed. -/
inductive GenerationError where
  | settings (e : SettingsError)
  | unknownFormat (name : String)
  | schema (e : SchemaError)
  | building (e : ExportError)
  | unresolved (e : Unresolved)
  | unwritable (path : Path) (e : SystemFault)
  deriving DecidableEq, Repr

def GenerationError.message : GenerationError → String
  | .settings e => e.message
  | .unknownFormat name => "Unsupported output format: " ++ name
  | .schema e => e.message
  | .building e => e.message
  | .unresolved e => e.message
  | .unwritable path e => "Failed to write output " ++ path.text ++ ": " ++ e.message

/-- Why a run fails. -/
inductive GenerationFailure where
  | reported (e : GenerationError)
  | interrupted (cause : Interruption)
  deriving DecidableEq, Repr

namespace Generation

variable {σ : Type}

/-- A text that asks for something. -/
def asked (text : Option String) : Option String := text.filter (· ≠ "")

/-- The rendering of a name, whatever its case. -/
def formatOf? (name : String) : Option OutputFormat :=
  let word := String.ofList (name.toList.map Char.toLower)
  OutputFormat.all.find? fun f => f.text = word

/-- The settings in the file of a request, or the default ones. -/
def fileSettings (m : Machine σ) (d : σ) (r : GenerationRequest) :
    Except GenerationFailure Configuration :=
  match asked r.configPath with
  | none => .ok {}
  | some path =>
    match Settings.load m d (.ofText path) with
    | .ok c => .ok c
    | .error (.refused e) => .error (.reported (.settings e))
    | .error (.interrupted cause) => .error (.interrupted cause)

/-- The settings of a request: those of its file, except what it asks for itself. -/
def settings (m : Machine σ) (d : σ) (r : GenerationRequest) :
    Except GenerationFailure Configuration := do
  let c ← fileSettings m d r
  let generator ←
    match asked r.outputFormat with
    | none => pure c.generator
    | some name =>
      match formatOf? name with
      | some f => pure { c.generator with outputFormat := f }
      | none => .error (.reported (.unknownFormat name))
  let generator :=
    match asked r.moduleName with
    | none => generator
    | some name => { generator with moduleName := name }
  return { c with generator }

/-- The registry of the schema file, and the records of its export. -/
def registry (m : Machine σ) (d : σ) (c : Configuration) (input : Path) :
    Except GenerationFailure Registry × List LogRecord :=
  match Schema.load m c d input with
  | .error (.refused e) => (.error (.reported (.schema e)), [])
  | .error (.interrupted cause) => (.error (.interrupted cause), [])
  | .ok schema =>
    let start : Workspace := { registry := .empty c.flattening.onDuplicate }
    let (result, w) := (Export.sequential c.flattening schema).runOn start
    match result with
    | .ok () => (.ok w.registry, w.log)
    | .error e => (.error (.reported (.building e)), w.log)

/-- What it means for a text that was to be written to a path that an operation fails: an error of
    the system is reported. -/
def writeFailure (path : Path) : FileFault → GenerationFailure
  | .system e => .reported (.unwritable path e)
  | f => .interrupted (.file f)

/-- Write a text to a file, with the directories that lead to it; answer its absolute path. -/
def writeOutput (m : Machine σ) (d : σ) (source : String) (path : Path) :
    Except GenerationFailure String × σ :=
  match m.files.ensureDirectories d path.parent with
  | (.error f, d) => (.error (writeFailure path f), d)
  | (.ok (), d) =>
    match m.files.writeText d path source with
    | (.error f, d) => (.error (writeFailure path f), d)
    | (.ok (), d) =>
      match m.files.resolve d path with
      | .error f => (.error (.interrupted (.file f)), d)
      | .ok written => (.ok written, d)

def renderedRecord (r : Registry) (f : OutputFormat) : LogRecord :=
  ⟨.debug, .generation,
    "Rendered " ++ toString r.size ++ " registry entries as " ++ f.text⟩

end Generation

/-- What a run leaves. -/
structure GenerationRun (σ : Type) where
  result : Except GenerationFailure GenerationOutcome
  files : σ
  log : List LogRecord

/-- Run a request. -/
def generate {σ : Type} (m : Machine σ) (d : σ) (r : GenerationRequest) : GenerationRun σ :=
  match Generation.settings m d r with
  | .error e => ⟨.error e, d, []⟩
  | .ok c =>
    match Generation.registry m d c (.ofText r.inputPath) with
    | (.error e, log) => ⟨.error e, d, log⟩
    | (.ok registry, log) =>
      match registry.render m.yaml.write c.generator with
      | .error e => ⟨.error (.reported (.unresolved e)), d, log⟩
      | .ok source =>
        let log := log ++ [Generation.renderedRecord registry c.generator.outputFormat]
        let outcome (outputPath : Option String) : GenerationOutcome :=
          { source, outputPath, entryCount := registry.size }
        match r.outputPath with
        | none => ⟨.ok (outcome none), d, log⟩
        | some path =>
          match Generation.writeOutput m d source (.ofText path) with
          | (.error e, d) => ⟨.error e, d, log⟩
          | (.ok written, d) => ⟨.ok (outcome (some written)), d, log⟩

end ProviderTypes
