import ProviderTypes.Generation
import ProviderTypes.Settings.Template
/-!
# ProviderTypes.CommandLine.Basic

The command line: `generate` renders a schema, `generate-config` writes a settings file to start
from. What reads the arguments and what the console does to a text are parts of the host, which
stands for all that is outside of the program.
-/

namespace ProviderTypes.CommandLine

/-! ## Hosts -/

/-- The values that a command line gives to `generate`. -/
structure GenerateValues where
  inputPath : Option String
  configPath : Option String := none
  outputPath : Option String := none
  outputFormat : Option String := none
  moduleName : Option String := none
  verbose : Bool := false
  deriving DecidableEq, Repr

/-- The request for the text of a schema file. -/
def GenerateValues.request (v : GenerateValues) (inputPath : String) : GenerationRequest where
  inputPath := inputPath
  configPath := v.configPath
  outputPath := v.outputPath
  outputFormat := v.outputFormat
  moduleName := v.moduleName

/-- What a command line asks for. -/
inductive Invocation where
  /-- Print a text about the program. -/
  | explain (text : String)
  | generate (values : GenerateValues)
  | writeTemplate (path : String)
  deriving DecidableEq, Repr

/-- Why a command line asks for nothing. -/
inductive Refusal where
  /-- A report, with an exit status that tells of a failure. -/
  | report (text : String) (exit : Nat) (failing : exit ≠ 0)
  | interrupted (cause : Interruption)
  deriving DecidableEq, Repr

/-- A report of how the program is not used. -/
def Refusal.usage (text : String) : Refusal := .report text 2 (by decide)

/-- What reads arguments. It looks at the files that they name. -/
structure ArgumentReader (σ : Type) where
  read : σ → List String → Except Refusal Invocation
  /-- The report of a problem that is found in how `generate` is used. -/
  usageReport : (problem : String) → String

/-- What becomes of a text on the console, which may not take it. -/
structure Console where
  out : String → Except Interruption String
  err : String → Except Interruption String
  /-- The log never fails. -/
  log : String → String

/-- All that is outside of the program. -/
structure Host (σ : Type) extends Machine σ where
  arguments : ArgumentReader σ
  console : Console

/-! ## Running -/

/-- What a run shows. -/
structure Output where
  exit : Nat
  stdout : String := ""
  stderr : String := ""
  deriving DecidableEq, Repr

namespace Console

/-- Show a result after a log. -/
def succeed (c : Console) (log text : String) : Except Interruption Output := do
  return { exit := 0, stdout := ← c.out text, stderr := log }

/-- Report an error after a log. -/
def fail (c : Console) (log message : String) : Except Interruption Output := do
  return { exit := 1, stderr := log ++ (← c.err ("Error: " ++ message ++ "\n")) }

/-- Report that an operation on a file failed, if it was the system that failed. -/
def failFile (c : Console) : FileFault → Except Interruption Output
  | .system e => c.fail "" e.message
  | f => .error (.file f)

/-- Report that a command line asks for nothing. -/
def refuse (c : Console) : Refusal → Except Interruption Output
  | .report text exit _ => do return { exit, stderr := ← c.err text }
  | .interrupted cause => .error cause

end Console

variable {σ : Type}

/-- Write the template of a settings file where nothing stands. -/
def writeTemplate (h : Host σ) (d : σ) (path : Path) : Except Interruption Output × σ :=
  match h.files.pathExists d path with
  | .error f => (h.console.failFile f, d)
  | .ok true =>
    match h.files.resolve d path with
    | .error f => (h.console.failFile f, d)
    | .ok shown => (h.console.fail "" ("Configuration file already exists: " ++ shown), d)
  | .ok false =>
    match h.files.writeText d path Settings.templateText with
    | (.error f, d) => (h.console.failFile f, d)
    | (.ok (), d) =>
      match h.files.resolve d path with
      | .error f => (h.console.failFile f, d)
      | .ok shown => (h.console.succeed "" (shown ++ "\n"), d)

/-- What is shown of an outcome: the text, or the path of the file that holds it. -/
def shownText (o : GenerationOutcome) : String :=
  match o.outputPath with
  | some path => path ++ "\n"
  | none => o.source

def showResult (c : Console) (log : String) :
    Except GenerationFailure GenerationOutcome → Except Interruption Output
  | .ok o => c.succeed log (shownText o)
  | .error (.reported e) => c.fail log e.message
  | .error (.interrupted cause) => .error cause

def shownLog (c : Console) (verbose : Bool) (log : List LogRecord) : String :=
  if verbose then c.log (String.join (log.map LogRecord.line)) else ""

def runGenerate (h : Host σ) (d : σ) (r : GenerationRequest) (verbose : Bool) :
    Except Interruption Output × σ :=
  let run := ProviderTypes.generate h.toMachine d r
  (showResult h.console (shownLog h.console verbose run.log) run.result, run.files)

/-- Generate from values, which have to name a schema file. -/
def runValues (h : Host σ) (d : σ) (v : GenerateValues) : Except Interruption Output × σ :=
  match v.inputPath with
  | none =>
    (h.console.refuse (.usage (h.arguments.usageReport "Missing argument 'INPUT_PATH'.")), d)
  | some inputPath => runGenerate h d (v.request inputPath) v.verbose

def run (h : Host σ) (d : σ) (args : List String) : Except Interruption Output × σ :=
  match h.arguments.read d args with
  | .error refusal => (h.console.refuse refusal, d)
  | .ok (.explain text) => (h.console.succeed "" text, d)
  | .ok (.generate values) => runValues h d values
  | .ok (.writeTemplate path) => writeTemplate h d (.ofText path)

end ProviderTypes.CommandLine
