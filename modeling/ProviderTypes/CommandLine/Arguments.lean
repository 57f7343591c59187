import ProviderTypes.CommandLine.Basic
import ProviderTypes.CommandLine.Help
import ProviderTypes.CommandLine.Options
import ProviderTypes.Files.Disk
/-!
# ProviderTypes.CommandLine.Arguments

The reader of arguments that the program runs with: the options of the program and of its
commands, the checks of their values, and the reports of what is wrong with them.
-/

namespace ProviderTypes.CommandLine

/-- Why a command line is rejected. -/
inductive Rejection where
  /-- There are no arguments at all. -/
  | noArguments
  /-- A problem in the arguments of a command, or of the program. -/
  | usage (command : Option CommandName) (problem : Problem)
  /-- A problem with the value of an option itself. -/
  | value (problem : Problem)
  /-- A path that the system does not take. -/
  | unusable (f : FileFault)
  deriving DecidableEq, Repr

/-! ## Options -/

/-- The options of the program. -/
inductive ProgramOption where
  | version
  | help
  deriving DecidableEq, Repr

def programOptions : List (OptionSpec ProgramOption) :=
  [{ option := .version, long := "--version" },
    { option := .help, long := "--help", letter := some 'h' }]

/-- The options of `generate`. -/
inductive GenerateOption where
  | config
  | output
  | format
  | moduleName
  | verbose
  | help
  deriving DecidableEq, Repr

def generateOptions : List (OptionSpec GenerateOption) :=
  [{ option := .config, long := "--config", takesValue := true },
    { option := .output, long := "--output", takesValue := true },
    { option := .format, long := "--format", takesValue := true },
    { option := .moduleName, long := "--module-name", takesValue := true },
    { option := .verbose, long := "--verbose", letter := some 'v' },
    { option := .help, long := "--help", letter := some 'h' }]

/-- The options of `generate-config`. -/
inductive TemplateOption where
  | output
  | help
  deriving DecidableEq, Repr

def templateOptions : List (OptionSpec TemplateOption) :=
  [{ option := .output, long := "--output", takesValue := true },
    { option := .help, long := "--help", letter := some 'h' }]

/-! ## Values of options -/

/-- A problem with an option, where those with its own value stand without usage. -/
def rejection (c : Option CommandName) (p : Problem) : Rejection :=
  match p with
  | .valueMissing _ | .valueUnwanted _ => .value p
  | p => .usage c p

/-- Check a path that a command was given under a name: the system has to take it, and to open a
    file that is there. -/
def checkPath (d : Disk) (c : CommandName) (name path : String) : Except Rejection Unit :=
  match d.find (.ofText path) with
  | .ok (.sealed _) => .error (.usage (some c) (.unreadablePath name path))
  | .ok _ | .error (.system _) => .ok ()
  | .error f => .error (.unusable f)

/-- A letter without case; ligatures fall apart. -/
def foldCase (c : Char) : List Char :=
  if c = '\u017F' then ['s']
  else if c = '\uFB05' ∨ c = '\uFB06' then ['s', 't']
  else [c.toLower]

/-- The rendering of a name, whatever its case. -/
def formatOf? (name : String) : Option OutputFormat :=
  let word := String.ofList (name.toList.flatMap foldCase)
  OutputFormat.all.find? fun f => f.text = word

/-- The rendering of a name, which has to be one of the choices. -/
def readFormat (name : String) : Except Rejection OutputFormat :=
  match formatOf? name with
  | some f => .ok f
  | none =>
    .error (.usage (some .generate)
      (.badChoice "--format" name (OutputFormat.all.map OutputFormat.text)))

/-- Check the value that an option of `generate` was given last. -/
def checkGiven (d : Disk) (given : List (Given GenerateOption)) (g : Given GenerateOption) :
    Except Rejection Unit :=
  let value := (lastValue? given g.option).getD ""
  match g.option with
  | .config => checkPath d .generate "--config" value
  | .output => checkPath d .generate "--output" value
  | .format => (readFormat value).map fun _ => ()
  | _ => .ok ()

/-! ## Commands -/

def checkExtra (c : CommandName) (args : List String) : Except Rejection Unit :=
  if args.isEmpty then .ok () else .error (.usage (some c) (.extraArguments args))

def readGenerate (d : Disk) (args : List String) : Except Rejection Invocation := do
  let command := some CommandName.generate
  let (given, args) ← (splitOptions generateOptions true args).mapError (rejection command)
  if given.any fun g => g.option = .help then return .explain (helpText command)
  given.forM (checkGiven d given)
  checkPath d .generate "[INPUT_PATH]" (args.headD "")
  checkExtra .generate (args.drop 1)
  let format ← (lastValue? given .format).mapM readFormat
  return .generate
    { inputPath := args.head?
      configPath := lastValue? given .config
      outputPath := lastValue? given .output
      outputFormat := format.map OutputFormat.text
      moduleName := lastValue? given .moduleName
      verbose := given.any fun g => g.option = .verbose }

def readTemplate (d : Disk) (args : List String) : Except Rejection Invocation := do
  let command := some CommandName.generateConfig
  let (given, args) ← (splitOptions templateOptions true args).mapError (rejection command)
  if given.any fun g => g.option = .help then return .explain (helpText command)
  let path := (lastValue? given .output).getD Settings.defaultFileName
  checkPath d .generateConfig "--output" path
  checkExtra .generateConfig args
  return .writeTemplate path

/-- Read the options of the program; what they ask for, or the arguments after them. -/
def readProgram (args : List String) : Except Rejection (Invocation ⊕ List String) := do
  let (given, args) ← (splitOptions programOptions false args).mapError (rejection none)
  match given.head? with
  | some ⟨.version, _⟩ => return .inl (.explain versionText)
  | some ⟨.help, _⟩ => return .inl (.explain (helpText none))
  | none => return .inr args

def looksLikeOption (arg : String) : Bool :=
  match arg.toList with
  | [] => false
  | c :: _ => ! c.isAlphanum

def readInvocation (d : Disk) (args : List String) : Except Rejection Invocation := do
  if args.isEmpty then .error .noArguments
  match ← readProgram args with
  | .inl invocation => return invocation
  | .inr [] => .error (.usage none .commandMissing)
  | .inr (name :: rest) =>
    match CommandName.all.find? fun c => c.text = name with
    | some .generate => readGenerate d rest
    | some .generateConfig => readTemplate d rest
    | none =>
      let again ← if looksLikeOption name then readProgram (name :: rest) else pure (.inr [])
      match again with
      | .inl invocation => return invocation
      | .inr _ =>
        let close := Suggestion.closest name (CommandName.all.map CommandName.text)
        .error (.usage none (.unknownCommand name (sortedNames close)))

/-! ## Reports -/

/-- The report of a problem in the arguments of a command, or of the program. -/
def usageReport (c : Option CommandName) (message : String) : String :=
  usageText c ++ helpHint c ++ "\n" ++ "Error: " ++ message ++ "\n"

/-- What a rejected command line shows. -/
def Rejection.refusal : Rejection → Refusal
  | .noArguments => .usage (helpText none)
  | .usage c p => .usage (usageReport c p.message)
  | .value p => .usage ("Error: " ++ p.message ++ "\n")
  | .unusable f => .interrupted (.file f)

def argumentReader : ArgumentReader Disk where
  read d args := (readInvocation d args).mapError Rejection.refusal
  usageReport := usageReport (some .generate)

end ProviderTypes.CommandLine
