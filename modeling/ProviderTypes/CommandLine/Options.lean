import ProviderTypes.CommandLine.Suggestion
import ProviderTypes.Text.Quoted
/-!
# ProviderTypes.CommandLine.Options

Splitting arguments into options and other arguments. Long options start with two dashes and
may carry their value after an equals sign; short options, one dash and one letter, may be
written together. Two dashes alone end the options.
-/

namespace ProviderTypes.CommandLine

/-- An option that a command knows. -/
structure OptionSpec (α : Type) where
  option : α
  /-- Its spelling with two dashes. -/
  long : String
  /-- The letter of its spelling with one dash. -/
  letter : Option Char := none
  takesValue : Bool := false

/-- What is wrong with the arguments. -/
inductive Problem where
  | unknownOption (name : String) (close : List String)
  | valueMissing (name : String)
  | valueUnwanted (name : String)
  | unknownCommand (name : String) (close : List String)
  | commandMissing
  | extraArguments (args : List String)
  | badChoice (name value : String) (choices : List String)
  | unreadablePath (name path : String)
  deriving DecidableEq, Repr

/-- The hint at names that may be meant. -/
def hint (close : List String) : String :=
  match close with
  | [] => ""
  | [name] => " Did you mean " ++ quoted name ++ "?"
  | names => " (Did you mean one of: " ++ ", ".intercalate (names.map quoted) ++ "?)"

def Problem.message : Problem → String
  | .unknownOption name close => "No such option " ++ quoted name ++ "." ++ hint close
  | .valueMissing name => "Option " ++ quoted name ++ " requires an argument."
  | .valueUnwanted name => "Option " ++ quoted name ++ " does not take a value."
  | .unknownCommand name close => "No such command " ++ quoted name ++ "." ++ hint close
  | .commandMissing => "Missing command."
  | .extraArguments [arg] => "Got unexpected extra argument (" ++ arg ++ ")"
  | .extraArguments args => "Got unexpected extra arguments (" ++ " ".intercalate args ++ ")"
  | .badChoice name value choices =>
    "Invalid value for " ++ quoted name ++ ": " ++ quoted value ++ " is not one of " ++
      ", ".intercalate (choices.map quoted) ++ "."
  | .unreadablePath name path =>
    "Invalid value for " ++ quoted name ++ ": Path " ++ quoted path ++ " is not readable."

/-- An option as it was given. -/
structure Given (α : Type) where
  option : α
  value : Option String := none
  deriving Repr

/-- What an argument says. -/
inductive Reading (α : Type) where
  | options (given : List (Given α))
  /-- The value of the option is the next argument. -/
  | awaits (option : α) (name : String)
  | argument

variable {α : Type}

/-- An argument up to its first equals sign, and what follows that. -/
def splitValue (arg : String) : String × Option String :=
  let cs := arg.toList
  let name := cs.takeWhile (· ≠ '=')
  (String.ofList name,
    if name.length < cs.length then some (String.ofList (cs.drop (name.length + 1))) else none)

def sortedNames (names : List String) : List String := names.mergeSort (· ≤ ·)

/-- The report of a long option that is not known. -/
def unknownLong (specs : List (OptionSpec α)) (name : String) : Problem :=
  .unknownOption name (sortedNames (Suggestion.closest name (specs.map OptionSpec.long)))

/-- Letters of options that take no value. -/
def readLetters (specs : List (OptionSpec α)) : List Char → Except Problem (List (Given α))
  | [] => .ok []
  | c :: cs =>
    match specs.find? fun s => s.letter = some c with
    | none => .error (.unknownOption (String.ofList ['-', c]) [])
    | some s => do
      let others ← readLetters specs cs
      return ⟨s.option, none⟩ :: others

/-- What an argument says. -/
def readArgument (specs : List (OptionSpec α)) (arg : String) : Except Problem (Reading α) :=
  match arg.toList with
  | '-' :: c :: letters =>
    let (name, value) := splitValue arg
    match specs.find? fun s => s.long = name with
    | some s =>
      match s.takesValue, value with
      | true, some v => .ok (.options [⟨s.option, some v⟩])
      | true, none => .ok (.awaits s.option name)
      | false, some _ => .error (.valueUnwanted name)
      | false, none => .ok (.options [⟨s.option, none⟩])
    | none =>
      if c = '-' then .error (unknownLong specs name)
      else .options <$> readLetters specs (c :: letters)
  | _ => .ok .argument

/-- Split arguments into the options given and the others. Where options may not follow other
    arguments, the first of these ends the options. -/
def splitOptions (specs : List (OptionSpec α)) (mixed : Bool) :
    List String → Except Problem (List (Given α) × List String)
  | [] => .ok ([], [])
  | arg :: rest =>
    if arg = "--" then .ok ([], rest)
    else
      match readArgument specs arg with
      | .error p => .error p
      | .ok (.options given) => do
        let (others, args) ← splitOptions specs mixed rest
        return (given ++ others, args)
      | .ok (.awaits option name) =>
        match rest with
        | [] => .error (.valueMissing name)
        | value :: rest => do
          let (others, args) ← splitOptions specs mixed rest
          return (⟨option, some value⟩ :: others, args)
      | .ok .argument =>
        if mixed then do
          let (others, args) ← splitOptions specs mixed rest
          return (others, arg :: args)
        else .ok ([], arg :: rest)

/-- The value that an option was given last. -/
def lastValue? [DecidableEq α] (given : List (Given α)) (option : α) : Option String :=
  (given.reverse.find? fun g => g.option = option).bind Given.value

end ProviderTypes.CommandLine
