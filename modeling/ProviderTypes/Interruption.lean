import ProviderTypes.Files.System
/-!
# ProviderTypes.Interruption

Failures that a run does not report in its own words: they come from the file system, from a
library, or from a value in a file that has the form of a number, a moment or a character but
stands for none.
-/

namespace ProviderTypes

/-- Why a run is broken off without a report of its own. -/
inductive Interruption where
  | file (f : FileFault)
  /-- A settings file is not UTF-8. -/
  | notUtf8
  /-- Unknown sections of a settings file that are not all texts cannot be listed. -/
  | unlistable
  /-- A text that should be a number is none, or has too many digits. -/
  | notNumber
  /-- An empty text should be a number. -/
  | emptyNumber
  /-- A number has too many parts. -/
  | numberOverflow
  /-- A text that should be a truth value is none. -/
  | notTruthValue
  /-- A text that should be a moment is none. -/
  | notMoment
  /-- A mapping should be a moment. -/
  | momentNotScalar
  /-- There is no such day or time. -/
  | noSuchMoment
  /-- There is no character of this number. -/
  | noSuchCharacter
  /-- The number of a character is out of every range. -/
  | characterOverflow
  /-- The stack has no room for something that lies too deep. -/
  | exhausted
  /-- Another failure of a library, by its name. -/
  | other (name : String)
  deriving DecidableEq, Repr

/-- What the program says before it gives up. -/
def Interruption.message : Interruption → String
  | .file (.system e) => e.message
  | .file .nullCharacter => "a path holds the null character"
  | .file .notEncodable => "a text holds half of a surrogate pair"
  | .file .linkLoop => "links lead around"
  | .notUtf8 => "the settings are not UTF-8"
  | .unlistable => "the unknown sections of the settings cannot be listed"
  | .notNumber | .emptyNumber | .numberOverflow => "a number cannot be read"
  | .notTruthValue => "a truth value cannot be read"
  | .notMoment | .momentNotScalar | .noSuchMoment => "a date cannot be read"
  | .noSuchCharacter | .characterOverflow => "there is no such character"
  | .exhausted => "something lies too deep"
  | .other name => name

end ProviderTypes
