import ProviderTypes.CommandLine.Arguments
import ProviderTypes.Text.ControlSequence
import ProviderTypes.Yaml.Reader
import ProviderTypes.Yaml.Writer
/-!
# ProviderTypes.Program

The host that the program brings with it: disks as files, a reader and a writer of YAML, the
reader of arguments, and a console that is no terminal and takes UTF-8.
-/

namespace ProviderTypes

/-- The reader and the writer of YAML. -/
def Yaml.library : Yaml.Library where
  read := Yaml.read
  write := Yaml.write

namespace Program

/-- A text for the console, without control sequences, where half of a surrogate pair is no
    text. -/
def printed (text : String) : Except Interruption String :=
  if Symbol.hasHalf text then .error (.file .notEncodable) else .ok (consoleText text)

/-- A text with halves of surrogate pairs as escapes. -/
def backslashed (text : String) : String :=
  String.ofList ((Symbol.symbols text.toList).flatMap fun s =>
    match s with
    | .char _ => s.written
    | .half _ => '\\' :: 'u' :: hexDigits hexDigitLower 4 s.number)

def console : CommandLine.Console where
  out := printed
  err text := .ok (consoleText (backslashed text))
  log := backslashed

/-- The host. -/
def host : CommandLine.Host Disk where
  files := Disk.fileSystem
  yaml := Yaml.library
  fits _ _ := true
  arguments := CommandLine.argumentReader
  console := console

end Program

end ProviderTypes
