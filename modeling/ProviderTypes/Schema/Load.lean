import ProviderTypes.Machine
import ProviderTypes.Schema.Reader
/-!
# ProviderTypes.Schema.Load

Reading a schema from a file.
-/

namespace ProviderTypes

/-- Why a file gives no schema. -/
inductive SchemaError where
  | missingFile (path : Path)
  | unreadable (path : Path) (reason : SystemFault)
  | notText (path : Path) (fault : Utf8.Fault)
  | notJson (e : Json.ReadError)
  | violation (v : Schema.Violation)
  deriving DecidableEq, Repr

def SchemaError.message : SchemaError → String
  | .missingFile path => "Schema file not found: " ++ path.text
  | .unreadable path reason =>
    "Failed to read schema file " ++ path.text ++ ": " ++ reason.message
  | .notText path fault => "Failed to read schema file " ++ path.text ++ ": " ++ fault.message
  | .notJson e => "Invalid schema document: " ++ e.message
  | .violation v => v.message

/-- Why reading a schema fails. -/
inductive SchemaFailure where
  | refused (e : SchemaError)
  | interrupted (cause : Interruption)
  deriving DecidableEq, Repr

namespace Schema

/-- The schema that a text stands for. -/
def parse (text : String) : Except SchemaFailure Schema :=
  match ofText text with
  | .ok schema => .ok schema
  | .error (.unreadable .numeralTooLong) => .error (.interrupted .notNumber)
  | .error (.unreadable e) => .error (.refused (.notJson e))
  | .error (.violation v) => .error (.refused (.violation v))

/-- Read the schema in a file, that is to be rendered under settings. An error of the system is
    reported here, unlike one that comes before it or has another reason. -/
def load {σ : Type} (m : Machine σ) (c : Configuration) (d : σ) (path : Path) :
    Except SchemaFailure Schema :=
  match m.files.pathExists d path with
  | .error f => .error (.interrupted (.file f))
  | .ok false => .error (.refused (.missingFile path))
  | .ok true =>
    match m.files.read d path with
    | .error (.system e) => .error (.refused (.unreadable path e))
    | .error f => .error (.interrupted (.file f))
    | .ok bytes =>
      match fileText bytes with
      | .error f => .error (.refused (.notText path f))
      | .ok text => if m.fits c text then parse text else .error (.interrupted .exhausted)

end Schema

end ProviderTypes
