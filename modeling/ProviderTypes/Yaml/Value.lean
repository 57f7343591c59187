/-!
# ProviderTypes.Yaml.Value

The values that YAML texts stand for, as far as settings look at them. Of numbers and moments
nothing but their kind matters, of binary data its length. Mappings list their entries in
document order, with the entries that they merge in front; a text that is written as a key again
keeps its first place and takes the last value.
-/

namespace ProviderTypes.Yaml

/-- The value of a scalar. -/
inductive Atom where
  | null
  | bool (b : Bool)
  | number
  | moment
  | text (s : String)
  /-- Binary data of a length. -/
  | bytes (size : Nat)
  deriving DecidableEq, Repr

def Atom.text? : Atom → Option String
  | .text s => some s
  | _ => none

/-- A value. A pair counts as a list. -/
inductive Value where
  | atom (a : Atom)
  | list (items : List Value)
  | map (entries : List (Atom × Value))
  | set
  deriving Repr, Inhabited

/-- The value of the first entry under a text. -/
def Value.entry? (entries : List (Atom × Value)) (name : String) : Option Value :=
  (entries.find? fun e => e.1.text? = some name).map Prod.snd

end ProviderTypes.Yaml
