import ProviderTypes.Interruption
import ProviderTypes.Yaml.Plain
import ProviderTypes.Yaml.Value
/-!
# ProviderTypes.Yaml.Library

What a run asks of a YAML library: to read a text and to write plain data.
-/

namespace ProviderTypes.Yaml

/-- Why reading stops early. -/
inductive Stop where
  /-- The text is not YAML, or is marked as what it does not stand for. -/
  | malformed
  /-- The library fails with an error that is none of its own. -/
  | interrupted (cause : Interruption)
  deriving DecidableEq, Repr

/-- A YAML library. -/
structure Library where
  /-- Read a text down to a depth; collections that lie deeper are shown without their parts,
      since a text may name a part again and again, even within that part. -/
  read : (depth : Nat) → String → Except Stop Value
  /-- The document of plain data. -/
  write : Plain → String

end ProviderTypes.Yaml
