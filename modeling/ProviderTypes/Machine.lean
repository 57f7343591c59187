import ProviderTypes.Files.System
import ProviderTypes.Settings.Basic
import ProviderTypes.Yaml.Library
/-!
# ProviderTypes.Machine

What a run relies on outside of the program: the files, a YAML library, and the room that there is
for texts that lie deep.
-/

namespace ProviderTypes

/-- What a run relies on, with the states of its files. -/
structure Machine (σ : Type) where
  files : FileSystem σ
  yaml : Yaml.Library
  /-- Whether the stack has room for a schema, given as a text, from its reading to its rendering
      under settings. -/
  fits : Configuration → String → Bool

end ProviderTypes
