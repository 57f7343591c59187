import ProviderTypes.Rust.Source
import ProviderTypes.Yaml.Plain
/-!
# ProviderTypes.Render

The renderings of a registry. Both refuse a registry with unresolved references. How plain data
becomes a YAML document is left to a library.
-/

namespace ProviderTypes

/-- The dump of a registry as YAML. -/
def Yaml.source (write : Plain → String) (s : GeneratorSettings) (r : Registry) :
    Except Unresolved String :=
  match r.validateReferences s.externalNames with
  | .error e => .error e
  | .ok () => .ok (write r.plain)

/-- The registry in the rendering that the settings ask for. -/
def Registry.render (write : Plain → String) (s : GeneratorSettings) (r : Registry) :
    Except Unresolved String :=
  match s.outputFormat with
  | .rust => Rust.source s r
  | .yaml => Yaml.source write s r

end ProviderTypes
