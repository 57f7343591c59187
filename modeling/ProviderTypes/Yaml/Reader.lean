import ProviderTypes.Yaml.Object
/-!
# ProviderTypes.Yaml.Reader

Reading a YAML text: the objects of its document, shown as a value down to a depth.
-/

namespace ProviderTypes.Yaml

namespace Value

/-- The value of an object of which the parts are shown by `part`. -/
def ofObject (part : NodeId → Value) : Object → Value
  | .atom a => .atom a
  | .list items => .list (items.map part)
  | .pairs size => .list (List.replicate size (.list []))
  | .map entries => .map (entries.map fun e => (e.1, part e.2))
  | .set => .set

/-- The value of an object without its parts. -/
def shell : Object → Value
  | .atom a => .atom a
  | .list _ | .pairs _ => .list []
  | .map _ => .map []
  | .set => .set

/-- The value of a node down to a depth. -/
def ofNode (objects : Array (Option Object)) : (depth : Nat) → NodeId → Value
  | 0, n => ((objects[n]?).join.map shell).getD (.atom .null)
  | depth + 1, n =>
    ((objects[n]?).join.map (ofObject (ofNode objects depth))).getD (.atom .null)

end Value

/-- Read a YAML text down to a depth; a text without a document is null. -/
def read (depth : Nat) (text : String) : Except Stop Value := do
  match ← Document.ofText text.toList with
  | none => return .atom .null
  | some d => return Value.ofNode (← d.objects) depth d.root

end ProviderTypes.Yaml
