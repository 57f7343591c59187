import ProviderTypes.Build
import ProviderTypes.Flatten.Names
import ProviderTypes.Settings.Basic
/-!
# ProviderTypes.Flatten.Basic

Flattening a block: the block becomes a record, and each block type nested in it, at any depth,
a record of its own, to which its parent refers. A record has the fields of the attributes in
the order of their names, and then a field for each nested block type, likewise in order.

Blocks are first put in the order of their names (`Block.inNameOrder`); after that the walk
follows the block. A nested block is registered after the blocks nested in it and before the
siblings that follow it; the outermost block comes last. Entries made before a failure stay.
-/

namespace ProviderTypes

namespace Block

mutual
/-- The block with its attributes and nested block types in the order of their names, at every
    depth. -/
def inNameOrder : Block → Block
  | mk attributes blockTypes =>
    mk (Members.inNameOrder attributes) (Members.inNameOrder (inNameOrderAll blockTypes))
def inNameOrderAll : List (String × Nesting × Block) → List (String × Nesting × Block)
  | [] => []
  | (name, nesting, block) :: rest => (name, nesting, block.inNameOrder) :: inNameOrderAll rest
end

end Block

namespace Flatten

/-- The fields of attributes, noting each element type that a text stands in for. -/
def attributes (rules : EscapeRules) (as : Members Attribute) : Build (List Field) := do
  (approximations as).forM fun element =>
    Build.note .info .attributes ("Approximating element type " ++ element.shown ++ " as string")
  Build.lift .unsupported (attributeFields rules as)

/-- The field that refers to a nested block type. -/
def nestedField (rules : EscapeRules) (scope : Option String) (name child : String) : Field :=
  { name := rules.escape child
    value := .option (.seq (.nestedRef scope name child))
    metadata := { sourceName := some child } }

mutual
/-- The record of the block `name`, all blocks nested in it being registered. -/
def record (rules : EscapeRules) (scope : Option String) (name : String) : Block → Build Record
  | .mk attributes blockTypes => do
    let fields ← Flatten.attributes rules attributes
    let nested ← children rules scope name blockTypes
    Build.lift .format (Record.ofFields .struct (fields ++ nested))
/-- The fields of the block types nested in the block `name`, which are registered. -/
def children (rules : EscapeRules) (scope : Option String) (name : String) :
    List (String × Nesting × Block) → Build (List Field)
  | [] => return []
  | (child, _, block) :: rest => do
    let r ← record rules (some (childScope scope name)) child block
    let key := QualifiedName.nested scope name child
    Build.insert key (.record r)
    Build.note .debug .flattening ("Registered nested block type " ++ key.fullName)
    let others ← children rules scope name rest
    return nestedField rules scope name child :: others
end

end Flatten

/-- Register the record of the block `name` and of all blocks nested in it; answer the former. -/
def flattenBlock (rules : EscapeRules) (scope : Option String) (name : String) (block : Block) :
    Build Record := do
  let r ← Flatten.record rules scope name block.inNameOrder
  let key := QualifiedName.details name
  Build.insert key (.record r)
  Build.note .debug .flattening
    ("Flattened block " ++ key.fullName ++ " (" ++ toString r.fields.length ++ " fields)")
  return r

end ProviderTypes
