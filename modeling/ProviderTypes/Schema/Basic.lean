import ProviderTypes.Json.Basic
/-!
# ProviderTypes.Schema.Basic

Provider schemas: for each provider the block of its own settings and the blocks of its
resources and data sources. A block has typed attributes and nested block types. Named parts
stand in the order of the document.
-/

namespace ProviderTypes

/-- The markup of an attribute's description. -/
inductive DescriptionKind where
  | plain
  | markdown
  deriving DecidableEq, Repr

def DescriptionKind.text : DescriptionKind → String
  | .plain => "plain"
  | .markdown => "markdown"

/-- The declared type of an attribute: a tag alone, or a tag with parameters. -/
inductive AttributeType where
  | primitive (tag : String)
  | tagged (tag : String) (rest : List Json)
  deriving DecidableEq, Repr

def AttributeType.tag : AttributeType → String
  | .primitive tag => tag
  | .tagged tag _ => tag

/-- A typed attribute of a block. -/
structure Attribute where
  type : AttributeType
  description : Option String := none
  required : Bool := false
  optional : Bool := false
  computed : Bool := false
  sensitive : Bool := false
  descriptionKind : Option DescriptionKind := none
  deprecated : Bool := false
  deriving DecidableEq, Repr

/-- How a nested block may occur in its parent. -/
structure Nesting where
  mode : Option String := none
  minItems : Option Nat := none
  maxItems : Option Nat := none
  deriving DecidableEq, Repr

/-- Named attributes and named nested blocks. -/
inductive Block where
  | mk (attributes : List (String × Attribute)) (blockTypes : List (String × Nesting × Block))
  deriving Repr

namespace Block

def attributes : Block → Members Attribute
  | mk attributes _ => attributes

def blockTypes : Block → Members (Nesting × Block)
  | mk _ blockTypes => blockTypes

end Block

/-- The block of a provider, resource or data source, with its version. -/
structure SchemaItem where
  version : Int
  block : Block
  deriving Repr

/-- What one provider declares. -/
structure ProviderSchema where
  provider : SchemaItem
  resources : Members SchemaItem
  dataSources : Members SchemaItem
  deriving Repr

/-- A whole schema document. -/
structure Schema where
  formatVersion : String
  providers : Members ProviderSchema
  deriving Repr

end ProviderTypes
