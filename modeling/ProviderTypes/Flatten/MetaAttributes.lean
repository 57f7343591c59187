import ProviderTypes.Schema.Basic
/-!
# ProviderTypes.Flatten.MetaAttributes

The attributes that every resource accepts without declaring them.
-/

namespace ProviderTypes

/-- The attributes that the framework adds to a resource. -/
def metaAttributes : Members Attribute :=
  [("count",
      { type := .primitive "number", optional := true
        description := some "Number of instances to create." }),
    ("depends_on",
      { type := .tagged "list" [.string "string"], optional := true
        description := some "Explicit dependencies on other objects." }),
    ("for_each",
      { type := .tagged "set" [.string "string"], optional := true
        description := some "Keys of the instances to create." }),
    ("provider",
      { type := .primitive "string", optional := true
        description := some "Non-default provider configuration to use." })]

/-- The block with the meta attributes before its own; an attribute that the block declares
    itself keeps its own definition, in the place of the meta attribute. -/
def Block.withMetaAttributes (block : Block) : Block :=
  .mk (Members.putAll metaAttributes block.attributes) block.blockTypes

end ProviderTypes
