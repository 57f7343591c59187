import ProviderTypes.Build
import ProviderTypes.Flatten.Names
/-!
# ProviderTypes.RootIndex.Basic

The root index: for each group of a configuration document a union with one variant per member,
and the record `config` that holds all groups. Both replace what stood under their names.
-/

namespace ProviderTypes

/-- The key of the record over all groups. -/
def QualifiedName.config : QualifiedName := ⟨none, "config"⟩

/-- The key of a group's union. -/
def QualifiedName.root (category : RootCategory) : QualifiedName :=
  ⟨none, category.text ++ "_root"⟩

/-- The names of the index are not empty. -/
theorem QualifiedName.fullName_root_ne_empty (category : RootCategory) :
    (QualifiedName.root category).fullName ≠ "" :=
  append_ne_empty_of_right (by decide)

namespace RootIndex

/-- The format of a member: the instances of its block, which for all groups but providers are
    keyed by a label. -/
def memberFormat (category : RootCategory) (member : String) : Format :=
  let instances := Format.seq (.detailsRef member)
  match category with
  | .provider => instances
  | _ => .seq (.map .str instances)

/-- The variants of a group's union, one per member. -/
def variants (category : RootCategory) (members : List String) : List Variant :=
  members.map fun member => ⟨member, .newtype (memberFormat category member)⟩

/-- The field of a group in `config`. -/
def configField (category : RootCategory) : Field :=
  { name := category.text
    value := .option (.seq (.ref _ (QualifiedName.fullName_root_ne_empty category))) }

def buildEnum (category : RootCategory) (members : List String) : Build Unit := do
  let u ← Build.lift .format (Union.ofVariants (variants category members))
  Build.replace (.root category) (.union u)

def buildEnums (categories : RootCategories) : Build Unit :=
  categories.items.forM fun item => buildEnum item.1 item.2

def buildConfig : Build Unit := do
  let r ← Build.lift .format (Record.ofFields .struct (RootCategory.all.map configField))
  Build.replace .config (.record r)

/-- Register the unions of all groups, and then the record over them. -/
def build (categories : RootCategories) : Build Unit := do
  buildEnums categories
  buildConfig

end RootIndex

end ProviderTypes
