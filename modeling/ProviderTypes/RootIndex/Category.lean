import ProviderTypes.Text.Quoted
/-!
# ProviderTypes.RootIndex.Category

The top-level groups of a configuration document, and the members found for each.
-/

namespace ProviderTypes

/-- A top-level group. -/
inductive RootCategory where
  | provider
  | resource
  | data
  deriving DecidableEq, Repr

namespace RootCategory

def all : List RootCategory := [.provider, .resource, .data]

def text : RootCategory → String
  | .provider => "provider"
  | .resource => "resource"
  | .data => "data"

def ofText? (name : String) : Option RootCategory := all.find? fun c => c.text = name

def unknownMessage (name : String) : String := "Unknown root category: " ++ name

end RootCategory

/-- The members of each group, in the order in which they were found. -/
structure RootCategories where
  provider : List String := []
  resource : List String := []
  data : List String := []
  deriving DecidableEq, Repr, Inhabited

namespace RootCategories

def members (r : RootCategories) : RootCategory → List String
  | .provider => r.provider
  | .resource => r.resource
  | .data => r.data

/-- A list with a member that it may hold already. -/
def addTo (members : List String) (member : String) : List String :=
  if member ∈ members then members else members ++ [member]

/-- Record a member of a group; a repeated member does not count. -/
def add (r : RootCategories) (category : RootCategory) (member : String) : RootCategories :=
  match category with
  | .provider => { r with provider := addTo r.provider member }
  | .resource => { r with resource := addTo r.resource member }
  | .data => { r with data := addTo r.data member }

/-- The groups with their members. -/
def items (r : RootCategories) : List (RootCategory × List String) :=
  RootCategory.all.map fun c => (c, r.members c)

def shown (r : RootCategories) : String :=
  let item (c : RootCategory) := quoted c.text ++ ": " ++ parenthesised ((r.members c).map quoted)
  "RootCategories(\x7b" ++ ", ".intercalate (RootCategory.all.map item) ++ "\x7d)"

end RootCategories

end ProviderTypes
