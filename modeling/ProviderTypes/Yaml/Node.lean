import ProviderTypes.Yaml.PlainKind
/-!
# ProviderTypes.Yaml.Node

The nodes of a YAML document: scalars, sequences and mappings, each with the tag that says what
it stands for. Nodes refer to their parts by number, so that an alias is a further reference to
one node. A node may stand in several places, and even within itself.
-/

namespace ProviderTypes.Yaml

/-- What a node stands for. -/
inductive Tag where
  | null
  | bool
  | int
  | float
  | timestamp
  | binary
  | str
  | seq
  | map
  | set
  /-- A sequence of mappings with one entry each. -/
  | pairs
  | merge
  | value
  /-- A tag that no value is known for. -/
  | unknown
  deriving DecidableEq, Repr

/-- The namespace of the tags that the format itself defines. -/
def coreTagSpace : String := "tag:yaml.org,2002:"

def coreTags : List (String × Tag) :=
  [("null", .null), ("bool", .bool), ("int", .int), ("float", .float), ("timestamp", .timestamp),
    ("binary", .binary), ("str", .str), ("seq", .seq), ("map", .map), ("set", .set),
    ("omap", .pairs), ("pairs", .pairs), ("merge", .merge), ("value", .value)]

/-- The tag of a full name. -/
def Tag.ofName (name : String) : Tag :=
  ((coreTags.find? fun p => coreTagSpace ++ p.1 = name).map Prod.snd).getD .unknown

/-- The tag of an unquoted scalar. -/
def Tag.ofPlain (text : String) : Tag :=
  match plainKind text with
  | .bool => .bool
  | .float => .float
  | .int => .int
  | .merge => .merge
  | .null => .null
  | .timestamp => .timestamp
  | .value => .value
  | .mark => .unknown
  | .text => .str

/-- The number of a node. -/
abbrev NodeId := Nat

/-- The entries of a mapping: its keys and their values, in order. -/
abbrev NodeEntries := List (NodeId × NodeId)

/-- What a node is made of. -/
inductive NodeForm where
  | scalar (text : String)
  | seq (items : List NodeId)
  | map (entries : NodeEntries)
  deriving DecidableEq, Repr

/-- A node. -/
structure Node where
  tag : Tag
  form : NodeForm
  deriving DecidableEq, Repr

/-- A scalar that is not written. -/
def Node.absent : Node := { tag := .null, form := .scalar "" }

/-- The nodes of a document by number. -/
structure NodeGraph where
  nodes : Array Node := #[]
  deriving Repr

namespace NodeGraph

def node (g : NodeGraph) (n : NodeId) : Node := g.nodes[n]?.getD .absent

def tag (g : NodeGraph) (n : NodeId) : Tag := (g.node n).tag

def entries? (g : NodeGraph) (n : NodeId) : Option NodeEntries :=
  match (g.node n).form with
  | .map entries => some entries
  | _ => none

/-- Say what a node is made of. -/
def setForm (g : NodeGraph) (n : NodeId) (form : NodeForm) : NodeGraph :=
  { nodes := g.nodes.modify n fun node => { node with form } }

/-- Say what a node stands for. -/
def setTag (g : NodeGraph) (n : NodeId) (tag : Tag) : NodeGraph :=
  { nodes := g.nodes.modify n fun node => { node with tag } }

/-- How many entries all mappings have. -/
def entryCount (g : NodeGraph) : Nat :=
  g.nodes.foldl (fun count node =>
    match node.form with
    | .map entries => count + entries.length
    | _ => count) 0

end NodeGraph

end ProviderTypes.Yaml
