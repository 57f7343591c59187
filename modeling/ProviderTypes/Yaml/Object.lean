import ProviderTypes.Yaml.Atom
import ProviderTypes.Yaml.Document
import ProviderTypes.Yaml.Merge
/-!
# ProviderTypes.Yaml.Object

The objects that the nodes of a document become, one for each node that is reached from the
root. Collections refer to the objects of their parts by the numbers of the nodes.

A collection is known before its parts are: its object is made where it is first met, and filled
after the collections that were met before it. So a document may hold itself, and of several
faults the first of those that lie least deep is the answer.
-/

namespace ProviderTypes.Yaml

/-- What a node has become. -/
inductive Object where
  | atom (a : Atom)
  | list (items : List NodeId)
  /-- A list of pairs, of which nothing but their number matters. -/
  | pairs (size : Nat)
  | map (entries : List (Atom × NodeId))
  | set
  deriving Repr

/-- The objects made so far. -/
structure Assembly where
  graph : NodeGraph
  /-- A bound on the number of merged entries. -/
  mergeBound : Nat
  /-- The objects by the numbers of their nodes. -/
  objects : Array (Option Object)
  /-- The collections, in the order in which they were met. -/
  collections : Array NodeId := #[]

/-- A step of making objects. -/
abbrev Assemble := StateT Assembly (Except Stop)

namespace Assemble

def fail {α : Type} : Assemble α := throw .malformed

/-! ## Single objects -/

/-- The text of a node where a scalar is asked for; a mapping has that of its first default
    value. Where a mapping is its own default value in the end, the search for it never ends,
    which exhausts the stack. -/
def scalarText (g : NodeGraph) (n : NodeId) : (fuel : Nat) → Except Stop String
  | 0 => .error (.interrupted .exhausted)
  | fuel + 1 =>
    match (g.node n).form with
    | .scalar text => .ok text
    | .seq _ => .error .malformed
    | .map entries =>
      match entries.find? fun e => g.tag e.1 = .value with
      | some e => scalarText g e.2 fuel
      | none => .error .malformed

/-- The object of a node that stands for a single value. -/
def atom (n : NodeId) : Assemble Atom := do
  let g := (← get).graph
  let text ← liftM (scalarText g n g.nodes.size)
  match g.tag n, g.entries? n with
  | .timestamp, some _ => throw (.interrupted .momentNotScalar)
  | tag, _ => liftM (Atom.ofScalar tag text)

/-- Set the object of a node. -/
def setObject (n : NodeId) (o : Object) : Assemble Unit :=
  modify fun s => { s with objects := s.objects.setIfInBounds n (some o) }

/-- Make the object of a collection, which is filled later. -/
def collection (n : NodeId) (o : Object) : Assemble Object := do
  setObject n o
  modify fun s => { s with collections := s.collections.push n }
  return o

/-- The object of a node, made where the node is first met. -/
def object (n : NodeId) : Assemble Object := do
  match ((← get).objects[n]?).join with
  | some o => return o
  | none =>
    match (← get).graph.tag n with
    | .seq => collection n (.list [])
    | .pairs => collection n (.pairs 0)
    | .map => collection n (.map [])
    | .set => collection n .set
    | .merge | .value | .unknown => fail
    | _ =>
      let o := Object.atom (← atom n)
      setObject n o
      return o

/-! ## Collections -/

/-- Write an entry. A text that is a key already keeps its place. -/
def putEntry (key : Atom) (value : NodeId) : List (Atom × NodeId) → List (Atom × NodeId)
  | [] => [(key, value)]
  | (k, v) :: rest =>
    if k.text?.isSome && k.text? = key.text? then (k, value) :: rest
    else (k, v) :: putEntry key value rest

/-- Write the entry of a key, which has to be a single value. -/
def addEntry (before : List (Atom × NodeId)) (e : NodeId × NodeId) :
    Assemble (List (Atom × NodeId)) := do
  match ← object e.1 with
  | .atom key =>
    let _ ← object e.2
    return putEntry key e.2 before
  | _ => fail

/-- The entries of a mapping, with those that it merges. -/
def entries (n : NodeId) : Assemble (List (Atom × NodeId)) := do
  let s ← get
  match s.graph.flatten n (s.mergeBound + 1) with
  | none => fail
  | some graph =>
    set { s with graph }
    ((graph.entries? n).getD []).foldlM addEntry []

/-- Make the objects of a pair, which is written as a mapping with a single entry. -/
def pair (n : NodeId) : Assemble Unit := do
  match (← get).graph.entries? n with
  | some [(key, value)] =>
    let _ ← object key
    let _ ← object value
  | _ => fail

def fill (n : NodeId) : Assemble Unit := do
  let node := (← get).graph.node n
  match node.tag, node.form with
  | .seq, .seq items =>
    for item in items do
      let _ ← object item
    setObject n (.list items)
  | .pairs, .seq items =>
    items.forM pair
    setObject n (.pairs items.length)
  | .map, .map _ => setObject n (.map (← entries n))
  | .set, .map _ => let _ ← entries n
  | _, _ => fail

/-- Fill the collections from the `i`th on, in the order in which they are met. A node is met
    once, so that the number of nodes bounds them. -/
def fillFrom (i : Nat) : (fuel : Nat) → Assemble Unit
  | 0 => return
  | fuel + 1 => do
    match (← get).collections[i]? with
    | none => return
    | some n =>
      fill n
      fillFrom (i + 1) fuel

end Assemble

/-- The objects of a document by the numbers of their nodes. -/
def Document.objects (d : Document) : Except Stop (Array (Option Object)) := do
  let start : Assembly :=
    { graph := d.graph
      mergeBound := d.graph.entryCount
      objects := Array.replicate d.graph.nodes.size none }
  let steps : Assemble Unit := do
    let _ ← Assemble.object d.root
    Assemble.fillFrom 0 d.graph.nodes.size
  let (_, done) ← steps.run start
  return done.objects

end ProviderTypes.Yaml
