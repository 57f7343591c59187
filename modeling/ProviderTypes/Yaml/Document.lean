import ProviderTypes.Yaml.Node
import ProviderTypes.Yaml.Token
/-!
# ProviderTypes.Yaml.Document

Reading the only document of a YAML text from its tokens. A tag that is not written follows from
the form of the node. A name is known as soon as the node that is anchored under it starts, and
it may be given only once.

A step asks for no token before it needs one, because a text that breaks off may have been
refused before. Steps are bounded by the number of tokens.
-/

namespace ProviderTypes.Yaml

/-- A document: its nodes, and the one that all others stand in. -/
structure Document where
  graph : NodeGraph
  root : NodeId
  deriving Repr

/-- Where the reader of nodes stands. -/
structure Composer where
  tokens : List Token
  /-- Why there are no tokens beyond these. -/
  stop : Stop
  graph : NodeGraph := {}
  /-- The anchored nodes. -/
  anchors : List (String × NodeId) := []
  /-- What the handles of tags stand for. -/
  handles : List (String × String) := [("!", "!"), ("!!", coreTagSpace)]

/-- A step of the reader of nodes. -/
abbrev Compose := StateT Composer (Except Stop)

namespace Compose

def fail {α : Type} : Compose α := throw .malformed

/-! ## Tokens -/

def peek : Compose Token := do
  match (← get).tokens with
  | t :: _ => return t
  | [] => throw (← get).stop

def drop : Compose Unit := modify fun s => { s with tokens := s.tokens.drop 1 }

/-- Pass a token if it is this one. -/
def dropIf (t : Token) : Compose Bool := do
  if (← peek) = t then
    drop
    return true
  else return false

def expect (t : Token) : Compose Unit := do
  unless ← dropIf t do fail

/-! ## Anchors and tags -/

/-- The name of an anchor, if one stands here. -/
def anchor? : Compose (Option String) := do
  match ← peek with
  | .anchor name =>
    drop
    return some name
  | _ => return none

/-- The handle and the suffix of a tag, if one stands here. -/
def tagParts? : Compose (Option (Option String × String)) := do
  match ← peek with
  | .tag handle suffix =>
    drop
    return some (handle, suffix)
  | _ => return none

/-- The full name of a tag. -/
def tagName : Option String × String → Compose String
  | (none, suffix) => return suffix
  | (some handle, suffix) => do
    match (← get).handles.lookup handle with
    | some space => return space ++ suffix
    | none => fail

/-- The anchor and the tag of a node, in either order. -/
def properties : Compose (Option String × Option String) := do
  let first ← anchor?
  let tag ← tagParts?
  let anchor ← if first.isNone && tag.isSome then anchor? else pure first
  return (anchor, ← tag.mapM tagName)

/-- The tag of a node, where the form of the node asks for one unless another is written. -/
def tagOr (implied : Tag) (name : Option String) : Tag :=
  match name with
  | none => implied
  | some name => if name = "!" then implied else .ofName name

/-- Check that no node is anchored under a name yet. -/
def checkNew (anchor : Option String) : Compose Unit := do
  if let some name := anchor then
    if ((← get).anchors.lookup name).isSome then fail

/-! ## Nodes -/

/-- Add a node, known under its anchor. -/
def add (anchor : Option String) (node : Node) : Compose NodeId := modifyGet fun s =>
  let n := s.graph.nodes.size
  let named := anchor.toList.map fun name => (name, n)
  (n, { s with graph := { nodes := s.graph.nodes.push node }, anchors := named ++ s.anchors })

/-- Add a scalar that is not written. -/
def absent : Compose NodeId := add none .absent

/-- Say what the parts of a node are. -/
def setForm (n : NodeId) (form : NodeForm) : Compose Unit :=
  modify fun s => { s with graph := s.graph.setForm n form }

/-- The node of an alias. -/
def aliased (name : String) : Compose NodeId := do
  match (← get).anchors.lookup name with
  | none => fail
  | some n => return n

/-- Whether a token ends a part of a flow collection. -/
def endsFlowPart (close : Token) (t : Token) : Bool := t = .flowEntry || t = close

def sequence (anchor tag : Option String) (items : Compose (List NodeId)) : Compose NodeId := do
  let n ← add anchor { tag := tagOr .seq tag, form := .seq [] }
  setForm n (.seq (← items))
  return n

def mapping (anchor tag : Option String) (entries : Compose NodeEntries) : Compose NodeId := do
  let n ← add anchor { tag := tagOr .map tag, form := .map [] }
  setForm n (.map (← entries))
  return n

/-- Add a node of which nothing but its anchor or tag is written. -/
def empty (anchor tag : Option String) : Compose NodeId := do
  if anchor.isNone && tag.isNone then fail
  checkNew anchor
  add anchor { tag := tagOr .null tag, form := .scalar "" }

mutual
/-- A node; `inBlock` where a block collection may stand, `inMapping` where items of a sequence
    may stand at the level of their key. -/
def node (inBlock inMapping : Bool) : (fuel : Nat) → Compose NodeId
  | 0 => fail
  | fuel + 1 => do
    match ← peek with
    | .alias name =>
      drop
      aliased name
    | _ =>
      let (anchor, tag) ← properties
      match ← peek, inBlock, inMapping with
      | .scalar text unquoted, _, _ =>
        drop
        checkNew anchor
        let implied := if unquoted || tag = some "!" then Tag.ofPlain text else .str
        add anchor { tag := tagOr implied tag, form := .scalar text }
      | .blockEntry, _, true =>
        checkNew anchor
        sequence anchor tag (looseItems fuel)
      | .flowSequenceStart, _, _ =>
        checkNew anchor
        drop
        sequence anchor tag (flowItems true fuel)
      | .flowMappingStart, _, _ =>
        checkNew anchor
        drop
        mapping anchor tag (flowEntries true fuel)
      | .blockSequenceStart, true, _ =>
        checkNew anchor
        drop
        sequence anchor tag (blockItems fuel)
      | .blockMappingStart, true, _ =>
        checkNew anchor
        drop
        mapping anchor tag (blockEntries fuel)
      | _, _, _ => empty anchor tag

/-- The items of a sequence in a block. -/
def blockItems : (fuel : Nat) → Compose (List NodeId)
  | 0 => fail
  | fuel + 1 => do
    if ← dropIf .blockEntry then
      let t ← peek
      let item ← if t = .blockEntry || t = .blockEnd then absent else node true false fuel
      return item :: (← blockItems fuel)
    else
      expect .blockEnd
      return []

/-- The items of a sequence that stands at the level of its key. -/
def looseItems : (fuel : Nat) → Compose (List NodeId)
  | 0 => fail
  | fuel + 1 => do
    if ← dropIf .blockEntry then
      let t ← peek
      let ends := t = .blockEntry || t = .key || t = .value || t = .blockEnd
      let item ← if ends then absent else node true false fuel
      return item :: (← looseItems fuel)
    else return []

/-- A part of an entry in a block, after its mark. -/
def blockPart : (fuel : Nat) → Compose NodeId
  | 0 => fail
  | fuel + 1 => do
    let t ← peek
    if t = .key || t = .value || t = .blockEnd then absent
    else node true true fuel

/-- The entries of a mapping in a block. -/
def blockEntries : (fuel : Nat) → Compose NodeEntries
  | 0 => fail
  | fuel + 1 => do
    if ← dropIf .key then
      let key ← blockPart fuel
      let value ← if ← dropIf .value then blockPart fuel else absent
      return (key, value) :: (← blockEntries fuel)
    else
      expect .blockEnd
      return []

/-- A part of an entry in a flow collection, after its mark. -/
def flowPart (close : Token) : (fuel : Nat) → Compose NodeId
  | 0 => fail
  | fuel + 1 => do
    if endsFlowPart close (← peek) then absent
    else node false false fuel

/-- A key in a flow collection, after its mark, and its value. -/
def flowEntry (close : Token) : (fuel : Nat) → Compose (NodeId × NodeId)
  | 0 => fail
  | fuel + 1 => do
    let key ← if (← peek) = .value then absent else flowPart close fuel
    let value ← if ← dropIf .value then flowPart close fuel else absent
    return (key, value)

/-- The items of a flow sequence. An entry of a mapping may stand for a mapping of its own. -/
def flowItems (first : Bool) : (fuel : Nat) → Compose (List NodeId)
  | 0 => fail
  | fuel + 1 => do
    if ← dropIf .flowSequenceEnd then return []
    unless first do expect .flowEntry
    if ← dropIf .flowSequenceEnd then return []
    let item ←
      if ← dropIf .key then
        mapping none none do return [← flowEntry .flowSequenceEnd fuel]
      else node false false fuel
    return item :: (← flowItems false fuel)

/-- The entries of a flow mapping. A key may stand alone. -/
def flowEntries (first : Bool) : (fuel : Nat) → Compose NodeEntries
  | 0 => fail
  | fuel + 1 => do
    if ← dropIf .flowMappingEnd then return []
    unless first do expect .flowEntry
    if ← dropIf .flowMappingEnd then return []
    let entry ←
      if ← dropIf .key then flowEntry .flowMappingEnd fuel
      else do
        let key ← node false false fuel
        pure (key, ← absent)
    return entry :: (← flowEntries false fuel)
end

/-! ## Documents -/

/-- The directives of a document: at most one version, which is compatible, and distinct
    handles. -/
def directives (versioned : Bool) (handles : List (String × String)) :
    (fuel : Nat) → Compose (List (String × String))
  | 0 => fail
  | fuel + 1 => do
    match ← peek with
    | .versionDirective major =>
      if versioned || major ≠ 1 then fail
      drop
      directives true handles fuel
    | .tagDirective handle tagPrefix =>
      if (handles.lookup handle).isSome then fail
      drop
      directives versioned ((handle, tagPrefix) :: handles) fuel
    | .otherDirective =>
      drop
      directives versioned handles fuel
    | _ => return handles

/-- Pass the marks after a document. -/
def documentEnds : (fuel : Nat) → Compose Unit
  | 0 => return
  | fuel + 1 => do
    if ← dropIf .documentEnd then documentEnds fuel

def endsDocument : Token → Bool
  | .versionDirective _ | .tagDirective _ _ | .otherDirective => true
  | .documentStart | .documentEnd | .streamEnd => true
  | _ => false

/-- The root of the only document of a text; none when there is nothing. A second document is
    refused once its directives are read. -/
def root (fuel : Nat) : Compose (Option NodeId) := do
  let t ← peek
  if t = .streamEnd then return none
  let n ←
    if endsDocument t && t ≠ .documentEnd then do
      let handles ← directives false [] fuel
      modify fun s => { s with handles := handles ++ s.handles }
      expect .documentStart
      if endsDocument (← peek) then absent else node true false fuel
    else node true false fuel
  documentEnds fuel
  unless ← dropIf .streamEnd do
    let _ ← directives false [] fuel
    fail
  return some n

end Compose

/-- The document of a text; none when there is nothing. -/
def Document.ofText (cs : List Char) : Except Stop (Option Document) := do
  let (ts, stop) := tokens cs
  let composer : Composer := { tokens := ts, stop := stop.getD .malformed }
  let (root, composer) ← (Compose.root (4 * ts.length + 8)).run composer
  return root.map fun root => { graph := composer.graph, root }

end ProviderTypes.Yaml
