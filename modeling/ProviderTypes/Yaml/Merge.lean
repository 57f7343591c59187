import ProviderTypes.Yaml.Node
/-!
# ProviderTypes.Yaml.Merge

Merged mappings. An entry under the mark of merges is replaced by the entries of the mapping
that is its value, or of the mappings in the sequence that is its value. They come in front of
the entries that the mapping writes itself, so that these win; of the mappings in a sequence
later ones come first, so that earlier ones win.

A mapping that merges others is changed for good, wherever it stands, and it may merge itself:
an entry is taken out before what it merges is looked at.
-/

namespace ProviderTypes.Yaml.NodeGraph

/-- The first value that is merged, and the entries without it. -/
def takeMerged? (g : NodeGraph) : NodeEntries → Option (NodeId × NodeEntries)
  | [] => none
  | (key, value) :: rest =>
    if g.tag key = .merge then some (value, rest)
    else (g.takeMerged? rest).map fun found => (found.1, (key, value) :: found.2)

/-- Make the marks of default values among the keys texts. -/
def nameDefaults (g : NodeGraph) (entries : NodeEntries) : NodeGraph :=
  entries.foldl (fun g e => if g.tag e.1 = .value then g.setTag e.1 .str else g) g

/-- The nodes that a merged value stands for; a scalar stands for none. -/
def mergedNodes? (g : NodeGraph) (source : NodeId) : Option (List NodeId) :=
  match (g.node source).form with
  | .scalar _ => none
  | .seq items => some items
  | .map _ => some [source]

/-- Bring the entries that a mapping merges in front of its own; nothing when something else
    than a mapping is merged. Each level takes a merged entry out, so that the number of entries
    bounds them. -/
def flatten (g : NodeGraph) (n : NodeId) : (fuel : Nat) → Option NodeGraph
  | 0 => none
  | fuel + 1 => do
    let entries ← g.entries? n
    match g.takeMerged? entries with
    | none => return g.nameDefaults entries
    | some (source, others) =>
      let g := g.setForm n (.map others)
      let (g, merged) ← (← g.mergedNodes? source).foldlM (fun (g, merged) item => do
        let g ← g.flatten item fuel
        return (g, (← g.entries? item) ++ merged)) (g, [])
      let g ← g.flatten n fuel
      return g.setForm n (.map (merged ++ (← g.entries? n)))

end ProviderTypes.Yaml.NodeGraph
