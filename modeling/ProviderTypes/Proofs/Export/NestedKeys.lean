import ProviderTypes.Schema.Reader
import ProviderTypes.Proofs.Export.Plan
import ProviderTypes.Proofs.Flatten.NestedPath

/-!
# ProviderTypes.Proofs.Export.NestedKeys

The keys of all nested block types of a schema.  They are those of its paths
(`map_key_nestedPaths`), and in a schema that was read, where no name is empty,
two paths share a key exactly when they end in the same name and their ancestors
have the same words (`nested_key_eq_iff`).

Blocks under different parents may therefore share a key: `c` in `b` in the
provider `a` has the key of `c` in the provider `b_a`
(`not_forall_nested_key_ne`).
-/

namespace ProviderTypes

/-! ## names of a schema that was read -/

theorem OrderedMap.mem_of_mem_ofList {α β : Type} [Ord α] [Std.TransOrd α] {pairs : List (α × β)}
    {e : α × β} (h : e ∈ (ofList pairs).entries) : e ∈ pairs := by
  have hfold : ∀ (pairs : List (α × β)) (m : OrderedMap α β),
      e ∈ (pairs.foldl (fun m p => m.insert p.1 p.2) m).entries → e ∈ m.entries ∨ e ∈ pairs := by
    intro pairs
    induction pairs with
    | nil => exact fun m h => Or.inl h
    | cons p pairs ih =>
        intro m h
        cases ih (m.insert p.1 p.2) h with
        | inl h =>
            cases eq_or_mem_of_mem_insertEntry h with
            | inl h => exact Or.inr (h ▸ List.mem_cons_self)
            | inr h => exact Or.inl h
        | inr h => exact Or.inr (List.mem_cons_of_mem _ h)
  cases hfold pairs empty h with
  | inl h => simp [empty] at h
  | inr h => exact h

namespace Schema

theorem ne_empty_of_checkName {path name : String} {u : Unit} (h : checkName path name = .ok u) :
    name ≠ "" := by
  intro hname
  simp [checkName, hname] at h

/-- Providers have names. -/
theorem ne_empty_of_readProviderList {path : String} {members : List (String × Json)}
    {ps : Members ProviderSchema} (h : readProviderList path members = .ok ps) :
    ∀ e ∈ ps, e.1 ≠ "" := by
  induction members generalizing ps with
  | nil =>
      cases h
      simp
  | cons p members ih =>
      obtain ⟨name, v⟩ := p
      rw [readProviderList] at h
      obtain ⟨u, hname, h⟩ := bind_eq_ok.1 h
      obtain ⟨first, -, h⟩ := bind_eq_ok.1 h
      obtain ⟨others, hothers, h⟩ := bind_eq_ok.1 h
      cases h
      rw [List.forall_mem_cons]
      exact ⟨ne_empty_of_checkName hname, ih hothers⟩

/-- No provider of a schema that was read has the empty name. -/
theorem ne_empty_of_ofJson {v : Json} {schema : Schema} (h : ofJson v = .ok schema) :
    ∀ e ∈ schema.providers, e.1 ≠ "" := by
  unfold ofJson at h
  obtain ⟨members, -, h⟩ := bind_eq_ok.1 h
  obtain ⟨version, -, h⟩ := bind_eq_ok.1 h
  obtain ⟨providers, -, h⟩ := bind_eq_ok.1 h
  obtain ⟨ps, hps, h⟩ := bind_eq_ok.1 h
  cases h
  exact ne_empty_of_readProviderList hps

end Schema

/-! ## paths of a schema -/

/-- The paths of a provider: those below its own block, its resources and its data sources. -/
def Export.nestedPathsOf (name : String) (p : ProviderSchema) : List NestedPath :=
  Flatten.paths name none name [] p.provider.block.inNameOrder ++
    ((p.resources.inNameOrder.flatMap fun e =>
        Flatten.paths name (some resourceScope) e.1 [] e.2.block.inNameOrder) ++
      p.dataSources.inNameOrder.flatMap fun e =>
        Flatten.paths name (some dataSourceScope) e.1 [] e.2.block.inNameOrder)

/-- The paths from a provider with a name have names. -/
theorem Export.named_of_mem_nestedPathsOf {name : String} (hname : name ≠ "") {p : ProviderSchema} :
    ∀ path ∈ nestedPathsOf name p, path.Named := by
  have hscoped : ∀ scope ∈ [resourceScope, dataSourceScope], ∀ (root : String) (block : Block),
      ∀ path ∈ Flatten.paths name (some scope) root [] block, path.Named := by
    intro scope hscope root block
    have hne : scope ≠ "" := by
      revert scope
      decide
    exact Flatten.named_of_mem_paths (by simpa using hne) (fun h => by contradiction) block []
  intro path hpath
  rw [nestedPathsOf, List.mem_append, List.mem_append, List.mem_flatMap, List.mem_flatMap] at hpath
  cases hpath with
  | inl hpath =>
      exact Flatten.named_of_mem_paths (by simp) (fun _ => hname) _ [] path hpath
  | inr hpath =>
      cases hpath with
      | inl hpath =>
          obtain ⟨e, -, hpath⟩ := hpath
          exact hscoped _ (by simp) _ _ path hpath
      | inr hpath =>
          obtain ⟨e, -, hpath⟩ := hpath
          exact hscoped _ (by simp) _ _ path hpath

namespace Schema

/-- The paths to all nested block types of a schema. -/
def nestedPaths (schema : Schema) : List NestedPath :=
  schema.providers.inNameOrder.flatMap fun e => Export.nestedPathsOf e.1 e.2

/-- The paths of a schema that was read have names. -/
theorem named_of_mem_nestedPaths {v : Json} {schema : Schema} (h : ofJson v = .ok schema)
    {p : NestedPath} (hp : p ∈ schema.nestedPaths) : p.Named := by
  obtain ⟨e, he, hp⟩ := List.mem_flatMap.1 hp
  have hname : e.1 ≠ "" := ne_empty_of_ofJson h e (OrderedMap.mem_of_mem_ofList he)
  exact Export.named_of_mem_nestedPathsOf hname p hp

/-- The paths have the keys of the blocks that are declared, in their order, but for those of the
outermost blocks, which have no namespace. -/
theorem map_key_nestedPaths (settings : FlatteningSettings) (schema : Schema) :
    schema.nestedPaths.map NestedPath.key =
      ((schema.declarations settings).map Declaration.key).filter fun key => key.scope.isSome := by
  have hresource : ∀ (name : String) (e : String × SchemaItem),
      Flatten.paths name (some Export.resourceScope) e.1 [] e.2.block.inNameOrder =
        Flatten.paths name (some Export.resourceScope) e.1 []
          (Export.resourceBlock settings e.2).inNameOrder := by
    intro name e
    unfold Export.resourceBlock
    split
    · cases e.2.block with
      | mk as blockTypes =>
          rw [Block.withMetaAttributes, Block.inNameOrder, Block.inNameOrder, Flatten.paths,
            Flatten.paths]
          rfl
    · rfl
  unfold nestedPaths declarations Export.nestedPathsOf Export.declarationsOf
  simp only [List.map_flatMap, List.map_append, List.filter_flatMap, List.filter_append, hresource,
    Flatten.map_key_paths_inNameOrder]

/-- The keys of nested block types in a schema that was read.  They are those of the paths; two
paths have one key exactly when they end in one name and the names of their ancestors, the nearest
first and the scope at the end, have the same words between underscores. -/
theorem nested_key_eq_iff {v : Json} {schema : Schema} (h : ofJson v = .ok schema)
    (settings : FlatteningSettings) :
    schema.nestedPaths.map NestedPath.key =
        ((schema.declarations settings).map Declaration.key).filter (fun key => key.scope.isSome) ∧
      ∀ p ∈ schema.nestedPaths, ∀ q ∈ schema.nestedPaths,
        (p.key = q.key ↔
          p.child = q.child ∧ p.ancestors.flatMap words = q.ancestors.flatMap words) :=
  ⟨map_key_nestedPaths settings schema, fun _ hp _ hq =>
    NestedPath.key_eq_iff (named_of_mem_nestedPaths h hp) (named_of_mem_nestedPaths h hq)⟩

/-! ## a shared key -/

/-- Two providers: in the one `c` is nested in `b` in `a`, in the other in `b_a`. -/
def gluedDocument : Json :=
  let nest (name : String) (block : Json) : Json :=
    .object [("block_types", .object [(name, .object [("block", block)])])]
  let provider (block : Json) : Json :=
    .object [("provider", .object [("version", .int 0), ("block", block)])]
  let marked : Json :=
    .object [("attributes", .object [("x", .object [("type", .string "string")])])]
  .object [("format_version", .string "1.0"),
    ("provider_schemas", .object [("a", provider (nest "b" (nest "c" marked))),
      ("b_a", provider (nest "c" (.object [])))])]

/-- From the provider `a` through `b` to `c`. -/
def deepPath : NestedPath := ⟨"a", none, "a", ["b"], "c"⟩

/-- From the provider `b_a` to `c`. -/
def shallowPath : NestedPath := ⟨"b_a", none, "b_a", [], "c"⟩

/-- The document is a schema with both paths. -/
theorem exists_glued : ∃ schema, ofJson gluedDocument = .ok schema ∧
    deepPath ∈ schema.nestedPaths ∧ shallowPath ∈ schema.nestedPaths := by
  have hpaths : (ofJson gluedDocument).toOption.map nestedPaths =
      some [deepPath, ⟨"a", none, "a", [], "b"⟩, shallowPath] := by decide +kernel
  cases hread : ofJson gluedDocument with
  | error e =>
      rw [hread] at hpaths
      contradiction
  | ok schema =>
      rw [hread] at hpaths
      have hschema : schema.nestedPaths = [deepPath, ⟨"a", none, "a", [], "b"⟩, shallowPath] :=
        Option.some.inj hpaths
      exact ⟨schema, rfl, by simp [hschema], by simp [hschema]⟩

/-- The ancestors `b`, `a` and the ancestor `b_a` have the same words, so the key is one. -/
theorem nested_key_eq_glued : ∃ schema, ofJson gluedDocument = .ok schema ∧
    deepPath ∈ schema.nestedPaths ∧ shallowPath ∈ schema.nestedPaths ∧
    deepPath.key = shallowPath.key := by
  obtain ⟨schema, hread, hdeep, hshallow⟩ := exists_glued
  have hkey : deepPath.key = shallowPath.key :=
    ((nested_key_eq_iff hread {}).2 _ hdeep _ hshallow).2 ⟨rfl, by decide⟩
  exact ⟨schema, hread, hdeep, hshallow, hkey⟩

/-- Different nested block types may share a key. -/
theorem not_forall_nested_key_ne :
    ¬ ∀ (v : Json) (schema : Schema), ofJson v = .ok schema →
      ∀ p ∈ schema.nestedPaths, ∀ q ∈ schema.nestedPaths, p ≠ q → p.key ≠ q.key := by
  intro hdistinct
  obtain ⟨schema, hread, hdeep, hshallow⟩ := exists_glued
  have hdifferent : deepPath ≠ shallowPath := by decide
  have hkey : deepPath.key = shallowPath.key := by decide
  exact hdistinct gluedDocument schema hread deepPath hdeep shallowPath hshallow hdifferent hkey

end Schema

end ProviderTypes
