import ProviderTypes.Export
import ProviderTypes.Proofs.Flatten.Script
import ProviderTypes.Proofs.RootIndex.Entries

/-!
# ProviderTypes.Proofs.Export.Plan

The plan of an export.  `Schema.declarations` lists every block of a schema with
its key, at any depth; `Schema.script` is what the export registers for them.
Both are written down without a registry.

Exporting all providers into one registry is playing the script of the schema on
an empty registry and adding the root index, which always succeeds
(`toRegistry_of_played`); a script that stops stops the export in the same way
(`toRegistry_of_stopped`).
-/

namespace ProviderTypes

open Flatten (declarations scriptOf Registers entriesOf)
open Build (Performs)

/-! ## what is declared and registered -/

namespace Export

/-- The block that is exported for a resource. -/
def resourceBlock (settings : FlatteningSettings) (item : SchemaItem) : Block :=
  if settings.injectMetaAttributes then item.block.withMetaAttributes else item.block

/-- The blocks that a provider declares: its own, those of its resources and those of its data
sources. -/
def declarationsOf (settings : FlatteningSettings) (name : String) (p : ProviderSchema) :
    List Declaration :=
  declarations none name p.provider.block ++
    ((p.resources.inNameOrder.flatMap fun e =>
        declarations (some resourceScope) e.1 (resourceBlock settings e.2)) ++
      p.dataSources.inNameOrder.flatMap fun e =>
        declarations (some dataSourceScope) e.1 e.2.block)

/-- What is registered for a provider. -/
def script (settings : FlatteningSettings) (name : String) (p : ProviderSchema) : Script :=
  scriptOf settings.escapes none name p.provider.block ++
    ((p.resources.inNameOrder.flatMap fun e =>
        scriptOf settings.escapes (some resourceScope) e.1 (resourceBlock settings e.2)) ++
      p.dataSources.inNameOrder.flatMap fun e =>
        scriptOf settings.escapes (some dataSourceScope) e.1 e.2.block)

/-- The members that are recorded for a provider. -/
def members (name : String) (p : ProviderSchema) : List (RootCategory × String) :=
  (.provider, name) ::
    ((p.resources.inNameOrder.flatMap fun e => [(.resource, e.1)]) ++
      p.dataSources.inNameOrder.flatMap fun e => [(.data, e.1)])

/-- The script of a provider registers what the provider declares. -/
theorem registers_script (settings : FlatteningSettings) (name : String) (p : ProviderSchema) :
    Registers settings.escapes (script settings name p) (declarationsOf settings name p) := by
  have howner := Flatten.registers_scriptOf settings.escapes none name p.provider.block
  have hresources := Registers.flatMap (l := p.resources.inNameOrder) fun e =>
    Flatten.registers_scriptOf settings.escapes (some resourceScope) e.1
      (resourceBlock settings e.2)
  have hdata := Registers.flatMap (l := p.dataSources.inNameOrder) fun e =>
    Flatten.registers_scriptOf settings.escapes (some dataSourceScope) e.1 e.2.block
  exact howner.append (hresources.append hdata)

/-- Exporting a provider is its script played. -/
theorem performs_provider (settings : FlatteningSettings) (name : String) (p : ProviderSchema) :
    Performs (provider settings name p) (script settings name p) (.ok ()) (members name p) := by
  have hresource : ∀ e : String × SchemaItem, Performs (resource settings e.1 e.2)
      (scriptOf settings.escapes (some resourceScope) e.1 (resourceBlock settings e.2)) (.ok ())
      [(.resource, e.1)] := by
    intro e
    have h : Performs (resource settings e.1 e.2)
        (scriptOf settings.escapes (some resourceScope) e.1 (resourceBlock settings e.2) ++ [])
        (.ok ()) [(.resource, e.1)] :=
      Flatten.performs_flattenBlock_bind fun _ _ => Build.performs_addMember .resource e.1
    rwa [List.append_nil] at h
  have hdata : ∀ e : String × SchemaItem, Performs (dataSource settings e.1 e.2)
      (scriptOf settings.escapes (some dataSourceScope) e.1 e.2.block) (.ok ())
      [(.data, e.1)] := by
    intro e
    have h : Performs (dataSource settings e.1 e.2)
        (scriptOf settings.escapes (some dataSourceScope) e.1 e.2.block ++ [])
        (.ok ()) [(.data, e.1)] :=
      Flatten.performs_flattenBlock_bind fun _ _ => Build.performs_addMember .data e.1
    rwa [List.append_nil] at h
  have hblocks := (Performs.forM (l := p.resources.inNameOrder) hresource).bind
    (g := fun _ => p.dataSources.inNameOrder.forM fun e => dataSource settings e.1 e.2)
    (Performs.forM hdata)
  exact (Build.performs_note _ _ _).bind (Flatten.performs_flattenBlock_bind fun _ _ =>
    (Build.performs_addMember .provider name).bind hblocks)

end Export

namespace Schema

variable {settings : FlatteningSettings} {schema : Schema}

def declarations (settings : FlatteningSettings) (schema : Schema) : List Declaration :=
  schema.providers.inNameOrder.flatMap fun e => Export.declarationsOf settings e.1 e.2

/-- What is registered for a schema. -/
def script (settings : FlatteningSettings) (schema : Schema) : Script :=
  schema.providers.inNameOrder.flatMap fun e => Export.script settings e.1 e.2

/-- The members of a schema, each in its group. -/
def categories (schema : Schema) : RootCategories :=
  ({} : RootCategories).addAll
    (schema.providers.inNameOrder.flatMap fun e => Export.members e.1 e.2)

/-- No category has a member twice. -/
theorem distinct_categories (schema : Schema) : schema.categories.Distinct :=
  RootCategories.distinct_empty.addAll _

/-- The script of a schema registers what the schema declares. -/
theorem registers_script (settings : FlatteningSettings) (schema : Schema) :
    Registers settings.escapes (schema.script settings) (schema.declarations settings) :=
  Registers.flatMap fun e => Export.registers_script settings e.1 e.2

def rootEntries (schema : Schema) : List Registry.Entry :=
  RootIndex.entries schema.categories schema.distinct_categories

end Schema

/-! ## keys -/

namespace Flatten

mutual
/-- Nested blocks have the keys that flattening gives. -/
theorem flattened_of_mem_nested : (block : Block) → (scope : Option String) → (name : String) →
    ∀ d ∈ nested scope name block, d.key.Flattened
  | .mk as blockTypes, scope, name => by
      intro d hd
      rw [nested] at hd
      exact flattened_of_mem_nestedAll blockTypes scope name d hd
theorem flattened_of_mem_nestedAll : (blockTypes : List (String × Nesting × Block)) →
    (scope : Option String) → (name : String) →
    ∀ d ∈ nestedAll scope name blockTypes, d.key.Flattened
  | [], scope, name => by simp [nestedAll]
  | (child, nesting, block) :: rest, scope, name => by
      intro d hd
      rw [nestedAll, List.mem_append, List.mem_cons] at hd
      cases hd with
      | inl hd => exact flattened_of_mem_nested block _ child d hd
      | inr hd =>
          cases hd with
          | inl hd => exact Or.inr ⟨scope, name, child, by rw [hd]⟩
          | inr hd => exact flattened_of_mem_nestedAll rest scope name d hd
end

/-- Declared blocks have the keys that flattening gives. -/
theorem flattened_of_mem_declarations {scope : Option String} {name : String} {block : Block}
    {d : Declaration} (hd : d ∈ declarations scope name block) : d.key.Flattened := by
  rw [declarations, List.mem_append, List.mem_singleton] at hd
  cases hd with
  | inl hd => exact flattened_of_mem_nested _ _ _ d hd
  | inr hd => exact Or.inl ⟨name, by rw [hd]⟩

end Flatten

theorem Export.flattened_of_mem_declarationsOf {settings : FlatteningSettings} {name : String}
    {p : ProviderSchema} {d : Declaration} (hd : d ∈ declarationsOf settings name p) :
    d.key.Flattened := by
  simp only [declarationsOf, List.mem_append, List.mem_flatMap] at hd
  cases hd with
  | inl hd => exact Flatten.flattened_of_mem_declarations hd
  | inr hd =>
      cases hd with
      | inl hd =>
          obtain ⟨e, -, hd⟩ := hd
          exact Flatten.flattened_of_mem_declarations hd
      | inr hd =>
          obtain ⟨e, -, hd⟩ := hd
          exact Flatten.flattened_of_mem_declarations hd

/-- A registry that is filled with the entries of blocks has keys of blocks only. -/
theorem flattened_of_mem_keys {rules : EscapeRules} {ds : List Declaration}
    (hds : ∀ d ∈ ds, d.key.Flattened) {policy : DuplicatePolicy} {r : Registry}
    (h : (entriesOf rules ds).foldlM (fun (m : Registry) e => m.insert e.1 e.2)
      (Registry.empty policy) = .ok r) :
    ∀ key ∈ r.keys, key.Flattened := by
  intro key hkey
  rw [Registry.enters_insert.mem_keys_foldlM h] at hkey
  cases hkey with
  | inl hkey =>
      obtain ⟨e, he, rfl⟩ := List.mem_map.1 hkey
      obtain ⟨d, hd, r, -, rfl⟩ := Flatten.mem_entriesOf.1 he
      exact hds d hd
  | inr hkey => simp [Registry.mem_keys_iff_bare?] at hkey

/-! ## the export into one registry -/

/-- The index is built from the categories that were found. -/
theorem Export.runOn_addRootIndex (w : Workspace) :
    addRootIndex.runOn w = (RootIndex.build w.categories).runOn w := by
  unfold addRootIndex
  rw [Build.runOn_bind, Build.runOn_get]

namespace Schema

variable {settings : FlatteningSettings} {schema : Schema} {m : Registry} {e : ExportError}

theorem flattened_of_mem_declarations {d : Declaration} (hd : d ∈ schema.declarations settings) :
    d.key.Flattened := by
  obtain ⟨e, -, hd⟩ := List.mem_flatMap.1 hd
  exact Export.flattened_of_mem_declarationsOf hd

/-- Exporting the providers plays the script of the schema and records its categories. -/
theorem performs_providers (settings : FlatteningSettings) (schema : Schema) :
    Performs (schema.providers.inNameOrder.forM fun e => Export.provider settings e.1 e.2)
      (schema.script settings) (.ok ())
      (schema.providers.inNameOrder.flatMap fun e => Export.members e.1 e.2) :=
  Performs.forM fun e => Export.performs_provider settings e.1 e.2

/-- A script that plays to its end leaves a consistent registry of blocks. -/
theorem flattened_of_played
    (h : (Registry.empty settings.onDuplicate).play (schema.script settings) = (.ok (), m)) :
    m.Consistent ∧ ∀ key ∈ m.keys, key.Flattened := by
  obtain ⟨-, hplayed⟩ := (registers_script settings schema).play_eq_ok.1 h
  exact ⟨Registry.enters_insert.consistent_foldlM hplayed (Registry.consistent_empty _),
    flattened_of_mem_keys (fun d hd => flattened_of_mem_declarations hd) hplayed⟩

/-- A script that stops stops the export in the same way. -/
theorem toRegistry_of_stopped
    (h : (Registry.empty settings.onDuplicate).play (schema.script settings) = (.error e, m)) :
    schema.toRegistry settings = .error e := by
  obtain ⟨categories, log, hrun⟩ := (performs_providers settings schema).stopped
    (w := { registry := .empty settings.onDuplicate }) h
  unfold toRegistry Export.registryOf Export.sequential
  rw [Build.runOn_bind, hrun]
  rfl

/-- A script that plays to its end leaves a registry to which the root index is added. -/
theorem toRegistry_of_played
    (h : (Registry.empty settings.onDuplicate).play (schema.script settings) = (.ok (), m)) :
    ∃ r, schema.rootEntries.foldlM (fun (r : Registry) e => r.replace e.1 e.2) m = .ok r ∧
      schema.toRegistry settings = .ok r := by
  obtain ⟨log, hrun⟩ := (performs_providers settings schema).played
    (w := { registry := .empty settings.onDuplicate }) h
  change _ = (_, (⟨m, schema.categories, log⟩ : Workspace)) at hrun
  obtain ⟨hconsistent, hkeys⟩ := flattened_of_played h
  obtain ⟨r, hr, hbuild⟩ := RootIndex.exists_runOn_build schema.distinct_categories
    (w := ⟨m, schema.categories, log⟩) hconsistent hkeys
  refine ⟨r, hr, ?_⟩
  unfold toRegistry Export.registryOf Export.sequential
  rw [Build.runOn_bind, hrun]
  simp only [Build.runOn_bind, Export.runOn_addRootIndex]
  rw [hbuild]
  rfl

/-- An export succeeds exactly when the script plays to its end; the root index comes on top. -/
theorem toRegistry_eq_ok {r : Registry} :
    schema.toRegistry settings = .ok r ↔
      ∃ m, (Registry.empty settings.onDuplicate).play (schema.script settings) = (.ok (), m) ∧
        schema.rootEntries.foldlM (fun (r : Registry) e => r.replace e.1 e.2) m = .ok r := by
  constructor
  · intro h
    cases hplay : (Registry.empty settings.onDuplicate).play (schema.script settings) with
    | mk result m =>
        cases result with
        | error e =>
            rw [toRegistry_of_stopped hplay] at h
            contradiction
        | ok u =>
            obtain ⟨r', hr', hexport⟩ := toRegistry_of_played hplay
            rw [hexport, Except.ok.injEq] at h
            exact ⟨m, rfl, h ▸ hr'⟩
  · intro hexists
    obtain ⟨m, hplay, hr⟩ := hexists
    obtain ⟨r', hr', hexport⟩ := toRegistry_of_played hplay
    rw [hr', Except.ok.injEq] at hr
    rw [hexport, hr]

/-- Two providers with one resource in common, which nests a block. -/
def sample : Schema :=
  let rule : SchemaItem := ⟨0, .mk [("port", { type := .primitive "number" })]
    [("match", {}, .mk [("cidr", { type := .primitive "string" })] [])]⟩
  let settingsOf (name : String) : SchemaItem :=
    ⟨0, .mk [(name, { type := .tagged "list" [.string "string"] })] []⟩
  { formatVersion := "1.0"
    providers :=
      [("net", ⟨settingsOf "token", [("net_rule", rule)], []⟩),
        ("net_beta", ⟨settingsOf "hosts", [("net_rule", rule)], [("net_info", rule)]⟩)] }

/-- The sample has a registry. -/
theorem exists_toRegistry_sample : ∃ r, sample.toRegistry {} = .ok r :=
  exists_eq_ok_of_isOk (by decide +kernel)

end Schema

end ProviderTypes
