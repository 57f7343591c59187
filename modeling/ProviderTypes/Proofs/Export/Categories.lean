import ProviderTypes.Proofs.Export.NestedKeys
import ProviderTypes.Proofs.Export.Success
import ProviderTypes.Proofs.Members.NameOrder
import Mathlib.Tactic.Tauto

/-!
# ProviderTypes.Proofs.Export.Categories

Resources and data sources in one registry.  A schema without its data sources and
the same schema without its resources declare all blocks of the schema between
them, so under the policy of errors the whole exports exactly when both halves do
and no entry of a resource clashes with one of a data source
(`exists_toRegistry_iff_halves`).

The scopes keep the keys of nested block types of the two apart
(`exists_details_of_key_eq`), but the block of a resource and the block of a data
source of one name have one key, so two halves that export may still disturb each
other (`not_forall_halves_suffice`).
-/

namespace ProviderTypes

open Flatten (entriesOf mem_entriesOf)

/-! ## compatible parts -/

namespace Registry

variable {es ds : List Entry}

/-- Two lists of entries are compatible when each is and no entry of one clashes with the other. -/
theorem compatible_append :
    Compatible (es ++ ds) ↔ Compatible es ∧ Compatible ds ∧ ∀ e ∈ es, ∀ d ∈ ds, Agree e d := by
  induction es with
  | nil => simp [Compatible]
  | cons e es ih =>
      rw [List.cons_append, compatible_cons, compatible_cons, ih, List.forall_mem_append,
        List.forall_mem_cons]
      tauto

end Registry

/-! ## the halves of a schema -/

/-- The schema of a provider without its data sources. -/
def ProviderSchema.withoutDataSources (p : ProviderSchema) : ProviderSchema :=
  { p with dataSources := [] }

/-- The schema of a provider without its resources. -/
def ProviderSchema.withoutResources (p : ProviderSchema) : ProviderSchema :=
  { p with resources := [] }

namespace Schema

def withoutDataSources (schema : Schema) : Schema :=
  { schema with providers := schema.providers.mapValues ProviderSchema.withoutDataSources }

def withoutResources (schema : Schema) : Schema :=
  { schema with providers := schema.providers.mapValues ProviderSchema.withoutResources }

/-- The blocks that providers declare for themselves. -/
def ownDeclarations (schema : Schema) : List Declaration :=
  schema.providers.inNameOrder.flatMap fun p => Flatten.declarations none p.1 p.2.provider.block

def resourceDeclarations (settings : FlatteningSettings) (schema : Schema) : List Declaration :=
  schema.providers.inNameOrder.flatMap fun p => p.2.resources.inNameOrder.flatMap fun e =>
    Flatten.declarations (some Export.resourceScope) e.1 (Export.resourceBlock settings e.2)

def dataSourceDeclarations (schema : Schema) : List Declaration :=
  schema.providers.inNameOrder.flatMap fun p => p.2.dataSources.inNameOrder.flatMap fun e =>
    Flatten.declarations (some Export.dataSourceScope) e.1 e.2.block

/-- The entries of the resources that translate. -/
def resourcePlan (settings : FlatteningSettings) (schema : Schema) : List Registry.Entry :=
  entriesOf settings.escapes (schema.resourceDeclarations settings)

/-- The entries of the data sources that translate. -/
def dataSourcePlan (settings : FlatteningSettings) (schema : Schema) : List Registry.Entry :=
  entriesOf settings.escapes schema.dataSourceDeclarations

variable {settings : FlatteningSettings} {schema : Schema} {d : Declaration}

/-- A declaration is one of a provider itself, of a resource or of a data source. -/
theorem mem_declarations_iff :
    d ∈ schema.declarations settings ↔
      d ∈ schema.ownDeclarations ∨ d ∈ schema.resourceDeclarations settings ∨
        d ∈ schema.dataSourceDeclarations := by
  simp only [Schema.declarations, Export.declarationsOf, ownDeclarations, resourceDeclarations,
    dataSourceDeclarations, List.mem_flatMap, List.mem_append, and_or_left, exists_or]

theorem inNameOrder_none : Members.inNameOrder ([] : Members SchemaItem) = [] := rfl

/-- Without data sources the declarations of these are missing. -/
theorem mem_declarations_withoutDataSources :
    d ∈ schema.withoutDataSources.declarations settings ↔
      d ∈ schema.ownDeclarations ∨ d ∈ schema.resourceDeclarations settings := by
  have hproviders : schema.withoutDataSources.providers.inNameOrder =
      schema.providers.inNameOrder.mapValues ProviderSchema.withoutDataSources :=
    Members.inNameOrder_mapValues _ _
  rw [Schema.declarations, hproviders, Members.mapValues, List.flatMap_map]
  simp only [Export.declarationsOf, ProviderSchema.withoutDataSources, inNameOrder_none,
    List.flatMap_nil, List.append_nil, ownDeclarations, resourceDeclarations, List.mem_flatMap,
    List.mem_append, and_or_left, exists_or]

/-- Without resources the declarations of these are missing. -/
theorem mem_declarations_withoutResources :
    d ∈ schema.withoutResources.declarations settings ↔
      d ∈ schema.ownDeclarations ∨ d ∈ schema.dataSourceDeclarations := by
  have hproviders : schema.withoutResources.providers.inNameOrder =
      schema.providers.inNameOrder.mapValues ProviderSchema.withoutResources :=
    Members.inNameOrder_mapValues _ _
  rw [Schema.declarations, hproviders, Members.mapValues, List.flatMap_map]
  simp only [Export.declarationsOf, ProviderSchema.withoutResources, inNameOrder_none,
    List.flatMap_nil, List.nil_append, ownDeclarations, dataSourceDeclarations, List.mem_flatMap,
    List.mem_append, and_or_left, exists_or]

/-- The planned entries of a schema agree when those of the halves do and none of a resource clashes
with one of a data source. -/
theorem compatible_plan_iff :
    Registry.Compatible (schema.plan settings) ↔
      Registry.Compatible (schema.withoutDataSources.plan settings) ∧
        Registry.Compatible (schema.withoutResources.plan settings) ∧
        ∀ e ∈ schema.resourcePlan settings, ∀ e' ∈ schema.dataSourcePlan settings,
          Registry.Agree e e' := by
  have hwhole : ∀ e, e ∈ schema.plan settings ↔
      e ∈ entriesOf settings.escapes schema.ownDeclarations ++
        (schema.resourcePlan settings ++ schema.dataSourcePlan settings) := by
    intro e
    simp only [plan, resourcePlan, dataSourcePlan, List.mem_append, mem_entriesOf,
      mem_declarations_iff, or_and_right, exists_or]
  have hresources : ∀ e, e ∈ schema.withoutDataSources.plan settings ↔
      e ∈ entriesOf settings.escapes schema.ownDeclarations ++ schema.resourcePlan settings := by
    intro e
    simp only [plan, resourcePlan, List.mem_append, mem_entriesOf,
      mem_declarations_withoutDataSources, or_and_right, exists_or]
  have hdata : ∀ e, e ∈ schema.withoutResources.plan settings ↔
      e ∈ entriesOf settings.escapes schema.ownDeclarations ++ schema.dataSourcePlan settings := by
    intro e
    simp only [plan, dataSourcePlan, List.mem_append, mem_entriesOf,
      mem_declarations_withoutResources, or_and_right, exists_or]
  rw [Registry.compatible_congr hwhole, Registry.compatible_congr hresources,
    Registry.compatible_congr hdata]
  simp only [Registry.compatible_append, List.forall_mem_append, forall_and]
  tauto

end Schema

/-! ## keys of the two categories -/

namespace Flatten

variable {provider root : String} {scope : Option String}

mutual
/-- All paths through a block start in one scope. -/
theorem scope_of_mem_paths : (block : Block) → (inner : List String) →
    ∀ p ∈ paths provider scope root inner block, p.scope = scope
  | .mk as blockTypes, inner => by
      intro p hp
      rw [paths] at hp
      exact scope_of_mem_pathsAll blockTypes inner p hp
theorem scope_of_mem_pathsAll : (blockTypes : List (String × Nesting × Block)) →
    (inner : List String) → ∀ p ∈ pathsAll provider scope root inner blockTypes, p.scope = scope
  | [], inner => by simp [pathsAll]
  | (child, nesting, block) :: rest, inner => by
      intro p hp
      rw [pathsAll, List.mem_append, List.mem_cons] at hp
      cases hp with
      | inl hp => exact scope_of_mem_paths block (child :: inner) p hp
      | inr hp =>
          cases hp with
          | inl hp => rw [hp]
          | inr hp => exact scope_of_mem_pathsAll rest inner p hp
end

/-- A declared block is an outermost one, or its key is that of a path in the same scope. -/
theorem key_cases {s name : String} {block : Block} {d : Declaration} (hs : s ≠ "")
    (hd : d ∈ declarations (some s) name block) :
    (∃ root, d.key = .details root) ∨
      ∃ p : NestedPath, p.Named ∧ p.scope = some s ∧ p.key = d.key := by
  cases flattened_of_mem_declarations hd with
  | inl hroot => exact Or.inl hroot
  | inr hnested =>
      obtain ⟨scope, parent, child, hkey⟩ := hnested
      have hmem : d.key ∈ (paths "" (some s) name [] block.inNameOrder).map NestedPath.key := by
        rw [map_key_paths_inNameOrder, List.mem_filter, hkey]
        exact ⟨hkey ▸ List.mem_map_of_mem hd, rfl⟩
      obtain ⟨p, hp, hpkey⟩ := List.mem_map.1 hmem
      have hnamed : p.Named :=
        named_of_mem_paths (by simpa using hs) (fun h => by contradiction) _ [] p hp
      exact Or.inr ⟨p, hnamed, scope_of_mem_paths _ [] p hp, hpkey⟩

end Flatten

/-- Paths from resources and paths from data sources have different keys: the last word of their
ancestors is that of the scope. -/
theorem NestedPath.key_ne_of_scopes {p q : NestedPath} (hp : p.Named) (hq : q.Named)
    (hps : p.scope = some Export.resourceScope) (hqs : q.scope = some Export.dataSourceScope) :
    p.key ≠ q.key := by
  intro hkey
  obtain ⟨-, hwords⟩ := (key_eq_iff hp hq).1 hkey
  have hlast := congrArg List.getLast? hwords
  have hresource : words Export.resourceScope = ["resource".toList] := by decide
  have hdata : words Export.dataSourceScope = ["data".toList, "source".toList] := by decide
  simp [ancestors, hps, hqs, hresource, hdata, List.getLast?_append] at hlast

namespace Schema

variable {settings : FlatteningSettings} {schema : Schema} {e e' : Registry.Entry}

/-- Only outermost blocks of a resource and of a data source have one key. -/
theorem exists_details_of_key_eq (he : e ∈ schema.resourcePlan settings)
    (he' : e' ∈ schema.dataSourcePlan settings) (hkey : e.1 = e'.1) :
    ∃ name, e.1 = .details name := by
  obtain ⟨d, hd, _, -, rfl⟩ := mem_entriesOf.1 he
  obtain ⟨d', hd', _, -, rfl⟩ := mem_entriesOf.1 he'
  obtain ⟨_, -, hd⟩ := List.mem_flatMap.1 hd
  obtain ⟨_, -, hd⟩ := List.mem_flatMap.1 hd
  obtain ⟨_, -, hd'⟩ := List.mem_flatMap.1 hd'
  obtain ⟨_, -, hd'⟩ := List.mem_flatMap.1 hd'
  have hresource : Export.resourceScope ≠ "" := by decide
  have hdata : Export.dataSourceScope ≠ "" := by decide
  cases Flatten.key_cases hresource hd with
  | inl hroot => exact hroot
  | inr hpath =>
      obtain ⟨p, hp, hps, hpkey⟩ := hpath
      cases Flatten.key_cases hdata hd' with
      | inl hroot =>
          obtain ⟨name, hname⟩ := hroot
          exact ⟨name, hkey.trans hname⟩
      | inr hpath' =>
          obtain ⟨q, hq, hqs, hqkey⟩ := hpath'
          exact absurd (hpkey.trans (hkey.trans hqkey.symm)) (p.key_ne_of_scopes hp hq hps hqs)

/-! ## the export of the halves -/

/-- Under the policy of errors a schema exports exactly when it does so without its data sources and
without its resources, and no entry of a resource clashes with one of a data source.  A key that
both have is that of an outermost block. -/
theorem exists_toRegistry_iff_halves (hpolicy : settings.onDuplicate = .error) :
    ((∃ r, schema.toRegistry settings = .ok r) ↔
      (∃ r, schema.withoutDataSources.toRegistry settings = .ok r) ∧
        (∃ r, schema.withoutResources.toRegistry settings = .ok r) ∧
        ∀ e ∈ schema.resourcePlan settings, ∀ e' ∈ schema.dataSourcePlan settings,
          e.1.fullName = e'.1.fullName → e.1 = e'.1 ∧ e.2.Same e'.2) ∧
    ∀ e ∈ schema.resourcePlan settings, ∀ e' ∈ schema.dataSourcePlan settings,
      e.1 = e'.1 → ∃ name, e.1 = .details name := by
  have htranslate : (∀ d ∈ schema.declarations settings, ∃ x, d.record settings.escapes = .ok x) ↔
      (∀ d ∈ schema.withoutDataSources.declarations settings,
        ∃ x, d.record settings.escapes = .ok x) ∧
      ∀ d ∈ schema.withoutResources.declarations settings,
        ∃ x, d.record settings.escapes = .ok x := by
    simp only [mem_declarations_withoutDataSources, mem_declarations_withoutResources]
    simp only [mem_declarations_iff, or_imp, forall_and]
    tauto
  refine ⟨?_, fun e he e' he' hkey => exists_details_of_key_eq he he' hkey⟩
  rw [exists_toRegistry_iff hpolicy, exists_toRegistry_iff hpolicy, exists_toRegistry_iff hpolicy,
    compatible_plan_iff, htranslate]
  constructor
  · rintro ⟨⟨hresources, hdata⟩, hleft, hright, hagree⟩
    exact ⟨⟨hresources, hleft⟩, ⟨hdata, hright⟩, hagree⟩
  · rintro ⟨⟨hresources, hleft⟩, ⟨hdata, hright⟩, hagree⟩
    exact ⟨⟨hresources, hdata⟩, hleft, hright, hagree⟩

/-- The sample has a resource that nests a block, and a data source that nests one of the same
name. -/
theorem exists_toRegistry_iff_halves_sample :
    FlatteningSettings.onDuplicate {} = .error ∧
      (∃ r, sample.withoutDataSources.toRegistry {} = .ok r) ∧
      (∃ r, sample.withoutResources.toRegistry {} = .ok r) ∧ ∃ r, sample.toRegistry {} = .ok r := by
  have hresources : ∃ r, sample.withoutDataSources.toRegistry {} = .ok r :=
    exists_eq_ok_of_isOk (by decide +kernel)
  have hdata : ∃ r, sample.withoutResources.toRegistry {} = .ok r :=
    exists_eq_ok_of_isOk (by decide +kernel)
  obtain ⟨hwhole, -⟩ := @exists_toRegistry_iff_halves {} sample rfl
  exact ⟨rfl, hresources, hdata, hwhole.2 ⟨hresources, hdata, by decide +kernel⟩⟩

/-! ## a shared name -/

/-- A provider with a resource and a data source of one name, which declare the same block. -/
def sharedNameDocument : Json :=
  let item (attributes : List (String × Json)) : Json :=
    .object [("version", .int 0), ("block", .object [("attributes", .object attributes)])]
  let zone : Json := .object [("zone", item [("id", .object [("type", .string "string")])])]
  .object [("format_version", .string "1.0"),
    ("provider_schemas", .object [("dns", .object [("provider", item []),
      ("resource_schemas", zone), ("data_source_schemas", zone)])])]

/-- Halves that export may disturb each other: a resource has the meta attributes and a data source
does not, so two of one name clash even if they declare the same block. -/
theorem not_forall_halves_suffice :
    ¬ ∀ (settings : FlatteningSettings) (v : Json) (schema : Schema), ofJson v = .ok schema →
      settings.onDuplicate = .error →
      (∃ r, schema.withoutDataSources.toRegistry settings = .ok r) →
      (∃ r, schema.withoutResources.toRegistry settings = .ok r) →
      ∃ r, schema.toRegistry settings = .ok r := by
  intro hsuffice
  have houtcomes : (ofJson sharedNameDocument).toOption.map (fun schema =>
      ((schema.withoutDataSources.toRegistry {}).isOk, (schema.withoutResources.toRegistry {}).isOk,
        (schema.toRegistry {}).isOk)) = some (true, true, false) := by decide +kernel
  cases hread : ofJson sharedNameDocument with
  | error e =>
      rw [hread] at houtcomes
      contradiction
  | ok schema =>
      rw [hread] at houtcomes
      simp only [Except.toOption, Option.map_some, Option.some.injEq, Prod.mk.injEq] at houtcomes
      obtain ⟨hresources, hdata, hwhole⟩ := houtcomes
      obtain ⟨r, hr⟩ := hsuffice {} _ schema hread rfl (exists_eq_ok_of_isOk hresources)
        (exists_eq_ok_of_isOk hdata)
      rw [hr] at hwhole
      contradiction

end Schema

end ProviderTypes
