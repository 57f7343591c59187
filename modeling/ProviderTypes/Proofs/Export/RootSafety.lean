import ProviderTypes.Proofs.Export.Reordering
import ProviderTypes.Proofs.Registry.Replacement

/-!
# ProviderTypes.Proofs.Export.RootSafety

The root index beside the blocks of a schema.  The index replaces whatever stands
under its keys, and the names of a schema are arbitrary; still no block stands in its
place, since no key of a block has one of its full names
(`QualifiedName.Flattened.fullName_not_mem_rootNames`).  So once all providers are
flattened, in one registry or each in its own, adding the index does not fail, leaves
every block as it is, and adds four entries (`Schema.root_index_spares_blocks`).
-/

namespace ProviderTypes

namespace RootIndex

/-- The full names of the index. -/
def rootNames : List String := ["config", "provider_root", "resource_root", "data_root"]

theorem mem_rootNames_iff {name : String} :
    name ∈ rootNames ↔ ∃ root ∈ keys, root.fullName = name := by
  have hnames : keys.map QualifiedName.fullName =
      ["provider_root", "resource_root", "data_root", "config"] := by decide
  rw [← List.mem_map, hnames]
  simp [rootNames, or_comm, or_left_comm]

end RootIndex

/-- No block has a full name of the index. -/
theorem QualifiedName.Flattened.fullName_not_mem_rootNames {key : QualifiedName}
    (h : key.Flattened) : key.fullName ∉ RootIndex.rootNames := by
  intro hmem
  obtain ⟨root, hroot, hname⟩ := RootIndex.mem_rootNames_iff.1 hmem
  exact h.fullName_ne hroot hname.symm

namespace Export

/-- What becomes of providers that were flattened.  Where this failed, the export fails in the same
way.  Where not, no key has a full name of the root index; the index is added, with all entries as
they were and four more, and this is the export. -/
def Completes (flattened : Except ExportError Unit × Workspace)
    (exported : Except ExportError Registry) : Prop :=
  match flattened with
  | (.error e, _) => exported = .error e
  | (.ok (), w) =>
    (∀ key ∈ w.registry.keys, key.fullName ∉ RootIndex.rootNames) ∧
      ∃ r, addRootIndex.runOn w = (.ok (), { w with registry := r }) ∧ exported = .ok r ∧
        (∀ key ∈ w.registry.keys, r.get? key = w.registry.get? key) ∧
        r.size = w.registry.size + 4

/-- Blocks in a consistent registry are completed by the index of members that are recorded once. -/
theorem completes_of_flattened {w : Workspace} {exported : Except ExportError Registry}
    (hdistinct : w.categories.Distinct) (hr : w.registry.Consistent)
    (hkeys : ∀ key ∈ w.registry.keys, key.Flattened)
    (hexported : ∀ r, (RootIndex.entries w.categories hdistinct).foldlM
      (fun (r : Registry) e => r.replace e.1 e.2) w.registry = .ok r → exported = .ok r) :
    Completes (.ok (), w) exported := by
  obtain ⟨r, hr', hbuild⟩ := RootIndex.exists_runOn_build hdistinct hr hkeys
  have hdisjoint : ∀ key ∈ w.registry.keys, key ∉ RootIndex.keys := fun key hkey hroot =>
    (hkeys key hkey).fullName_ne hroot rfl
  have hkept : ∀ key ∈ w.registry.keys, r.get? key = w.registry.get? key := fun key hkey =>
    Registry.get?_replaceAll_of_not_mem hr' (hdisjoint key hkey)
  have hsize : r.size = w.registry.size + 4 :=
    Registry.size_replaceAll hr' (RootIndex.nodup_map_fst_entries hdistinct) fun e he hkey =>
      hdisjoint e.1 hkey (RootIndex.mem_keys_of_mem_entries he)
  exact ⟨fun key hkey => (hkeys key hkey).fullName_not_mem_rootNames, r,
    by rw [runOn_addRootIndex, hbuild], hexported r hr', hkept, hsize⟩

end Export

namespace Schema

/-- Exporting into one registry is completed by the index. -/
theorem completes_toRegistry (settings : FlatteningSettings) (schema : Schema) :
    Export.Completes
      ((schema.providers.inNameOrder.forM fun e => Export.provider settings e.1 e.2).runOn
        { registry := .empty settings.onDuplicate })
      (schema.toRegistry settings) := by
  cases hplay : (Registry.empty settings.onDuplicate).play (schema.script settings) with
  | mk result m =>
      cases result with
      | error e =>
          obtain ⟨categories, log, hrun⟩ := (performs_providers settings schema).stopped
            (w := { registry := .empty settings.onDuplicate }) hplay
          rw [hrun]
          exact toRegistry_of_stopped hplay
      | ok u =>
          obtain ⟨log, hrun⟩ := (performs_providers settings schema).played
            (w := { registry := .empty settings.onDuplicate }) hplay
          obtain ⟨hconsistent, hkeys⟩ := flattened_of_played hplay
          rw [hrun]
          exact Export.completes_of_flattened schema.distinct_categories hconsistent hkeys
            fun r hr => toRegistry_eq_ok.2 ⟨m, hplay, hr⟩

/-- Exporting provider by provider is completed by the index. -/
theorem completes_toRegistryIndependently (settings : FlatteningSettings) (schema : Schema) :
    Export.Completes
      ((schema.providers.inNameOrder.forM fun e => Export.providerApart settings e.1 e.2).runOn
        { registry := .empty settings.onDuplicate })
      (schema.toRegistryIndependently settings) := by
  cases hgather : Registry.gather settings.onDuplicate (.empty settings.onDuplicate)
      (schema.scripts settings) with
  | error e =>
      obtain ⟨w, hrun⟩ := Export.runOn_providersApart_error
        (w := { registry := .empty settings.onDuplicate }) hgather
      rw [hrun]
      exact toRegistryIndependently_of_stopped hgather
  | ok m =>
      obtain ⟨log, hrun⟩ := Export.runOn_providersApart_ok
        (w := { registry := .empty settings.onDuplicate }) hgather
      obtain ⟨hconsistent, hkeys⟩ := flattened_of_gathered hgather
      rw [hrun]
      exact Export.completes_of_flattened schema.distinct_categories hconsistent hkeys
        fun r hr => toRegistryIndependently_eq_ok.2 ⟨m, hgather, hr⟩

/-- The root index and the blocks of a schema do not meet, whatever the names in the schema are and
whatever the settings.  Once all providers are flattened, in one registry or each in its own, no key
has a full name of the index; to add the index does not fail, leaves every block as it is, and makes
the export four entries larger.  An export fails only as the flattening fails. -/
theorem root_index_spares_blocks (settings : FlatteningSettings) (schema : Schema) :
    Export.Completes
        ((schema.providers.inNameOrder.forM fun e => Export.provider settings e.1 e.2).runOn
          { registry := .empty settings.onDuplicate })
        (schema.toRegistry settings) ∧
      Export.Completes
        ((schema.providers.inNameOrder.forM fun e => Export.providerApart settings e.1 e.2).runOn
          { registry := .empty settings.onDuplicate })
        (schema.toRegistryIndependently settings) :=
  ⟨completes_toRegistry settings schema, completes_toRegistryIndependently settings schema⟩

/-- A schema with the names of the index, and with parts of them. -/
def rootNamed : Schema :=
  let item (nested : List (String × Nesting × Block)) : SchemaItem :=
    ⟨0, .mk [("name", { type := .primitive "bool" })] nested⟩
  { formatVersion := "1.0"
    providers :=
      [("provider", ⟨item [("root", {}, .mk [] [])], [("config", item [])],
        [("data_root", item [])]⟩)] }

/-- Its blocks have other names than the index, and stay. -/
theorem root_index_spares_blocks_rootNamed :
    let settings : FlatteningSettings := {}
    let flattened := (rootNamed.providers.inNameOrder.forM fun e =>
      Export.provider settings e.1 e.2).runOn { registry := .empty settings.onDuplicate }
    ∃ w r, flattened = (.ok (), w) ∧
      w.registry.fullNames =
        ["config_details", "data_root_details", "provider_block_type_root", "provider_details"] ∧
      rootNamed.toRegistry settings = .ok r ∧ r.size = w.registry.size + 4 ∧
      ∀ key ∈ w.registry.keys, r.get? key = w.registry.get? key := by
  intro settings flattened
  obtain ⟨hcompletes, -⟩ : Export.Completes flattened (rootNamed.toRegistry settings) ∧ _ :=
    root_index_spares_blocks settings rootNamed
  have hflattened : flattened.1.isOk = true ∧ flattened.2.registry.fullNames =
      ["config_details", "data_root_details", "provider_block_type_root", "provider_details"] := by
    decide +kernel
  obtain ⟨result, w⟩ := flattened
  obtain ⟨u, rfl⟩ := exists_eq_ok_of_isOk hflattened.1
  obtain ⟨-, r, -, hexport, hkept, hsize⟩ := hcompletes
  exact ⟨w, r, rfl, hflattened.2, hexport, hsize, hkept⟩

end Schema

end ProviderTypes
