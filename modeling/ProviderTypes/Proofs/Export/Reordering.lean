import ProviderTypes.Render
import ProviderTypes.Proofs.Export.Independence
import ProviderTypes.Proofs.Flatten.Reordering

/-!
# ProviderTypes.Proofs.Export.Reordering

The order of a document does not show in an export.  What an export answers, be it
a registry or an error, depends on the scripts of the providers and on the members
found, and on nothing else (`toRegistry_congr`, `toRegistryIndependently_congr`).
Providers, resources and data sources are visited in the order of their names, so
a schema and its reordering have the same scripts and members (`scripts_reordered`,
`categories_reordered`), and hence the same exports (`toRegistry_reordered`).
-/

namespace ProviderTypes

namespace Export

variable {p q : ProviderSchema}

/-! ## providers -/

/-- Resources that differ in order have blocks that differ in order. -/
theorem resourceBlock_reordered {a b : SchemaItem} (h : a.Reordered b) (ha : a.block.Distinct)
    (hb : b.block.Distinct) (settings : FlatteningSettings) :
    (resourceBlock settings a).Reordered (resourceBlock settings b) := by
  unfold resourceBlock
  split
  · exact h.block.withMetaAttributes ha hb
  · exact h.block

theorem distinct_resourceBlock {a : SchemaItem} (ha : a.block.Distinct)
    (settings : FlatteningSettings) : (resourceBlock settings a).Distinct := by
  unfold resourceBlock
  split
  · exact ha.withMetaAttributes
  · exact ha

/-- Items in order, each with its reordering, where all their blocks have distinct names. -/
theorem forall₂_items {m n : Members SchemaItem} (h : m.Matches SchemaItem.Reordered n)
    (hm : m.names.Nodup) (hn : n.names.Nodup) (hmBlocks : ∀ e ∈ m, e.2.block.Distinct)
    (hnBlocks : ∀ e ∈ n, e.2.block.Distinct) :
    List.Forall₂ (fun d e => d.1 = e.1 ∧
      d.2.Reordered e.2 ∧ d.2.block.Distinct ∧ e.2.block.Distinct) m.inNameOrder n.inNameOrder := by
  have hmatches : m.Matches
      (fun a b => a.Reordered b ∧ a.block.Distinct ∧ b.block.Distinct) n :=
    h.imp fun _ _ _ ha hb hab =>
      ⟨hab, hmBlocks _ (Members.mem_of_get? ha), hnBlocks _ (Members.mem_of_get? hb)⟩
  exact hmatches.inNameOrder hm hn

/-- A provider and its reordering have one script. -/
theorem script_reordered (h : p.Reordered q) (hp : p.Distinct) (hq : q.Distinct)
    (settings : FlatteningSettings) (name : String) :
    script settings name p = script settings name q := by
  have hresources := forall₂_items h.resources hp.resources hq.resources hp.resourceBlocks
    hq.resourceBlocks
  have hdata := forall₂_items h.dataSources hp.dataSources hq.dataSources hp.dataSourceBlocks
    hq.dataSourceBlocks
  unfold script
  congr 1
  · exact Flatten.scriptOf_reordered h.provider.block hp.provider hq.provider _ _ _
  congr 1
  · apply flatMap_eq_of_forall₂ hresources
    intro d e hde
    obtain ⟨hname, hitem, hd, he⟩ := hde
    rw [hname]
    exact Flatten.scriptOf_reordered (resourceBlock_reordered hitem hd he settings)
      (distinct_resourceBlock hd settings) (distinct_resourceBlock he settings) _ _ _
  · apply flatMap_eq_of_forall₂ hdata
    intro d e hde
    obtain ⟨hname, hitem, hd, he⟩ := hde
    rw [hname]
    exact Flatten.scriptOf_reordered hitem.block hd he _ _ _

/-- A provider and its reordering have the same members, found in the same order. -/
theorem members_reordered (h : p.Reordered q) (hp : p.Distinct) (hq : q.Distinct) (name : String) :
    members name p = members name q := by
  have hresources := h.resources.inNameOrder hp.resources hq.resources
  have hdata := h.dataSources.inNameOrder hp.dataSources hq.dataSources
  unfold members
  congr 2
  · exact flatMap_eq_of_forall₂ hresources fun d e hde => by rw [hde.1]
  · exact flatMap_eq_of_forall₂ hdata fun d e hde => by rw [hde.1]

end Export

namespace Schema

variable {settings : FlatteningSettings} {s t : Schema}

/-! ## what an export depends on -/

/-- The index depends on the categories alone. -/
theorem rootEntries_congr (h : s.categories = t.categories) : s.rootEntries = t.rootEntries := by
  unfold rootEntries
  congr 1

/-- An export into one registry depends on the scripts and the members found. -/
theorem toRegistry_congr (hscripts : s.scripts settings = t.scripts settings)
    (hcategories : s.categories = t.categories) :
    s.toRegistry settings = t.toRegistry settings := by
  have hscript : s.script settings = t.script settings := by
    rw [← flatten_scripts, ← flatten_scripts, hscripts]
  cases hplay : (Registry.empty settings.onDuplicate).play (s.script settings) with
  | mk result m =>
      cases result with
      | error e =>
          rw [toRegistry_of_stopped hplay, toRegistry_of_stopped (hscript ▸ hplay)]
      | ok u =>
          obtain ⟨r, hr, hs⟩ := toRegistry_of_played hplay
          obtain ⟨r', hr', ht⟩ := toRegistry_of_played (hscript ▸ hplay)
          rw [← rootEntries_congr hcategories, hr, Except.ok.injEq] at hr'
          rw [hs, ht, hr']

/-- Scripts that cannot be gathered stop an independent export in the same way. -/
theorem toRegistryIndependently_of_stopped {e : ExportError}
    (h : Registry.gather settings.onDuplicate (.empty settings.onDuplicate)
      (s.scripts settings) = .error e) :
    s.toRegistryIndependently settings = .error e := by
  obtain ⟨w, hrun⟩ := Export.runOn_providersApart_error
    (w := { registry := .empty settings.onDuplicate }) h
  unfold toRegistryIndependently Export.registryOf Export.independent
  rw [Build.runOn_bind, hrun]
  rfl

/-- An independent export depends on the scripts and the members found. -/
theorem toRegistryIndependently_congr (hscripts : s.scripts settings = t.scripts settings)
    (hcategories : s.categories = t.categories) :
    s.toRegistryIndependently settings = t.toRegistryIndependently settings := by
  cases hgather : Registry.gather settings.onDuplicate (.empty settings.onDuplicate)
      (s.scripts settings) with
  | error e =>
      rw [toRegistryIndependently_of_stopped hgather,
        toRegistryIndependently_of_stopped (hscripts ▸ hgather)]
  | ok m =>
      obtain ⟨r, hr, hs⟩ := toRegistryIndependently_of_gathered hgather
      obtain ⟨r', hr', ht⟩ := toRegistryIndependently_of_gathered (hscripts ▸ hgather)
      rw [← rootEntries_congr hcategories, hr, Except.ok.injEq] at hr'
      rw [hs, ht, hr']

/-! ## reordered schemas -/

/-- Providers in order, each with its reordering. -/
theorem forall₂_providers (h : s.Reordered t) (hs : s.Distinct) (ht : t.Distinct) :
    List.Forall₂ (fun d e => d.1 = e.1 ∧ d.2.Reordered e.2 ∧ d.2.Distinct ∧ e.2.Distinct)
      s.providers.inNameOrder t.providers.inNameOrder := by
  have hmatches : s.providers.Matches
      (fun p q => p.Reordered q ∧ p.Distinct ∧ q.Distinct) t.providers :=
    h.providers.imp fun _ _ _ hp hq hpq =>
      ⟨hpq, hs.each _ (Members.mem_of_get? hp), ht.each _ (Members.mem_of_get? hq)⟩
  exact hmatches.inNameOrder hs.providers ht.providers

/-- Schemas that differ in order have the same scripts. -/
theorem scripts_reordered (h : s.Reordered t) (hs : s.Distinct) (ht : t.Distinct)
    (settings : FlatteningSettings) : s.scripts settings = t.scripts settings := by
  apply map_eq_of_forall₂ (forall₂_providers h hs ht)
  intro d e hde
  obtain ⟨hname, hprovider, hd, he⟩ := hde
  rw [hname, Export.script_reordered hprovider hd he]

/-- Schemas that differ in order have the same categories. -/
theorem categories_reordered (h : s.Reordered t) (hs : s.Distinct) (ht : t.Distinct) :
    s.categories = t.categories := by
  unfold categories
  congr 1
  apply flatMap_eq_of_forall₂ (forall₂_providers h hs ht)
  intro d e hde
  obtain ⟨hname, hprovider, hd, he⟩ := hde
  rw [hname, Export.members_reordered hprovider hd he]

/-- A schema and its reordering, each with distinct names, have the same exports under all settings:
the same registry, with the order and the metadata of all fields, or the same error.  Hence they
have the same text in every rendering. -/
theorem toRegistry_reordered (h : s.Reordered t) (hs : s.Distinct) (ht : t.Distinct)
    (settings : FlatteningSettings) :
    s.toRegistry settings = t.toRegistry settings ∧
      s.toRegistryIndependently settings = t.toRegistryIndependently settings ∧
      ∀ (write : Plain → String) (g : GeneratorSettings),
        (s.toRegistry settings).map (Registry.render write g) =
          (t.toRegistry settings).map (Registry.render write g) ∧
        (s.toRegistryIndependently settings).map (Registry.render write g) =
          (t.toRegistryIndependently settings).map (Registry.render write g) := by
  have hscripts := scripts_reordered h hs ht settings
  have hcategories := categories_reordered h hs ht
  have hsequential := toRegistry_congr hscripts hcategories
  have hindependent := toRegistryIndependently_congr hscripts hcategories
  exact ⟨hsequential, hindependent, fun _ g => ⟨by rw [hsequential], by rw [hindependent]⟩⟩

/-- A schema and the schema that lists every mapping backwards are exported, with one result. -/
theorem toRegistry_reordered_turned :
    (turned false).Reordered (turned true) ∧ (turned false).Distinct ∧ (turned true).Distinct ∧
      (turned false).toRegistry {} = (turned true).toRegistry {} ∧
      ∃ r, (turned false).toRegistry {} = .ok r := by
  obtain ⟨hsequential, -⟩ := toRegistry_reordered reordered_turned (distinct_turned false)
    (distinct_turned true) {}
  exact ⟨reordered_turned, distinct_turned false, distinct_turned true, hsequential,
    exists_eq_ok_of_isOk (by decide +kernel)⟩

end Schema

end ProviderTypes
