import ProviderTypes.Proofs.Export.Success
import ProviderTypes.Proofs.Registry.Gather

/-!
# ProviderTypes.Proofs.Export.Independence

Exporting the providers independently, each into a registry of its own, is
gathering their scripts (`toRegistryIndependently_eq_ok`).  What that achieves
the export into one registry achieves as well, with an equal result; under the
policy of errors both succeed for the same schemas
(`toRegistryIndependently_correct`).

Under the policy of overwriting only the former holds: two providers may then
disagree in one registry, but a merge refuses them.
-/

namespace ProviderTypes

open Flatten (entriesOf)

namespace Build

/-! ## steps on a registry of their own -/

/-- A step apart starts with an empty registry, which is left where the other was. -/
theorem runOn_apart (policy : DuplicatePolicy) (step : Build Unit) (w : Workspace) :
    (apart policy step).runOn w =
      match step.runOn { w with registry := .empty policy } with
      | (.ok _, w') => (.ok w'.registry, { w' with registry := w.registry })
      | (.error e, w') => (.error e, w') := by
  unfold apart
  simp only [runOn_bind, runOn_get, runOn_modify]
  cases step.runOn { w with registry := .empty policy } with
  | mk result w' => cases result <;> rfl

/-- A merge changes the registry alone. -/
theorem runOn_merge {own other r : Registry} {result : Except RegistryError Unit}
    {categories : RootCategories} {log : List LogRecord} (h : own.merge other = (result, r)) :
    (merge other).runOn ⟨own, categories, log⟩ =
      (result.mapError .registry, ⟨r, categories, log⟩) := by
  unfold merge
  simp only [runOn_bind, runOn_get, h, runOn_modify, runOn_lift]

end Build

namespace Export

variable {settings : FlatteningSettings} {name : String} {p : ProviderSchema} {f r : Registry}
  {w : Workspace} {e : ExportError}

/-- A provider whose script succeeds on its own is merged as one registry. -/
theorem runOn_providerApart_of_played
    (h : (Registry.empty settings.onDuplicate).play (script settings name p) = (.ok (), f)) :
    ∃ log, (providerApart settings name p).runOn w =
      (Build.merge f).runOn ⟨w.registry, w.categories.addAll (members name p), log⟩ := by
  obtain ⟨log, hrun⟩ := (performs_provider settings name p).played
    (w := { w with registry := .empty settings.onDuplicate }) h
  refine ⟨log, ?_⟩
  unfold providerApart
  rw [Build.runOn_bind, Build.runOn_apart, hrun]

/-- A provider whose script fails on its own fails so. -/
theorem runOn_providerApart_of_stopped
    (h : (Registry.empty settings.onDuplicate).play (script settings name p) = (.error e, f)) :
    ∃ w', (providerApart settings name p).runOn w = (.error e, w') := by
  obtain ⟨categories, log, hrun⟩ := (performs_provider settings name p).stopped
    (w := { w with registry := .empty settings.onDuplicate }) h
  refine ⟨⟨f, categories, log⟩, ?_⟩
  unfold providerApart
  rw [Build.runOn_bind, Build.runOn_apart, hrun]

/-- Providers whose scripts are gathered are exported independently. -/
theorem runOn_providersApart_ok {l : Members ProviderSchema}
    (h : Registry.gather settings.onDuplicate w.registry (l.map fun e => script settings e.1 e.2) =
      .ok r) :
    ∃ log, (l.forM fun e => providerApart settings e.1 e.2).runOn w =
      (.ok (), ⟨r, w.categories.addAll (l.flatMap fun e => members e.1 e.2), log⟩) := by
  induction l generalizing w with
  | nil =>
      cases h
      exact ⟨w.log, rfl⟩
  | cons e l ih =>
      obtain ⟨f, m, hplay, hmerge, hrest⟩ := Registry.gather_cons_eq_ok.1 h
      obtain ⟨log, hrun⟩ := runOn_providerApart_of_played (w := w) hplay
      obtain ⟨log', hrun'⟩ := ih (w := ⟨m, w.categories.addAll (members e.1 e.2), log⟩) hrest
      refine ⟨log', ?_⟩
      change (providerApart settings e.1 e.2 >>= fun _ =>
        l.forM fun e => providerApart settings e.1 e.2).runOn w = _
      rw [Build.runOn_bind, hrun, Build.runOn_merge hmerge]
      change (l.forM fun e => providerApart settings e.1 e.2).runOn _ = _
      rw [hrun', List.flatMap_cons, RootCategories.addAll_append]

/-- Providers whose scripts are not gathered fail. -/
theorem runOn_providersApart_error {l : Members ProviderSchema}
    (h : Registry.gather settings.onDuplicate w.registry (l.map fun e => script settings e.1 e.2) =
      .error e) :
    ∃ w', (l.forM fun e => providerApart settings e.1 e.2).runOn w = (.error e, w') := by
  induction l generalizing w with
  | nil => contradiction
  | cons p l ih =>
      change ∃ w', (providerApart settings p.1 p.2 >>= fun _ =>
        l.forM fun e => providerApart settings e.1 e.2).runOn w = (.error e, w')
      rw [Build.runOn_bind]
      rw [List.map_cons, Registry.gather] at h
      cases hplay : (Registry.empty settings.onDuplicate).play (script settings p.1 p.2) with
      | mk result f =>
          cases result with
          | error e' =>
              rw [hplay, Except.error.injEq] at h
              subst h
              obtain ⟨w', hrun⟩ := runOn_providerApart_of_stopped (w := w) hplay
              exact ⟨w', by rw [hrun]⟩
          | ok u =>
              obtain ⟨log, hrun⟩ := runOn_providerApart_of_played (w := w) hplay
              rw [hrun]
              cases hmerge : w.registry.merge f with
              | mk result m =>
                  rw [Build.runOn_merge hmerge]
                  simp only [hplay, hmerge] at h
                  cases result with
                  | error x =>
                      rw [Except.error.injEq] at h
                      subst h
                      exact ⟨_, rfl⟩
                  | ok u => exact ih (w := ⟨m, w.categories.addAll (members p.1 p.2), log⟩) h

end Export

namespace Schema

variable {settings : FlatteningSettings} {schema : Schema} {m r : Registry}

/-! ## gathering a schema -/

/-- What is registered for each provider. -/
def scripts (settings : FlatteningSettings) (schema : Schema) : List Script :=
  schema.providers.inNameOrder.map fun e => Export.script settings e.1 e.2

/-- The entries of the blocks of each provider that translate. -/
def plans (settings : FlatteningSettings) (schema : Schema) : List (List Registry.Entry) :=
  schema.providers.inNameOrder.map fun e =>
    entriesOf settings.escapes (Export.declarationsOf settings e.1 e.2)

theorem flatten_scripts (settings : FlatteningSettings) (schema : Schema) :
    (schema.scripts settings).flatten = schema.script settings := List.flatMap_def.symm

/-- Where all declarations have records, the scripts are the plans. -/
theorem scripts_eq_map_plans
    (h : ∀ d ∈ schema.declarations settings, ∃ x, d.record settings.escapes = .ok x) :
    schema.scripts settings = (schema.plans settings).map fun es => es.map .ok := by
  unfold scripts plans
  rw [List.map_map]
  apply List.map_congr_left
  intro e he
  have htranslate : ∀ d ∈ Export.declarationsOf settings e.1 e.2,
      ∃ x, d.record settings.escapes = .ok x :=
    fun d hd => h d (List.mem_flatMap.2 ⟨e, he, hd⟩)
  rw [(Export.registers_script settings e.1 e.2).eq_map htranslate,
    Flatten.map_entry_of_translate htranslate]
  rfl

/-- What is planned for one provider is planned for the schema. -/
theorem mem_plan_of_mem_plans {es : List Registry.Entry} {e : Registry.Entry}
    (hes : es ∈ schema.plans settings) (he : e ∈ es) : e ∈ schema.plan settings := by
  obtain ⟨p, hp, rfl⟩ := List.mem_map.1 hes
  obtain ⟨d, hd, x, hx, rfl⟩ := Flatten.mem_entriesOf.1 he
  exact Flatten.mem_entriesOf.2 ⟨d, List.mem_flatMap.2 ⟨p, hp, hd⟩, x, hx, rfl⟩

/-- What is gathered from the providers can be played in sequence. -/
theorem exists_played_of_gathered
    (h : Registry.gather settings.onDuplicate (.empty settings.onDuplicate)
      (schema.scripts settings) = .ok m) :
    ∃ m', (Registry.empty settings.onDuplicate).play (schema.script settings) = (.ok (), m') ∧
      ∀ key, m'.bare? key = m.bare? key := by
  have hempty := Registry.consistent_empty settings.onDuplicate
  rw [← flatten_scripts]
  exact Registry.exists_play_of_gather hempty hempty rfl (fun _ => rfl) h

/-- What is gathered is a consistent registry of blocks. -/
theorem flattened_of_gathered
    (h : Registry.gather settings.onDuplicate (.empty settings.onDuplicate)
      (schema.scripts settings) = .ok m) :
    m.Consistent ∧ ∀ key ∈ m.keys, key.Flattened := by
  refine ⟨Registry.consistent_of_gather (Registry.consistent_empty _) h, ?_⟩
  -- The same scripts played in sequence tell that all keys are keys of blocks.
  obtain ⟨m', hplay, hsame⟩ := exists_played_of_gathered h
  intro key hkey
  rw [Registry.mem_keys_iff_bare?, ← hsame, ← Registry.mem_keys_iff_bare?] at hkey
  exact (flattened_of_played hplay).2 key hkey

/-- To the registry that is gathered the root index is added. -/
theorem toRegistryIndependently_of_gathered
    (h : Registry.gather settings.onDuplicate (.empty settings.onDuplicate)
      (schema.scripts settings) = .ok m) :
    ∃ r, schema.rootEntries.foldlM (fun (r : Registry) e => r.replace e.1 e.2) m = .ok r ∧
      schema.toRegistryIndependently settings = .ok r := by
  obtain ⟨log, hrun⟩ := Export.runOn_providersApart_ok
    (w := { registry := .empty settings.onDuplicate }) h
  change _ = (_, (⟨m, schema.categories, log⟩ : Workspace)) at hrun
  obtain ⟨hconsistent, hkeys⟩ := flattened_of_gathered h
  obtain ⟨r, hr, hbuild⟩ := RootIndex.exists_runOn_build schema.distinct_categories
    (w := ⟨m, schema.categories, log⟩) hconsistent hkeys
  refine ⟨r, hr, ?_⟩
  unfold toRegistryIndependently Export.registryOf Export.independent
  rw [Build.runOn_bind, hrun]
  simp only [Export.runOn_addRootIndex]
  rw [hbuild]
  rfl

/-- An independent export succeeds exactly when the scripts of the providers are gathered; the root
index comes on top. -/
theorem toRegistryIndependently_eq_ok :
    schema.toRegistryIndependently settings = .ok r ↔
      ∃ m, Registry.gather settings.onDuplicate (.empty settings.onDuplicate)
          (schema.scripts settings) = .ok m ∧
        schema.rootEntries.foldlM (fun (r : Registry) e => r.replace e.1 e.2) m = .ok r := by
  constructor
  · intro h
    cases hgather : Registry.gather settings.onDuplicate (.empty settings.onDuplicate)
        (schema.scripts settings) with
    | error e =>
        obtain ⟨w', hrun⟩ := Export.runOn_providersApart_error
          (w := { registry := .empty settings.onDuplicate }) hgather
        unfold toRegistryIndependently Export.registryOf Export.independent at h
        rw [Build.runOn_bind, hrun] at h
        contradiction
    | ok m =>
        obtain ⟨r', hr', hexport⟩ := toRegistryIndependently_of_gathered hgather
        rw [hexport, Except.ok.injEq] at h
        exact ⟨m, rfl, h ▸ hr'⟩
  · intro hexists
    obtain ⟨m, hgather, hr⟩ := hexists
    obtain ⟨r', hr', hexport⟩ := toRegistryIndependently_of_gathered hgather
    rw [hr', Except.ok.injEq] at hr
    rw [hexport, hr]

/-! ## both exports -/

/-- Where an independent export succeeds, the export into one registry does, with an equal
result. -/
theorem exists_toRegistry_same (h : schema.toRegistryIndependently settings = .ok r) :
    ∃ r', schema.toRegistry settings = .ok r' ∧ r'.Same r := by
  obtain ⟨m, hgather, hr⟩ := toRegistryIndependently_eq_ok.1 h
  obtain ⟨m', hplay, hsame⟩ := exists_played_of_gathered hgather
  obtain ⟨r', hr', hexport⟩ := toRegistry_of_played hplay
  refine ⟨r', hexport, Registry.same_iff.2 fun key => ?_⟩
  rw [Registry.enters_replace.bare?_foldlM hr', Registry.enters_replace.bare?_foldlM hr, hsame]

/-- Under the policy of errors the converse holds: all that the result of an export has can be
gathered. -/
theorem exists_toRegistryIndependently (hpolicy : settings.onDuplicate = .error)
    (h : schema.toRegistry settings = .ok r) :
    ∃ r', schema.toRegistryIndependently settings = .ok r' := by
  obtain ⟨htranslate, hcompatible⟩ := (exists_toRegistry_iff hpolicy).1 ⟨r, h⟩
  obtain ⟨-, m, hm, -⟩ := exists_filled h
  have hempty := Registry.consistent_empty settings.onDuplicate
  have hall : ∀ es ∈ schema.plans settings, ∀ e ∈ es, m.bare? e.1 = some e.2.bare := by
    intro es hes e he
    rw [Registry.enters_insert.bare?_foldlM hm,
      hcompatible.lastBare?_eq (mem_plan_of_mem_plans hes he), Option.some_or]
  obtain ⟨m', hgather⟩ : ∃ m', Registry.gather settings.onDuplicate (.empty settings.onDuplicate)
      ((schema.plans settings).map fun es => es.map .ok) = .ok m' :=
    Registry.exists_gather_of_below (Registry.enters_insert.consistent_foldlM hm hempty) hempty
      (Registry.below_empty _ _) hall
  rw [← scripts_eq_map_plans htranslate] at hgather
  obtain ⟨r', -, hexport⟩ := toRegistryIndependently_of_gathered hgather
  exact ⟨r', hexport⟩

/-- Exporting the providers independently and exporting them into one registry agree.  Where the
former succeeds, the latter succeeds with an equal registry; under the policy of errors each
succeeds exactly when the other does. -/
theorem toRegistryIndependently_correct (settings : FlatteningSettings) (schema : Schema) :
    (∀ r, schema.toRegistryIndependently settings = .ok r →
      ∃ r', schema.toRegistry settings = .ok r' ∧ r'.Same r) ∧
    (settings.onDuplicate = .error →
      ((∃ r, schema.toRegistryIndependently settings = .ok r) ↔
        ∃ r, schema.toRegistry settings = .ok r)) := by
  refine ⟨fun r hr => exists_toRegistry_same hr, fun hpolicy => ⟨?_, ?_⟩⟩
  · intro hexists
    obtain ⟨r, hr⟩ := hexists
    obtain ⟨r', hr', -⟩ := exists_toRegistry_same hr
    exact ⟨r', hr'⟩
  · intro hexists
    obtain ⟨r, hr⟩ := hexists
    exact exists_toRegistryIndependently hpolicy hr

-- Providers that disagree about a resource, under the policy of overwriting.
example :
    let item (tag : String) : SchemaItem := ⟨0, .mk [("port", { type := .primitive tag })] []⟩
    let schema : Schema := ⟨"1.0", [("a", ⟨item "bool", [("rule", item "bool")], []⟩),
      ("b", ⟨item "bool", [("rule", item "string")], []⟩)]⟩
    (schema.toRegistry { onDuplicate := .overwrite }).isOk = true ∧
      (schema.toRegistryIndependently { onDuplicate := .overwrite }).isOk = false := by
  decide +kernel

/-- The two providers of the sample share a resource, and both exports succeed. -/
theorem toRegistryIndependently_correct_sample :
    FlatteningSettings.onDuplicate {} = .error ∧
      ∃ r r', sample.toRegistryIndependently {} = .ok r ∧ sample.toRegistry {} = .ok r' ∧
        r'.Same r := by
  obtain ⟨hsame, hboth⟩ := toRegistryIndependently_correct {} sample
  obtain ⟨r, hr⟩ := (hboth rfl).2 exists_toRegistry_sample
  obtain ⟨r', hr', h⟩ := hsame r hr
  exact ⟨rfl, r, r', hr, hr', h⟩

end Schema

end ProviderTypes
