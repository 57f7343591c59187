import ProviderTypes.Render
import ProviderTypes.Proofs.Export.Independence
import ProviderTypes.Proofs.Flatten.References

/-!
# ProviderTypes.Proofs.Export.Closure

Every reference of an export resolves.  Blocks refer to blocks that are registered
before them; the unions of the root index refer to the blocks of members, each of
which was flattened before it was recorded (`exists_declaration_of_member`); the
record over the unions refers to these.  An exported registry is therefore closed
and can be rendered in every way (`reference_closure`).
-/

namespace ProviderTypes

/-! ## members -/

namespace RootCategories

/-- A member is added unless it is there. -/
theorem mem_addTo {l : List String} {member other : String} :
    other ∈ addTo l member ↔ other ∈ l ∨ other = member := by
  unfold addTo
  split
  · next hm =>
      constructor
      · exact Or.inl
      · intro h
        cases h with
        | inl h => exact h
        | inr h => rwa [h]
  · rw [List.mem_append, List.mem_singleton]

/-- A member is added to its category alone. -/
theorem mem_members_add {cs : RootCategories} {category other : RootCategory}
    {member name : String} :
    name ∈ (cs.add category member).members other ↔
      name ∈ cs.members other ∨ (other, name) = (category, member) := by
  cases category <;> cases other <;> simp [add, members, mem_addTo]

/-- The members of a group are those that were there and those that are recorded. -/
theorem mem_members_addAll {cs : RootCategories} {found : List (RootCategory × String)}
    {category : RootCategory} {name : String} :
    name ∈ (cs.addAll found).members category ↔
      name ∈ cs.members category ∨ (category, name) ∈ found := by
  induction found generalizing cs with
  | nil => simp [addAll]
  | cons p found ih =>
      change name ∈ ((cs.add p.1 p.2).addAll found).members category ↔ _
      rw [ih, mem_members_add, List.mem_cons, or_assoc]

end RootCategories

/-- A declared block has its own details key. -/
theorem Flatten.exists_details (scope : Option String) (name : String) (block : Block) :
    ∃ d ∈ declarations scope name block, d.key = .details name :=
  ⟨_, List.mem_append_right _ List.mem_cons_self, rfl⟩

/-- Every member that a provider records is declared by it. -/
theorem Export.exists_declaration_of_mem {settings : FlatteningSettings} {name member : String}
    {p : ProviderSchema} {category : RootCategory} (h : (category, member) ∈ members name p) :
    ∃ d ∈ declarationsOf settings name p, d.key = .details member := by
  rw [members, List.mem_cons, List.mem_append] at h
  cases h with
  | inl h =>
      cases h
      obtain ⟨d, hd, hkey⟩ := Flatten.exists_details none name p.provider.block
      exact ⟨d, List.mem_append_left _ hd, hkey⟩
  | inr h =>
      cases h with
      | inl h =>
          obtain ⟨e, he, h⟩ := List.mem_flatMap.1 h
          rw [List.mem_singleton, Prod.mk.injEq] at h
          obtain ⟨d, hd, hkey⟩ := Flatten.exists_details (some resourceScope) e.1
            (resourceBlock settings e.2)
          refine ⟨d, List.mem_append_right _ (List.mem_append_left _ ?_), by rw [hkey, h.2]⟩
          exact List.mem_flatMap.2 ⟨e, he, hd⟩
      | inr h =>
          obtain ⟨e, he, h⟩ := List.mem_flatMap.1 h
          rw [List.mem_singleton, Prod.mk.injEq] at h
          obtain ⟨d, hd, hkey⟩ := Flatten.exists_details (some dataSourceScope) e.1 e.2.block
          refine ⟨d, List.mem_append_right _ (List.mem_append_right _ ?_), by rw [hkey, h.2]⟩
          exact List.mem_flatMap.2 ⟨e, he, hd⟩

/-- The root index refers to the blocks of its members, and to itself. -/
theorem RootIndex.refs_entries {cs : RootCategories} {h : cs.Distinct} {e : Registry.Entry}
    {name : String} (he : e ∈ entries cs h) (hname : name ∈ e.2.refs) :
    (∃ category, ∃ member ∈ cs.members category,
        (QualifiedName.details member).fullName = name) ∨
      ∃ category, (QualifiedName.root category).fullName = name := by
  rw [entries, List.mem_append, List.mem_map, List.mem_singleton] at he
  cases he with
  | inl he =>
      obtain ⟨category, -, rfl⟩ := he
      left
      simp only [Container.refs, variants, List.flatMap_map, Shape.refs, List.mem_flatMap] at hname
      obtain ⟨member, hmember, hname⟩ := hname
      refine ⟨category, member, hmember, ?_⟩
      cases category <;>
        simpa [memberFormat, Format.refs, Format.detailsRef, eq_comm] using hname
  | inr he =>
      right
      subst he
      simp only [Container.refs, Record.refs, configRecord, List.flatMap_map,
        List.mem_flatMap] at hname
      obtain ⟨category, -, hname⟩ := hname
      refine ⟨category, ?_⟩
      simpa [configField, Format.refs, eq_comm] using hname

namespace Schema

variable {settings : FlatteningSettings} {schema : Schema} {m r : Registry}

/-- Every member of a category is the name of a block that is declared. -/
theorem exists_declaration_of_member {category : RootCategory} {member : String}
    (h : member ∈ schema.categories.members category) :
    ∃ d ∈ schema.declarations settings, d.key = .details member := by
  rw [categories, RootCategories.mem_members_addAll] at h
  cases h with
  | inl h => cases category <;> simp [RootCategories.members] at h
  | inr h =>
      obtain ⟨p, hp, h⟩ := List.mem_flatMap.1 h
      obtain ⟨d, hd, hkey⟩ :
          ∃ d ∈ Export.declarationsOf settings p.1 p.2, d.key = .details member :=
        Export.exists_declaration_of_mem h
      exact ⟨d, List.mem_flatMap.2 ⟨p, hp, hd⟩, hkey⟩

/-- The script of a schema keeps registries closed, wherever it stops. -/
theorem keeps_script (settings : FlatteningSettings) (schema : Schema) :
    (schema.script settings).Keeps [] := by
  have hblock : ∀ scope name block, (Flatten.scriptOf settings.escapes scope name block).Keeps [] :=
    fun scope name block =>
      (Flatten.keeps_scriptOf settings.escapes scope name block).subset (by simp)
  refine Script.Keeps.flatMap fun e => ?_
  exact (hblock none e.1 e.2.provider.block).append
    ((Script.Keeps.flatMap fun resource => hblock _ _ _).append
      (Script.Keeps.flatMap fun dataSource => hblock _ _ _))

/-- The result of an export is closed. -/
theorem closed_toRegistry (h : schema.toRegistry settings = .ok r) : r.Closed := by
  obtain ⟨m, hplay, hr⟩ := toRegistry_eq_ok.1 h
  have hm : m.Closed := (keeps_script settings schema).closed (Registry.closed_empty _) hplay
  refine Registry.enters_replace.closed_foldlM hr hm fun e he name hname => ?_
  cases RootIndex.refs_entries he hname with
  | inl href =>
      obtain ⟨category, member, hmember, hname⟩ := href
      obtain ⟨d, hd, hkey⟩ : ∃ d ∈ schema.declarations settings, d.key = .details member :=
        exists_declaration_of_member hmember
      exact ⟨d.key, (mem_keys_toRegistry h).2 (Or.inl ⟨d, hd, rfl⟩), by rw [hkey, hname]⟩
  | inr href =>
      obtain ⟨category, hname⟩ := href
      have hroot : QualifiedName.root category ∈ RootIndex.keys := by
        cases category <;> decide
      exact ⟨.root category, (mem_keys_toRegistry h).2 (Or.inr hroot), hname⟩

/-- The registry of a schema is consistent. -/
theorem consistent_toRegistry (h : schema.toRegistry settings = .ok r) : r.Consistent := by
  obtain ⟨m, hplay, hr⟩ := toRegistry_eq_ok.1 h
  exact Registry.enters_replace.consistent_foldlM hr
    (Registry.consistent_of_play (Registry.consistent_empty _) hplay)

/-- The registry that is merged from those of the providers is closed. -/
theorem closed_toRegistryIndependently (h : schema.toRegistryIndependently settings = .ok r) :
    r.Closed := by
  obtain ⟨r', hr', hsame⟩ := exists_toRegistry_same h
  exact (closed_toRegistry hr').congr (Registry.same_iff.1 hsame.symm)

/-- The registry that is merged from those of the providers is consistent. -/
theorem consistent_toRegistryIndependently (h : schema.toRegistryIndependently settings = .ok r) :
    r.Consistent := by
  obtain ⟨m, hgather, hr⟩ := toRegistryIndependently_eq_ok.1 h
  exact Registry.enters_replace.consistent_foldlM hr
    (Registry.consistent_of_gather (Registry.consistent_empty _) hgather)

end Schema

/-! ## rendering -/

/-- A closed registry is rendered, whatever the settings and the writer of plain data. -/
theorem Registry.Closed.exists_render {r : Registry} (h : r.Closed) (hr : r.Consistent)
    (write : Plain → String) (s : GeneratorSettings) : ∃ text, r.render write s = .ok text := by
  unfold render Rust.source Yaml.source
  rw [h.validateReferences_eq_ok hr]
  cases s.outputFormat with
  | rust => exact ⟨_, rfl⟩
  | yaml => exact ⟨_, rfl⟩

/-- Every reference resolves.  Flattening a block keeps a closed registry closed and loses no key of
it, whether it succeeds or fails midway; what an export answers, in one registry or in several,
passes the check of its references without names from outside and is rendered under all
settings, by whatever writer of plain data. -/
theorem reference_closure :
    (∀ (rules : EscapeRules) (scope : Option String) (name : String) (block : Block)
      (w w' : Workspace) (result : Except ExportError Record), w.registry.Closed →
      (flattenBlock rules scope name block).runOn w = (result, w') →
      w'.registry.Closed ∧ ∀ key ∈ w.registry.keys, key ∈ w'.registry.keys) ∧
    ∀ (settings : FlatteningSettings) (schema : Schema) (r : Registry),
      schema.toRegistry settings = .ok r ∨ schema.toRegistryIndependently settings = .ok r →
      r.validateReferences [] = .ok () ∧
        ∀ (write : Plain → String) (s : GeneratorSettings),
          ∃ text, r.render write s = .ok text := by
  constructor
  · intro rules scope name block w w' result hw hrun
    have hkeeps := Flatten.closed_runOn_flattenBlock rules scope name block hw
    rwa [hrun] at hkeeps
  · intro settings schema r hexport
    have hr : r.Closed ∧ r.Consistent := by
      cases hexport with
      | inl h => exact ⟨Schema.closed_toRegistry h, Schema.consistent_toRegistry h⟩
      | inr h =>
          exact ⟨Schema.closed_toRegistryIndependently h,
            Schema.consistent_toRegistryIndependently h⟩
    exact ⟨hr.1.validateReferences_eq_ok hr.2 [], fun write s => hr.1.exists_render hr.2 write s⟩

/-- A block is named like an attribute beside it: its record is registered, its parent fails, and no
reference is left open.  The sample is exported, and its references resolve. -/
theorem reference_closure_sample :
    let run := (flattenBlock {} none "net" (.mk [("rule", { type := .primitive "string" })]
      [("rule", {}, .mk [] [])])).runOn { registry := .empty .error }
    (run.1.isOk = false ∧ QualifiedName.nested none "net" "rule" ∈ run.2.registry.keys ∧
      run.2.registry.Closed) ∧
    ∃ r, Schema.sample.toRegistry {} = .ok r ∧ r.validateReferences [] = .ok () := by
  intro run
  obtain ⟨hflatten, hexport⟩ := reference_closure
  have hrun : (flattenBlock {} none "net" (.mk [("rule", { type := .primitive "string" })]
      [("rule", {}, .mk [] [])])).runOn { registry := .empty .error } = (run.1, run.2) := rfl
  have hclosed : run.2.registry.Closed := (hflatten _ _ _ _ _ _ _ (Registry.closed_empty _) hrun).1
  obtain ⟨r, hr⟩ := Schema.exists_toRegistry_sample
  exact ⟨⟨by decide +kernel, by decide +kernel, hclosed⟩, r, hr, (hexport _ _ _ (Or.inl hr)).1⟩

end ProviderTypes
